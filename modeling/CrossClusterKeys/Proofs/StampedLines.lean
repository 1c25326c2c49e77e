import CrossClusterKeys.Proofs.CurrentId
import CrossClusterKeys.Proofs.LogSetup

/-!
# Lines and the reconcile ID of their moment

Every line shows the reconcile ID that was current when its record was written, whatever else the
record says.  A program that spares the ID therefore stamps one ID on all of its lines.

**Results.**
* `Log.Session.adds_emit`, `Log.Session.adds_step`: a record and a set-up.
* `Program.run_of_sparesId`: a whole program.
* `Program.ids_run`: no program changes what IDs can be drawn.
-/

namespace CrossClusterKeys

namespace Log

/-- The document of a line shows the reconcile ID. -/
def CarriesId (id : Option Text) (j : Json) : Prop :=
  ∃ line : Line, j = .object line.members ∧ line.at? "reconcile_id" = some (Value.ofText id).toJson

namespace Session

/-- Only lines that show the ID were added. -/
def Adds (id : Option Text) (s t : Session) : Prop :=
  ∃ lines, t.written = s.written ++ lines ∧ ∀ j ∈ lines, CarriesId id j

theorem Adds.refl (id : Option Text) {s t : Session} (h : t.written = s.written) : s.Adds id t :=
  ⟨[], h.trans (List.append_nil _).symm, fun j hj => by cases hj⟩

theorem Adds.trans {id : Option Text} {s t u : Session} (h : s.Adds id t) (h' : t.Adds id u) :
    s.Adds id u := by
  obtain ⟨lines, ht, hlines⟩ := h
  obtain ⟨lines', hu, hlines'⟩ := h'
  refine ⟨lines ++ lines', by rw [hu, ht, List.append_assoc], fun j hj => ?_⟩
  exact (List.mem_append.1 hj).elim (hlines j) (hlines' j)

/-- A record is written with the current ID, whatever fields it has. -/
theorem adds_emit (s : Session) (e : Event) : s.Adds s.reconcileId (s.emit e) := by
  unfold emit
  split
  · refine ⟨_, rfl, fun j hj => ?_⟩
    obtain ⟨handler, -, hdocument⟩ := List.mem_filterMap.1 hj
    unfold documentOf? at hdocument
    split at hdocument
    · split at hdocument
      · obtain ⟨line, hj, -, hid⟩ := Record.at?_of_toJson (toOption_eq_some_iff.1 hdocument)
        exact ⟨line, hj, hid⟩
      · cases hdocument
    · cases hdocument
  · exact .refl _ rfl

theorem configure_kept {s t : Session} {levelName : Text} {f : Format}
    (h : s.configure levelName f = .ok t) :
    t.written = s.written ∧ t.reconcileId = s.reconcileId ∧ t.ids = s.ids := by
  unfold configure at h
  split at h
  · cases h
  · cases h
    exact ⟨rfl, rfl, rfl⟩

theorem ids_emit (s : Session) (e : Event) : (s.emit e).ids = s.ids := by
  obtain ⟨lines, h⟩ := s.emit_eq e
  rw [h]

/-- Records and set-ups write with the current ID and leave it as it is. -/
theorem adds_step (s : Session) (st : Step) :
    s.Adds s.reconcileId (s.step st) ∧ (s.step st).reconcileId = s.reconcileId ∧
      (s.step st).ids = s.ids := by
  refine ⟨?_, (s.stamps_step st).2⟩
  cases st with
  | configure levelName format => exact .refl _ (s.written_configure levelName format)
  | record e =>
    rw [step_record]
    split
    · exact .refl _ rfl
    · exact s.adds_emit e

end Session

end Log

namespace Program

variable {S : Service} {α σ : Type}

/-- A program that spares the ID keeps it and stamps it on every record. -/
theorem run_of_sparesId (h : (c : S.Call) → σ → S.Answer c × σ) {p : Program S α}
    (hp : p.SparesId) (w : Surroundings) (x : σ) :
    w.session.Adds w.session.reconcileId (p.run h w x).2.1.session ∧
      (p.run h w x).2.1.session.reconcileId = w.session.reconcileId := by
  refine ⟨?_, run_of_keepsId h hp.keepsId w x⟩
  induction p generalizing w x with
  | done a => exact .refl _ rfl
  | ask r k ih =>
    cases r with
    | call c => exact ih _ (hp.2 _) w _
    | log e =>
      have hlater := ih () (hp.2 ()) { w with session := w.session.emit e } x
      rw [reconcileId_emit] at hlater
      exact (w.session.adds_emit e).trans hlater
    | configureLog l f =>
      have hlater := ih _ (hp.2 (w.configureLog l f).1) (w.configureLog l f).2 x
      rw [reconcileId_configureLog] at hlater
      refine .trans (.refl _ ?_) hlater
      unfold Surroundings.configureLog
      split
      · next t ht => exact (Log.Session.configure_kept ht).1
      · rfl
    | pause d => exact ih _ (hp.2 ()) { w with pauses := w.pauses ++ [d] } x
    | currentId => exact ih _ (hp.2 _) w x
    | setId id => exact hp.1.elim
    | drawId => exact ih _ (hp.2 _) { w with session := w.session.drawId.2 } x

/-- No program changes what IDs can be drawn. -/
theorem ids_run (h : (c : S.Call) → σ → S.Answer c × σ) (p : Program S α) (w : Surroundings)
    (x : σ) : (p.run h w x).2.1.session.ids = w.session.ids := by
  induction p generalizing w x with
  | done a => rfl
  | ask r k ih =>
    cases r with
    | call c => exact ih _ w _
    | log e => exact (ih _ { w with session := w.session.emit e } x).trans (w.session.ids_emit e)
    | configureLog l f =>
      refine (ih _ (w.configureLog l f).2 x).trans ?_
      unfold Surroundings.configureLog
      split
      · next t ht => exact (Log.Session.configure_kept ht).2.2
      · rfl
    | pause d => exact ih _ { w with pauses := w.pauses ++ [d] } x
    | currentId => exact ih _ w x
    | setId id => exact ih _ (w.withId id) x
    | drawId => exact ih _ { w with session := w.session.drawId.2 } x

end Program

end CrossClusterKeys
