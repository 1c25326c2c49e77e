import CrossClusterKeys.Proofs.Asking
import CrossClusterKeys.Proofs.Execution

/-!
# The current reconcile ID

`Tracks` follows the current ID along a program, whatever its calls are answered and whatever IDs
are drawn.  Only the request that sets an ID changes it, and a program spares the ID if it never
asks for that.

**Results.**
* `tracks_bind`, `tracks_serve`: the rules for programs in sequence and for programs with another
  one in place of every call.
* `SparesId.keepsId`, `run_of_keepsId`: a program that spares the ID keeps it, and a program that
  keeps the ID leaves it as it was in every run.
* `keepsId_underId`: an action under an ID of its own keeps the current one, whatever it does.
-/

namespace CrossClusterKeys

/-- The request does not set an ID. -/
def Request.SparesId {S : Service} : Request S → Prop
  | .setId _ => False
  | _ => True

namespace Program

variable {S T : Service} {α β σ : Type}

/-- `Q` holds of the result and of the current ID after the program, if the current ID is `now`
before it. -/
def Tracks : Program S α → Option Text → (α → Option Text → Prop) → Prop
  | .done a, now, Q => Q a now
  | .ask r k, now, Q =>
    match r, k with
    | .call _, k => ∀ reply, (k reply).Tracks now Q
    | .log _, k => (k ()).Tracks now Q
    | .configureLog .., k => ∀ reply, (k reply).Tracks now Q
    | .pause _, k => (k ()).Tracks now Q
    | .currentId, k => (k now).Tracks now Q
    | .setId id, k => (k ()).Tracks id Q
    | .drawId, k => ∀ reply, (k reply).Tracks now Q

/-- The current ID is the same after the program as before it. -/
def KeepsId (p : Program S α) : Prop := ∀ now, p.Tracks now fun _ later => later = now

/-- No request of the program sets an ID. -/
abbrev SparesId : Program S α → Prop := Asks Request.SparesId Anything

theorem tracks_bind (p : Program S α) (f : α → Program S β) (now : Option Text)
    (Q : β → Option Text → Prop) :
    (p >>= f).Tracks now Q ↔ p.Tracks now fun a later => (f a).Tracks later Q := by
  induction p generalizing now with
  | done a => exact Iff.rfl
  | ask r k ih =>
    cases r with
    | call c => exact forall_congr' fun reply => ih reply now
    | log e => exact ih _ _
    | configureLog l f => exact forall_congr' fun reply => ih reply now
    | pause s => exact ih _ _
    | currentId => exact ih _ _
    | setId id => exact ih _ _
    | drawId => exact forall_congr' fun reply => ih reply now

theorem tracks_mono {p : Program S α} {now : Option Text} {Q Q' : α → Option Text → Prop}
    (hp : p.Tracks now Q) (hQ : ∀ a later, Q a later → Q' a later) : p.Tracks now Q' := by
  induction p generalizing now with
  | done a => exact hQ a now hp
  | ask r k ih =>
    cases r with
    | call c => exact fun reply => ih reply (hp reply)
    | log e => exact ih _ hp
    | configureLog l f => exact fun reply => ih reply (hp reply)
    | pause s => exact ih _ hp
    | currentId => exact ih _ hp
    | setId id => exact ih _ hp
    | drawId => exact fun reply => ih reply (hp reply)

theorem tracks_trivial (p : Program S α) (now : Option Text) : p.Tracks now fun _ _ => True := by
  induction p generalizing now with
  | done a => trivial
  | ask r k ih =>
    cases r with
    | call c => exact fun reply => ih reply _
    | log e => exact ih _ _
    | configureLog l f => exact fun reply => ih reply _
    | pause s => exact ih _ _
    | currentId => exact ih _ _
    | setId id => exact ih _ _
    | drawId => exact fun reply => ih reply _

/-- Serving calls by programs that keep the ID makes no difference to it. -/
theorem tracks_serve {g : (c : S.Call) → Program T (S.Answer c)} (hg : ∀ c, (g c).KeepsId)
    {p : Program S α} {now : Option Text} {Q : α → Option Text → Prop} (hp : p.Tracks now Q) :
    (p.serve g).Tracks now Q := by
  induction p generalizing now with
  | done a => exact hp
  | ask r k ih =>
    cases r with
    | call c =>
      refine (tracks_bind _ _ _ _).2 (tracks_mono (hg c now) ?_)
      rintro reply later rfl
      exact ih reply (hp reply)
    | log e => exact ih _ hp
    | configureLog l f => exact fun reply => ih reply (hp reply)
    | pause s => exact ih _ hp
    | currentId => exact ih _ hp
    | setId id => exact ih _ hp
    | drawId => exact fun reply => ih reply (hp reply)

theorem reconcileId_emit (s : Log.Session) (e : Log.Event) :
    (s.emit e).reconcileId = s.reconcileId := by
  unfold Log.Session.emit
  split
  · rfl
  · rfl

theorem reconcileId_configureLog (w : Surroundings) (levelName : Text) (f : Log.Format) :
    (w.configureLog levelName f).2.session.reconcileId = w.session.reconcileId := by
  unfold Surroundings.configureLog Log.Session.configure
  cases Level.ofName? levelName with
  | none => rfl
  | some level => rfl

/-- What is tracked along a program holds of every run. -/
theorem run_of_tracks (h : (c : S.Call) → σ → S.Answer c × σ) {p : Program S α} {w : Surroundings}
    {Q : α → Option Text → Prop} (hp : p.Tracks w.session.reconcileId Q) (s : σ) :
    Q (p.run h w s).1 (p.run h w s).2.1.session.reconcileId := by
  induction p generalizing w s with
  | done a => exact hp
  | ask r k ih =>
    cases r with
    | call c => exact ih _ (hp _) _
    | log e =>
      refine ih () (w := { w with session := w.session.emit e }) ?_ s
      rw [reconcileId_emit]
      exact hp
    | configureLog l f =>
      refine ih _ (w := (w.configureLog l f).2) ?_ s
      rw [reconcileId_configureLog]
      exact hp _
    | pause d => exact ih () (w := { w with pauses := w.pauses ++ [d] }) hp s
    | currentId => exact ih _ hp s
    | setId id => exact ih () (w := w.withId id) hp s
    | drawId => exact ih _ (w := { w with session := w.session.drawId.2 }) (hp _) s

/-- A program that keeps the ID leaves it as it was in every run. -/
theorem run_of_keepsId (h : (c : S.Call) → σ → S.Answer c × σ) {p : Program S α} (hp : p.KeepsId)
    (w : Surroundings) (s : σ) :
    (p.run h w s).2.1.session.reconcileId = w.session.reconcileId :=
  run_of_tracks h (hp _) s

section Rules

theorem keepsId_pure (a : α) : (pure a : Program S α).KeepsId := fun _ => rfl

theorem keepsId_call (c : S.Call) : (Program.call c : Program S (S.Answer c)).KeepsId :=
  fun _ _ => rfl

theorem keepsId_configureLog (levelName : Text) (f : Log.Format) :
    (Program.configureLog levelName f : Program S (Except Failure Unit)).KeepsId := fun _ _ => rfl

theorem keepsId_bind {p : Program S α} {f : α → Program S β} (hp : p.KeepsId)
    (hf : ∀ a, (f a).KeepsId) : (p >>= f).KeepsId := by
  intro now
  refine (tracks_bind _ _ _ _).2 (tracks_mono (hp now) ?_)
  rintro a later rfl
  exact hf a later

end Rules

/-- A program that spares the ID keeps it. -/
theorem SparesId.keepsId {p : Program S α} (hp : p.SparesId) : p.KeepsId := by
  intro now
  induction p with
  | done a => rfl
  | ask r k ih =>
    cases r with
    | call c => exact fun reply => ih reply (hp.2 reply)
    | log e => exact ih _ (hp.2 ())
    | configureLog l f => exact fun reply => ih reply (hp.2 reply)
    | pause s => exact ih _ (hp.2 ())
    | currentId => exact ih _ (hp.2 now)
    | setId id => exact hp.1.elim
    | drawId => exact fun reply => ih reply (hp.2 reply)

end Program

namespace Action

variable {S : Service} {α : Type}

/-- An action under an ID of its own keeps the current one, whatever it does. -/
theorem keepsId_underId (id : Option Text) (body : Action S α) : (underId id body).run.KeepsId := by
  have hrest : ∀ own : Text, (do
      let before ← Program.currentId
      Program.setId (some own)
      let outcome ← body.run
      Program.setId before
      return outcome : Program S (Except Raised α)).KeepsId := by
    intro own now
    change (body.run >>= fun outcome => do
      Program.setId now
      return outcome).Tracks (some own) _
    refine (Program.tracks_bind _ _ _ _).2 (Program.tracks_mono (Program.tracks_trivial _ _) ?_)
    exact fun _ _ _ => rfl
  cases id with
  | none => exact fun now own => hrest own now
  | some t =>
    cases t with
    | nil => exact fun now own => hrest own now
    | cons c t => exact hrest (c :: t)

end Action

theorem SecretStore.sparesId_reported (c : StoreCall) : (reported c).SparesId :=
  Program.asks_bind (Program.asks_request trivial) fun a _ =>
    Program.asks_bind (asks_report (fun _ => trivial) c a) fun _ _ => trivial

/-- A program over a store that keeps the ID leaves it as it was. -/
theorem SecretStore.reconcileId_run {α : Type} {p : Program Store α} (hp : p.KeepsId)
    (w : Surroundings) (m : SecretStore) :
    (SecretStore.run p w m).2.1.session.reconcileId = w.session.reconcileId := by
  have hserved : (p.serve reported).KeepsId := fun now =>
    Program.tracks_serve (fun c => (sparesId_reported c).keepsId) (hp now)
  exact Program.run_of_keepsId answer hserved w m

end CrossClusterKeys
