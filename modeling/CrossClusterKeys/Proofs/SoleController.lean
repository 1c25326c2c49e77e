import CrossClusterKeys.Proofs.OwnerReferences
import CrossClusterKeys.Proofs.Rounds
import CrossClusterKeys.Proofs.Tokens

/-!
# The owner as the only controller

A Secret that is created or merged ends with the adoption of its owner, which leaves no other
controller.  A Secret that is found as expected is not touched, so there it takes the others who
write to the store: none of them may ever store a second controller.

**Input.**  Any expected owners, and a store that others use as well.

**Invariant.**  Every stored Secret has at most one controller.  Accepted writes of the others keep
it, and a program that has not written yet has not changed anything.

**Results.**
* `exists_split_adopt`, `exists_split_of_mem`: a controller apart from all other references.
* `linked_run`: each call of a program finds what the others made of the store since the last one.
* `hasLoneControllers_of_linked`: the invariant at every call up to the first accepted write.
* `converge_leaves_sole_controller`: what holds of the Secret that a run results in.
-/

namespace CrossClusterKeys

open SecretStore (keyOf)

namespace OwnerReference

variable {refs : List OwnerReference} {r : OwnerReference}

/-- After an adoption, no other reference is to a controller or has the adopted UID. -/
theorem exists_split_adopt (r : OwnerReference) (refs : List OwnerReference) :
    ∃ before after, r.adopt refs = before ++ r :: after ∧
      ∀ s ∈ before ++ after, s.controller = false ∧ s.uid ≠ r.uid := by
  refine ⟨refs.filter fun s => s.uid ≠ r.uid && !s.controller, [], rfl, ?_⟩
  intro s hs
  rw [List.append_nil, List.mem_filter] at hs
  simpa [and_comm] using hs.2

/-- Where there is one controller at most, no reference besides it is to a controller. -/
theorem exists_split_of_mem (h : refs.countP OwnerReference.controller ≤ 1) (hmem : r ∈ refs)
    (hr : r.controller = true) :
    ∃ before after, refs = before ++ r :: after ∧
      ∀ s ∈ before ++ after, s.controller = false := by
  obtain ⟨before, after, rfl⟩ := List.append_of_mem hmem
  rw [List.countP_append, List.countP_cons_of_pos hr] at h
  have hnone : (before ++ after).countP OwnerReference.controller = 0 := by
    rw [List.countP_append]
    omega
  exact ⟨before, after, rfl, fun s hs => Bool.eq_false_iff.2 (List.countP_eq_zero.1 hnone s hs)⟩

end OwnerReference

/-- At most one owner of the Secret is its controller. -/
def Secret.HasLoneController (s : Secret) : Prop := s.owners.countP OwnerReference.controller ≤ 1

instance (s : Secret) : Decidable s.HasLoneController := inferInstanceAs (Decidable (_ ≤ _))

/-- Every stored Secret has at most one controller. -/
def SecretStore.HasLoneControllers (m : SecretStore) : Prop :=
  ∀ key s, m.secrets.get? key = some s → s.HasLoneController

section Others

theorem SecretStore.hasLoneControllers_empty (uids : Nat → Text) :
    (empty uids).HasLoneControllers := by
  intro key s hs
  cases hs

/-- A call keeps the invariant if what it stores, if anything, has at most one controller. -/
theorem Moment.hasLoneControllers_next {t : Moment} (h : t.store.HasLoneControllers)
    (hstored : ∀ s, t.stored? = some s → s.HasLoneController) : t.next.HasLoneControllers := by
  intro key s hs
  rcases t.effect with ⟨-, -, hsame⟩ | ⟨u, hu, hstores⟩ | ⟨gone, -, -, hsecrets, -⟩
  · exact h key s (hsame ▸ hs)
  · rw [hstores.secrets, Table.get?_insert] at hs
    split at hs
    · cases hs
      exact hstored _ hu
    · exact h key s hs
  · rw [hsecrets, Table.get?_erase] at hs
    split at hs
    · cases hs
    · exact h key s hs

theorem SecretStore.hasLoneControllers_after {m : SecretStore} (hm : m.HasLoneControllers)
    {calls : List StoreCall}
    (hcalls : ∀ t ∈ m.moments calls, ∀ s, t.stored? = some s → s.HasLoneController) :
    (m.after calls).HasLoneControllers := by
  induction calls generalizing m with
  | nil => exact hm
  | cons c calls ih =>
    have hstep : (answer c m).2.HasLoneControllers :=
      Moment.hasLoneControllers_next (t := ⟨c, m⟩) hm (hcalls _ List.mem_cons_self)
    exact ih hstep fun t ht => hcalls t (List.mem_cons_of_mem _ ht)

namespace SharedStore

/-- Each call finds what the others have made of the store since the call before it. -/
def Linked : SecretStore → List (List StoreCall) → List Moment → Prop
  | _, _, [] => True
  | m, others, t :: moments =>
    t.store = m.after (others.headD []) ∧ Linked t.next others.tail moments

/-- The calls of the others before each of the calls of a program that starts from `m`. -/
def foreign : SecretStore → List (List StoreCall) → List Moment → List Moment
  | m, calls :: others, t :: moments => m.moments calls ++ foreign t.next others moments
  | _, [], _ => []
  | _, _, [] => []

/-- The calls of every program are linked. -/
theorem linked_run {α : Type} (p : Program Store α) (w : Surroundings) (x : SharedStore) :
    ∃ moments, (run p w x).2.2.moments = x.moments ++ moments ∧
      Linked x.store x.others moments := by
  unfold run
  induction p.serve SecretStore.reported generalizing w x with
  | done a => exact ⟨[], (List.append_nil _).symm, trivial⟩
  | ask r k ih =>
    cases r with
    | call c =>
      obtain ⟨moments, hmoments, hlinked⟩ := ih (answer c x).1 w (answer c x).2
      refine ⟨⟨c, x.now⟩ :: moments, ?_, rfl, hlinked⟩
      exact hmoments.trans (List.append_assoc _ _ _)
    | log e => exact ih _ _ _
    | configureLog l f => exact ih _ _ _
    | pause s => exact ih _ _ _
    | currentId => exact ih _ _ _
    | setId id => exact ih _ _ _
    | drawId => exact ih _ _ _

/-- As long as the program has not written, every call of it finds the invariant. -/
theorem hasLoneControllers_of_linked {m : SecretStore} {others : List (List StoreCall)}
    {moments : List Moment} (hlinked : Linked m others moments) (hm : m.HasLoneControllers)
    (hforeign : ∀ t ∈ foreign m others moments, ∀ s, t.stored? = some s → s.HasLoneController)
    (hidle : ∀ t ∈ moments.dropLast, t.isApplied = false) :
    ∀ t ∈ moments, t.store.HasLoneControllers := by
  induction moments generalizing m others with
  | nil => exact fun t ht => nomatch ht
  | cons t moments ih =>
    obtain ⟨hstore, hrest⟩ := hlinked
    have ht : t.store.HasLoneControllers := by
      rw [hstore]
      cases others with
      | nil => exact hm
      | cons calls others =>
        exact SecretStore.hasLoneControllers_after hm fun e he =>
          hforeign e (List.mem_append_left _ he)
    have hlater : ∀ e ∈ foreign t.next others.tail moments, ∀ s, e.stored? = some s →
        s.HasLoneController := by
      cases others with
      | nil => cases moments <;> exact fun e he => nomatch he
      | cons calls others => exact fun e he => hforeign e (List.mem_append_right _ he)
    cases moments with
    | nil =>
      intro e he
      rw [List.mem_singleton.1 he]
      exact ht
    | cons t' moments =>
      have hsame : t.next = t.store :=
        Moment.next_of_not_isApplied (hidle t List.mem_cons_self)
      have hall := ih hrest (hsame ▸ ht) hlater fun e he => hidle e (List.mem_cons_of_mem _ he)
      intro e he
      rcases List.mem_cons.1 he with rfl | he
      · exact ht
      · exact hall e he

end SharedStore

end Others

namespace Convergence

variable {expected : Secret} {owner : OwnerReference} {others : List (List StoreCall)} {r : Round}
  {s : Secret}

/-- The owner stands apart from all other references after a write, and also without one if there
was one controller at most. -/
theorem Ends.exists_split (howner : owner.controller = true)
    (h : Ends (expected.desired (some owner)) others r (.ok s))
    (hread : r.read.store.HasLoneControllers) :
    ∃ before after, s.owners = before ++ owner :: after ∧
      (∀ ref ∈ before ++ after, ref.controller = false) ∧
      (r.write = none ∨ ∀ ref ∈ before ++ after, ref.uid ≠ owner.uid) := by
  have hadopted : ∀ refs, s.owners = owner.adopt refs →
      ∃ before after, s.owners = before ++ owner :: after ∧
        (∀ ref ∈ before ++ after, ref.controller = false) ∧
        (r.write = none ∨ ∀ ref ∈ before ++ after, ref.uid ≠ owner.uid) := by
    intro refs hrefs
    obtain ⟨before, after, hsplit, hothers⟩ := OwnerReference.exists_split_adopt owner refs
    exact ⟨before, after, hrefs.trans hsplit, fun ref href => (hothers ref href).1,
      Or.inr fun ref href => (hothers ref href).2⟩
  cases h with
  | current hs hcurrent =>
    have hmem : owner ∈ s.owners := (Secret.outdated_eq_false_iff.1 hcurrent).2 owner
      ((OwnerReference.mem_adopt_iff owner owner _).2 (Or.inl rfl))
    obtain ⟨before, after, hsplit, hothers⟩ :=
      OwnerReference.exists_split_of_mem (hread _ _ hs) hmem howner
    exact ⟨before, after, hsplit, hothers, Or.inl rfl⟩
  | created hbetween hs hs' => exact hadopted expected.owners rfl
  | @updated m m' stored hbetween hkey hs hold hs' =>
    -- The owner is the last of the references that are adopted.
    exact hadopted _ (OwnerReference.adoptAll_concat _ owner stored.owners)

end Convergence

/-- Whatever others do to the store before each call, as long as they store no Secret with two
controllers: a Secret that a controller was to own has it as an owner, exactly as given, and no
other controller.  If the Secret was written, no other owner has the UID of the controller. -/
theorem converge_leaves_sole_controller {owner : OwnerReference} (howner : owner.controller = true)
    (expected : Secret) (attempts : Int) (uids : Nat → Text) (calls : List StoreCall)
    (others : List (List StoreCall)) (w : Surroundings) :
    let start := (SecretStore.empty uids).after calls
    let out := SharedStore.run (converge expected (some owner) attempts).run w ⟨start, others, []⟩
    start.HasLoneControllers →
    (∀ t ∈ SharedStore.foreign start others out.2.2.moments, ∀ s, t.stored? = some s →
      s.HasLoneController) →
    ∀ s, out.1 = .ok s →
      ∃ before after, s.owners = before ++ owner :: after ∧
        (∀ r ∈ before ++ after, r.controller = false) ∧
        ((∃ t ∈ out.2.2.moments, t.isApplied = true) →
          ∀ r ∈ before ++ after, r.uid ≠ owner.uid) := by
  intro start out hstart hforeign s hs
  obtain ⟨rounds, hcycle, hmoments⟩ :=
    Convergence.run_converge_cycle expected (some owner) attempts uids calls others w
  obtain ⟨moments, hrun, hlinked⟩ :=
    SharedStore.linked_run (converge expected (some owner) attempts).run w ⟨start, others, []⟩
  obtain rfl : moments = out.2.2.moments := hrun.symm
  rw [hs] at hcycle
  have hidle : ∀ t ∈ out.2.2.moments.dropLast, t.isApplied = false := by
    rw [hmoments]
    exact hcycle.applied_last
  have hfound := SharedStore.hasLoneControllers_of_linked hlinked hstart hforeign hidle
  obtain ⟨earlier, last, hsplit, hearlier, hends⟩ := hcycle.exists_last
  have hlast : last.read ∈ out.2.2.moments := by
    rw [hmoments, hsplit]
    exact List.mem_append_right _ List.mem_cons_self
  obtain ⟨before, after, howners, hothers, hwrite⟩ :=
    hends.exists_split howner (hfound _ hlast)
  refine ⟨before, after, howners, hothers, ?_⟩
  rintro ⟨t, ht, happlied⟩
  rcases hwrite with hnone | huids
  · rw [hmoments, hsplit, List.mem_append, Convergence.Round.mem_moments, hnone] at ht
    rcases ht with ht | rfl | ht
    · rw [hearlier t ht] at happlied
      cases happlied
    · rw [hends.isApplied_read] at happlied
      cases happlied
    · cases ht
  · exact huids

/-- The Secret has another controller and an owner of the same UID.  The first attempt is disturbed
by an update and the second one by a new Secret; the third one writes. -/
theorem converge_leaves_sole_controller_disturbed :
    let owner : OwnerReference := ⟨"v1", "Elasticsearch", "es", "uid", true, true⟩
    let namesake : OwnerReference := ⟨"v1", "ConfigMap", "c", "uid", false, false⟩
    let foreign (name : Text) : Secret := ⟨"s", "ns", .empty, .empty, .empty,
      [⟨"v1", "Pod", name, "uid-2", true, false⟩, namesake], [], []⟩
    let expected : Secret := ⟨"s", "ns", .empty, .empty, Table.empty.insert "k" [1],
      [⟨"v1", "Pod", "q", "uid-3", true, false⟩, ⟨"v1", "ConfigMap", "d", "uid-4", false, false⟩],
      [], []⟩
    let others : List (List StoreCall) := [[], [.update (foreign "1")], [],
      [.delete "ns" "s" none, .create (foreign "2")], [], []]
    let start := (SecretStore.empty fun _ => "uid-1").after [.create (foreign "0")]
    let out := SharedStore.run (converge expected (some owner) 3).run .bare ⟨start, others, []⟩
    owner.controller = true ∧ start.HasLoneControllers ∧
      (∀ t ∈ SharedStore.foreign start others out.2.2.moments, ∀ s, t.stored? = some s →
        s.HasLoneController) ∧
      out.2.2.moments.map Moment.isApplied = [false, false, false, false, false, true] ∧
      ∃ s, out.1 = .ok s ∧
        ∃ before after, s.owners = before ++ owner :: after ∧
          (∀ r ∈ before ++ after, r.controller = false) ∧
          ((∃ t ∈ out.2.2.moments, t.isApplied = true) →
            ∀ r ∈ before ++ after, r.uid ≠ owner.uid) := by
  have hlone : ∀ history : List Moment,
      ((history.filterMap Moment.stored?).all fun s => decide s.HasLoneController) = true →
      ∀ t ∈ history, ∀ s, t.stored? = some s → s.HasLoneController := by
    intro history hall t ht s hs
    exact of_decide_eq_true (List.all_eq_true.1 hall s (List.mem_filterMap.2 ⟨t, ht, hs⟩))
  have hempty := SecretStore.hasLoneControllers_empty fun _ => "uid-1"
  -- Nothing is introduced, so that the run is the same term wherever it occurs.
  refine ⟨rfl, SecretStore.hasLoneControllers_after hempty (hlone _ (by decide)),
    hlone _ (by decide +kernel), by decide +kernel, ?_⟩
  refine (exists_ok_of_isOk (by decide +kernel)).imp fun s hs => ⟨hs, ?_⟩
  exact converge_leaves_sole_controller rfl _ 3 _ _ _ .bare
    (SecretStore.hasLoneControllers_after hempty (hlone _ (by decide)))
    (hlone _ (by decide +kernel)) s hs

end CrossClusterKeys
