import CrossClusterKeys.Proofs.Merging
import CrossClusterKeys.Proofs.Requests
import CrossClusterKeys.Proofs.SharedStore

/-!
# Bringing a Secret to an expected state while others write

An attempt reads the Secret and then writes it at most once.  Others may have done anything in
between, but a write is made under the condition of what was read.

**Cases.**  `Ends` lists how an attempt can end, with the store `m` at the read and `m'` at the
write.  A Secret that was found is `current` and left alone, or it is `updated`; a missing one is
`created`.  Or the write is refused: others have created a Secret in between (`forestalled`), put
another one in its place (`overtaken`) or deleted it (`vanished`).  `Cycle` puts attempts in
sequence: a conflict leads to the next one as long as attempts are left.

**Results.**
* `ensures_converge_cycle`: every run is a cycle of attempts.
* `converge_isRetryCycle`: what is known of such a run as a whole.
* `merges_of_isApplied_update`: an update that is accepted changes what it was meant to change in
  the Secret as it is at that moment, and nothing else.
-/

namespace CrossClusterKeys

open SecretStore (keyOf)
open SharedStore (Between)

namespace Convergence

/-- The calls of one attempt. -/
structure Round where
  read : Moment
  write : Option Moment

def Round.moments (r : Round) : List Moment := r.read :: r.write.toList

/-- Others have changed the Secret between the read and the write of the attempt. -/
def Round.IsDisturbed (desired : Secret) (others : List (List StoreCall)) (r : Round) : Prop :=
  ∃ t, r.write = some t ∧ ∃ calls ∈ others, t.store = r.read.store.after calls ∧
    t.store.secrets.get? (keyOf desired) ≠ r.read.store.secrets.get? (keyOf desired)

/-- The reading of the Secret at some moment. -/
def reading (desired : Secret) (m : SecretStore) : Moment :=
  ⟨.get desired.namespace desired.name, m⟩

/-- How an attempt can end, and with which result. -/
inductive Ends (desired : Secret) (others : List (List StoreCall)) :
    Round → Except Raised Secret → Prop
  | current {m s} (hs : m.secrets.get? (keyOf desired) = some s)
      (hcurrent : desired.outdated s = false) :
      Ends desired others ⟨reading desired m, none⟩ (.ok s)
  | created {m m'} (hbetween : Between others m m')
      (hs : m.secrets.get? (keyOf desired) = none)
      (hs' : m'.secrets.get? (keyOf desired) = none) :
      Ends desired others ⟨reading desired m, some ⟨.create desired, m'⟩⟩
        (.ok (m'.newborn desired))
  | forestalled {m m' t} (hbetween : Between others m m')
      (hs : m.secrets.get? (keyOf desired) = none)
      (hs' : m'.secrets.get? (keyOf desired) = some t) (reason : Text) :
      Ends desired others ⟨reading desired m, some ⟨.create desired, m'⟩⟩
        (.error (SecretStore.clash desired.namespacedName reason))
  | updated {m m' s} (hbetween : Between others m m') (hkey : keyOf s = keyOf desired)
      (hs : m.secrets.get? (keyOf desired) = some s) (hold : desired.outdated s = true)
      (hs' : m'.secrets.get? (keyOf desired) = some s) :
      Ends desired others ⟨reading desired m, some ⟨.update (desired.overlay s), m'⟩⟩
        (.ok (m'.successor s (desired.overlay s)))
  | overtaken {m m' s t} (hbetween : Between others m m') (hkey : keyOf s = keyOf desired)
      (hs : m.secrets.get? (keyOf desired) = some s) (hold : desired.outdated s = true)
      (hs' : m'.secrets.get? (keyOf desired) = some t)
      (hstale : SecretStore.isCurrent t (desired.overlay s) = false) (reason : Text) :
      Ends desired others ⟨reading desired m, some ⟨.update (desired.overlay s), m'⟩⟩
        (.error (SecretStore.clash desired.namespacedName reason))
  | vanished {m m' s} (hbetween : Between others m m') (hkey : keyOf s = keyOf desired)
      (hs : m.secrets.get? (keyOf desired) = some s) (hold : desired.outdated s = true)
      (hs' : m'.secrets.get? (keyOf desired) = none) :
      Ends desired others ⟨reading desired m, some ⟨.update (desired.overlay s), m'⟩⟩
        (.error (SecretStore.missing desired.namespacedName))

/-- Attempts in sequence, with `more` further ones allowed after the first. -/
inductive Cycle (desired : Secret) (others : List (List StoreCall)) :
    Nat → List Round → Except Raised Secret → Prop
  | stop {more r result} (h : Ends desired others r result)
      (hstop : ∀ e, result = .error e → e.isConflict = true → more = 0) :
      Cycle desired others more [r] result
  | again {more r e rounds result} (h : Ends desired others r (.error e))
      (hconflict : e.isConflict = true) (rest : Cycle desired others more rounds result) :
      Cycle desired others (more + 1) (r :: rounds) result

variable {desired : Secret} {others : List (List StoreCall)}

section Running

theorem keyOf_overlay (s : Secret) : keyOf (desired.overlay s) = keyOf s := rfl

theorem ends_update {m m' : SecretStore} (hm : m.IsReachable) (hbetween : Between others m m')
    {s : Secret} (hs : m.secrets.get? (keyOf desired) = some s) (hold : desired.outdated s = true) :
    Ends desired others ⟨reading desired m, some ⟨.update (desired.overlay s), m'⟩⟩
      (m'.update (desired.overlay s)).1 := by
  have hkey : keyOf s = keyOf desired := hm.isKept _ _ hs
  have hname : (desired.overlay s).namespacedName = desired.namespacedName := by
    change namespaced s.namespace s.name = namespaced desired.namespace desired.name
    rw [(Prod.mk.inj hkey).1, (Prod.mk.inj hkey).2]
  have hsame : m'.secrets.get? (keyOf (desired.overlay s)) = m'.secrets.get? (keyOf desired) := by
    rw [keyOf_overlay, hkey]
  cases hs' : m'.secrets.get? (keyOf desired) with
  | none =>
    rw [SecretStore.update_of_none (hsame.trans hs'), hname]
    exact .vanished hbetween hkey hs hold hs'
  | some t =>
    have hcurrent : SecretStore.isCurrent t (desired.overlay s) = true ↔ t = s := by
      obtain ⟨calls, -, rfl⟩ := hbetween
      exact SecretStore.isCurrent_iff hm hs hs' rfl
    cases hc : SecretStore.isCurrent t (desired.overlay s) with
    | true =>
      obtain rfl := hcurrent.1 hc
      obtain ⟨n, hupdate, -⟩ := SecretStore.update_eq (hsame.trans hs') rfl
      rw [hupdate]
      exact .updated hbetween hkey hs hold hs'
    | false =>
      obtain ⟨reason, hupdate⟩ := SecretStore.update_of_not_isCurrent (hsame.trans hs') hc
      rw [hupdate, hname]
      exact .overtaken hbetween hkey hs hold hs' hc reason

theorem ends_create {m m' : SecretStore} (hbetween : Between others m m')
    (hs : m.secrets.get? (keyOf desired) = none) :
    Ends desired others ⟨reading desired m, some ⟨.create desired, m'⟩⟩
      (m'.create desired).1 := by
  cases hs' : m'.secrets.get? (keyOf desired) with
  | none =>
    obtain ⟨n, hcreate, -⟩ := SecretStore.create_eq hs'
    rw [hcreate]
    exact .created hbetween hs hs'
  | some t =>
    rw [SecretStore.create_of_some hs']
    exact .forestalled hbetween hs hs' _

variable {x : SharedStore} (hx : x.Within others)

include hx

/-- An attempt ends in one of the ways that are listed, and nothing else has been called. -/
theorem ensures_attempt_ends :
    (attempt desired).run.Ensures SharedStore.answer x fun result x' =>
      ∃ r, Ends desired others r result ∧ x'.moments = x.moments ++ r.moments ∧
        x'.Within others := by
  have hread := SharedStore.within_answer hx (.get desired.namespace desired.name)
  have hreachable := SharedStore.isReachable_now hx
  have hbetween := SharedStore.between_now hread
  cases hs : x.now.secrets.get? (keyOf desired) with
  | none =>
    refine (ensures_attempt_missing (SecretStore.get_of_none hs) rfl).2 ?_
    refine ⟨_, ends_create hbetween hs, ?_, ?_⟩
    · exact List.append_assoc _ _ _
    · exact SharedStore.within_answer hread (.create desired)
  | some s =>
    have hget := SecretStore.get_of_some hs
    cases hold : desired.outdated s with
    | true =>
      refine (ensures_attempt_outdated hget hold).2 ?_
      refine ⟨_, ends_update hreachable hbetween hs hold, ?_, ?_⟩
      · exact List.append_assoc _ _ _
      · exact SharedStore.within_answer hread (.update (desired.overlay s))
    | false =>
      exact (ensures_attempt_current hget hold).2 ⟨_, .current hs hold, rfl, hread⟩

/-- Attempts that are made again after a conflict are a cycle. -/
theorem ensures_retrying_cycle (wait : Nat → Binary64) (more n : Nat) :
    (Action.retrying Raised.isConflict wait (attempt desired) more n).run.Ensures
      SharedStore.answer x fun result x' =>
        ∃ rounds, Cycle desired others more rounds result ∧
          x'.moments = x.moments ++ rounds.flatMap Round.moments := by
  induction more generalizing x n with
  | zero =>
    refine Program.ensures_mono (ensures_attempt_ends hx) ?_
    rintro result x' ⟨r, hends, hmoments, -⟩
    refine ⟨[r], .stop hends fun _ _ _ => rfl, ?_⟩
    rw [hmoments, List.flatMap_singleton]
  | succ more ih =>
    refine (Program.ensures_bind _ _ _ _).2 ?_
    refine Program.ensures_mono (ensures_attempt_ends hx) ?_
    rintro result x' ⟨r, hends, hmoments, hx'⟩
    cases result with
    | ok s =>
      refine ⟨[r], .stop hends (fun e he => nomatch he), ?_⟩
      rw [hmoments, List.flatMap_singleton]
    | error e =>
      by_cases hconflict : e.isConflict = true
      · simp only [hconflict, if_true]
        refine Program.ensures_mono (ih hx' (n + 1)) ?_
        rintro result x'' ⟨rounds, hcycle, hrest⟩
        refine ⟨r :: rounds, .again hends hconflict hcycle, ?_⟩
        rw [hrest, hmoments, List.flatMap_cons, List.append_assoc]
      · simp only [if_neg hconflict]
        refine ⟨[r], .stop hends ?_, ?_⟩
        · rintro e' he' hconflict'
          cases he'
          exact absurd hconflict' hconflict
        · rw [hmoments, List.flatMap_singleton]

end Running

section Attempts

variable {r : Round} {result : Except Raised Secret}

theorem Round.mem_moments {t : Moment} : t ∈ r.moments ↔ t = r.read ∨ r.write = some t := by
  rw [moments, List.mem_cons, Option.mem_toList]

theorem Ends.call_read (h : Ends desired others r result) :
    r.read.call = .get desired.namespace desired.name := by
  cases h <;> rfl

theorem Ends.isApplied_read (h : Ends desired others r result) : r.read.isApplied = false := by
  cases h <;> rfl

theorem Ends.isWrite_write (h : Ends desired others r result) {t : Moment}
    (ht : r.write = some t) : t.call.isWrite = true ∧ Between others r.read.store t.store := by
  cases h with
  | current hs hcurrent => cases ht
  | created hbetween | forestalled hbetween | updated hbetween | overtaken hbetween
  | vanished hbetween =>
    cases ht
    exact ⟨rfl, hbetween⟩

/-- The attempt succeeds if and only if its write does. -/
theorem Ends.isApplied_write (h : Ends desired others r result) {t : Moment}
    (ht : r.write = some t) : t.isApplied = result.isOk := by
  cases h with
  | current hs hcurrent => cases ht
  | created hbetween hs hs' =>
    cases ht
    obtain ⟨n, hcreate, -⟩ := SecretStore.create_eq hs'
    exact congrArg (fun a => a.1.isOk) hcreate
  | forestalled hbetween hs hs' reason =>
    cases ht
    exact congrArg (fun a => a.1.isOk) (SecretStore.create_of_some hs')
  | updated hbetween hkey hs hold hs' =>
    cases ht
    rw [← hkey, ← keyOf_overlay] at hs'
    obtain ⟨n, hupdate, -⟩ := SecretStore.update_eq hs' rfl
    exact congrArg (fun a => a.1.isOk) hupdate
  | overtaken hbetween hkey hs hold hs' hstale reason =>
    cases ht
    rw [← hkey, ← keyOf_overlay] at hs'
    obtain ⟨reason, hupdate⟩ := SecretStore.update_of_not_isCurrent hs' hstale
    exact congrArg (fun a => a.1.isOk) hupdate
  | vanished hbetween hkey hs hold hs' =>
    cases ht
    rw [← hkey, ← keyOf_overlay] at hs'
    exact congrArg (fun a => a.1.isOk) (SecretStore.update_of_none hs')

/-- A failed attempt has written nothing. -/
theorem Ends.not_isApplied {e : Raised} (h : Ends desired others r (.error e)) :
    ∀ t ∈ r.moments, t.isApplied = false := by
  intro t ht
  rcases Round.mem_moments.1 ht with rfl | hwrite
  · exact h.isApplied_read
  · exact h.isApplied_write hwrite

/-- What a successful attempt results in is stored right after its last call. -/
theorem Ends.stored {s : Secret} (h : Ends desired others r (.ok s)) :
    ∃ t, r.moments.getLast? = some t ∧ t.next.secrets.get? (keyOf desired) = some s := by
  cases h with
  | current hs hcurrent => exact ⟨_, rfl, hs⟩
  | @created m m' hbetween hs hs' =>
    obtain ⟨n, hcreate, hsecrets⟩ := SecretStore.create_eq hs'
    have hnext : Moment.next ⟨.create desired, m'⟩ = n := congrArg Prod.snd hcreate
    refine ⟨⟨.create desired, m'⟩, rfl, ?_⟩
    rw [hnext, hsecrets, Table.get?_insert]
    exact if_pos rfl
  | @updated m m' s hbetween hkey hs hold hs' =>
    have hat : m'.secrets.get? (keyOf (desired.overlay s)) = some s := by
      rw [keyOf_overlay, hkey]
      exact hs'
    obtain ⟨n, hupdate, hsecrets⟩ := SecretStore.update_eq hat rfl
    have hnext : Moment.next ⟨.update (desired.overlay s), m'⟩ = n := congrArg Prod.snd hupdate
    refine ⟨⟨.update (desired.overlay s), m'⟩, rfl, ?_⟩
    rw [hnext, hsecrets, Table.get?_insert]
    exact if_pos hkey

theorem Ends.isDisturbed {e : Raised} (h : Ends desired others r (.error e))
    (hconflict : e.isConflict = true) : r.IsDisturbed desired others := by
  cases h with
  | @forestalled m m' t hbetween hs hs' reason =>
    have hne : m'.secrets.get? (keyOf desired) ≠ m.secrets.get? (keyOf desired) := by
      rw [hs, hs']
      exact Option.some_ne_none t
    exact ⟨_, rfl, SharedStore.exists_mem_of_between hbetween hne⟩
  | @overtaken m m' s t hbetween hkey hs hold hs' hstale reason =>
    have hne : m'.secrets.get? (keyOf desired) ≠ m.secrets.get? (keyOf desired) := by
      rw [hs, hs']
      rintro heq
      cases heq
      simp [SecretStore.isCurrent, Secret.overlay_version] at hstale
    exact ⟨_, rfl, SharedStore.exists_mem_of_between hbetween hne⟩
  | vanished hbetween hkey hs hold hs' => cases hconflict

theorem Ends.not_outdated {expected : Secret} (howners : expected.owners = [])
    {owner : Option OwnerReference} {s : Secret}
    (h : Ends (expected.desired owner) others r (.ok s)) :
    (expected.desired owner).outdated s = false := by
  cases h with
  | current hs hcurrent => exact hcurrent
  | created hbetween hs hs' => exact Secret.not_outdated_self _ _ _
  | updated hbetween hkey hs hold hs' => exact Secret.not_outdated_overlay howners owner _ _ _

/-- An update that is accepted is a merge into the Secret as it is at that moment. -/
theorem Ends.merges {expected : Secret} (howners : expected.owners = [])
    {owner : Option OwnerReference} (h : Ends (expected.desired owner) others r result)
    {t : Moment} (ht : t ∈ r.moments) {u : Secret} (hcall : t.call = .update u)
    (happlied : t.isApplied = true) :
    ∃ s s', t.store.secrets.get? (keyOf expected) = some s ∧
      t.next.secrets.get? (keyOf expected) = some s' ∧ expected.Merges owner s s' := by
  cases result with
  | error e => exact absurd happlied (Bool.eq_false_iff.1 (h.not_isApplied t ht))
  | ok s' =>
    obtain ⟨t', hlast, hstored⟩ := h.stored
    cases h with
    | current hs hcurrent =>
      rcases Round.mem_moments.1 ht with rfl | hwrite
      · cases hcall
      · cases hwrite
    | created hbetween hs hs' =>
      rcases Round.mem_moments.1 ht with rfl | hwrite
      · cases hcall
      · cases hwrite
        cases hcall
    | updated hbetween hkey hs hold hs' =>
      rcases Round.mem_moments.1 ht with rfl | hwrite
      · cases hcall
      · cases hwrite
        cases hlast
        exact ⟨_, _, hs', hstored, Secret.merges_overlay howners owner _ _⟩

end Attempts

section Cycles

variable {more : Nat} {rounds : List Round} {result : Except Raised Secret}

theorem Cycle.length_pos (h : Cycle desired others more rounds result) : 1 ≤ rounds.length := by
  cases h with
  | stop => exact Nat.le_refl 1
  | again => exact Nat.succ_pos _

theorem Cycle.length_le (h : Cycle desired others more rounds result) :
    rounds.length ≤ more + 1 := by
  induction h with
  | stop => exact Nat.succ_le_succ (Nat.zero_le _)
  | again _ _ _ ih => exact Nat.succ_le_succ ih

theorem Cycle.exists_ends (h : Cycle desired others more rounds result) :
    ∀ r ∈ rounds, ∃ ending, Ends desired others r ending := by
  induction h with
  | stop hends =>
    intro r hr
    rw [List.mem_singleton.1 hr]
    exact ⟨_, hends⟩
  | again hends _ _ ih =>
    intro r hr
    rcases List.mem_cons.1 hr with rfl | hr
    · exact ⟨_, hends⟩
    · exact ih r hr

theorem Round.eq_read_of_mem_dropLast {r : Round} {t : Moment} (h : t ∈ r.moments.dropLast) :
    t = r.read := by
  obtain ⟨read, _ | write⟩ := r
  · cases h
  · exact List.mem_singleton.1 h

/-- The last attempt has the result of the cycle, and before it nothing has been written. -/
theorem Cycle.exists_last (h : Cycle desired others more rounds result) :
    ∃ before last, rounds.flatMap Round.moments = before ++ last.moments ∧
      (∀ t ∈ before, t.isApplied = false) ∧ Ends desired others last result := by
  induction h with
  | @stop _ r _ hends =>
    exact ⟨[], r, List.flatMap_singleton _ _, (fun t ht => nomatch ht), hends⟩
  | @again _ r _ _ _ hends _ _ ih =>
    obtain ⟨before, last, hmoments, hbefore, hlast⟩ := ih
    refine ⟨r.moments ++ before, last, ?_, fun t ht => ?_, hlast⟩
    · rw [List.flatMap_cons, hmoments, List.append_assoc]
    · rcases List.mem_append.1 ht with ht | ht
      · exact hends.not_isApplied t ht
      · exact hbefore t ht

theorem Cycle.applied_last (h : Cycle desired others more rounds result) :
    ∀ t ∈ (rounds.flatMap Round.moments).dropLast, t.isApplied = false := by
  obtain ⟨before, last, hmoments, hbefore, hlast⟩ := h.exists_last
  have hne : last.moments ≠ [] := List.cons_ne_nil _ _
  intro t ht
  rw [hmoments, List.dropLast_append_of_ne_nil hne] at ht
  rcases List.mem_append.1 ht with ht | ht
  · exact hbefore t ht
  · rw [Round.eq_read_of_mem_dropLast ht]
    exact hlast.isApplied_read

theorem Cycle.not_isApplied {e : Raised} (h : Cycle desired others more rounds (.error e)) :
    ∀ t ∈ rounds.flatMap Round.moments, t.isApplied = false := by
  obtain ⟨before, last, hmoments, hbefore, hlast⟩ := h.exists_last
  intro t ht
  rw [hmoments] at ht
  rcases List.mem_append.1 ht with ht | ht
  · exact hbefore t ht
  · exact hlast.not_isApplied t ht

theorem Cycle.stored {s : Secret} (h : Cycle desired others more rounds (.ok s)) :
    ∃ t, (rounds.flatMap Round.moments).getLast? = some t ∧
      t.next.secrets.get? (keyOf desired) = some s := by
  obtain ⟨before, last, hmoments, -, hlast⟩ := h.exists_last
  obtain ⟨t, ht, hstored⟩ := hlast.stored
  refine ⟨t, ?_, hstored⟩
  rw [hmoments, List.getLast?_append, ht]
  rfl

/-- A cycle that ends in a conflict has used up all attempts, and others have disturbed each. -/
theorem Cycle.disturbed {e : Raised} (h : Cycle desired others more rounds (.error e))
    (hconflict : e.isConflict = true) :
    rounds.length = more + 1 ∧ ∀ r ∈ rounds, r.IsDisturbed desired others := by
  generalize hresult : Except.error e = result at h
  induction h with
  | stop hends hstop =>
    subst hresult
    refine ⟨by rw [hstop e rfl hconflict, List.length_singleton], fun r hr => ?_⟩
    rw [List.mem_singleton.1 hr]
    exact hends.isDisturbed hconflict
  | again hends hconflict' _ ih =>
    obtain ⟨hlength, hrest⟩ := ih hresult
    refine ⟨congrArg Nat.succ hlength, fun r hr => ?_⟩
    rcases List.mem_cons.1 hr with rfl | hr
    · exact hends.isDisturbed hconflict'
    · exact hrest r hr

end Cycles

/-- What is known of the attempts of a whole run. -/
structure IsRetryCycle (desired : Secret) (attempts : Int) (others : List (List StoreCall))
    (rounds : List Round) (result : Except Raised Secret) : Prop where
  length_pos : 1 ≤ rounds.length
  length_le : (rounds.length : Int) ≤ max 1 attempts
  /-- Every attempt begins with a read of its own. -/
  reads : ∀ r ∈ rounds, r.read.call = .get desired.namespace desired.name
  /-- All that can follow the read in an attempt is one write, on what others have made of the
  store since. -/
  writes : ∀ r ∈ rounds, ∀ t, r.write = some t →
    t.call.isWrite = true ∧ Between others r.read.store t.store
  /-- No call but the last one is a write that was accepted. -/
  applied_last : ∀ t ∈ (rounds.flatMap Round.moments).dropLast, t.isApplied = false
  /-- A run that fails has written nothing. -/
  failed : ∀ e, result = .error e → ∀ t ∈ rounds.flatMap Round.moments, t.isApplied = false
  /-- A run results in what is stored right after its last call, and that needs no write. -/
  returned : ∀ s, result = .ok s →
    ∃ t, (rounds.flatMap Round.moments).getLast? = some t ∧
      t.next.secrets.get? (keyOf desired) = some s ∧ desired.outdated s = false
  /-- A run that ends in a conflict has used up all attempts, and in every one of them others have
  changed that very Secret between the read and the write. -/
  conflicted : ∀ e, result = .error e → e.isConflict = true →
    (rounds.length : Int) = max 1 attempts ∧ ∀ r ∈ rounds, r.IsDisturbed desired others

theorem furtherAttempts_succ (attempts : Int) :
    ((Action.furtherAttempts attempts + 1 : Nat) : Int) = max 1 attempts := by
  unfold Action.furtherAttempts
  omega

theorem Cycle.isRetryCycle {expected : Secret} (howners : expected.owners = [])
    {owner : Option OwnerReference} {attempts : Int} {rounds : List Round}
    {result : Except Raised Secret}
    (h : Cycle (expected.desired owner) others (Action.furtherAttempts attempts) rounds result) :
    IsRetryCycle (expected.desired owner) attempts others rounds result where
  length_pos := h.length_pos
  length_le := by
    have hle := h.length_le
    have hmore := furtherAttempts_succ attempts
    omega
  reads r hr := by
    obtain ⟨ending, hends⟩ := h.exists_ends r hr
    exact hends.call_read
  writes r hr t ht := by
    obtain ⟨ending, hends⟩ := h.exists_ends r hr
    exact hends.isWrite_write ht
  applied_last := h.applied_last
  failed e he := by
    subst he
    exact h.not_isApplied
  returned s hs := by
    subst hs
    obtain ⟨t, ht, hstored⟩ := h.stored
    obtain ⟨-, last, -, -, hlast⟩ := h.exists_last
    exact ⟨t, ht, hstored, hlast.not_outdated howners⟩
  conflicted e he hconflict := by
    subst he
    obtain ⟨hlength, hdisturbed⟩ := h.disturbed hconflict
    rw [hlength, furtherAttempts_succ]
    exact ⟨rfl, hdisturbed⟩

theorem ensures_converge_cycle (expected : Secret) (owner : Option OwnerReference) (attempts : Int)
    {x : SharedStore} (hx : x.Within others) :
    (converge expected owner attempts).run.Ensures SharedStore.answer x fun result x' =>
      ∃ rounds, Cycle (expected.desired owner) others (Action.furtherAttempts attempts) rounds
          result ∧
        x'.moments = x.moments ++ rounds.flatMap Round.moments :=
  ensures_retrying_cycle hx _ _ _

theorem run_converge_cycle (expected : Secret) (owner : Option OwnerReference) (attempts : Int)
    (uids : Nat → Text) (calls : List StoreCall) (others : List (List StoreCall))
    (w : Surroundings) :
    let out := SharedStore.run (converge expected owner attempts).run w
      ⟨(SecretStore.empty uids).after calls, others, []⟩
    ∃ rounds, Cycle (expected.desired owner) others (Action.furtherAttempts attempts) rounds out.1 ∧
      out.2.2.moments = rounds.flatMap Round.moments := by
  intro out
  have hstart : SharedStore.Within others ⟨(SecretStore.empty uids).after calls, others, []⟩ :=
    ⟨⟨uids, calls, rfl⟩, fun _ h => h⟩
  exact SharedStore.run_of_ensures (ensures_converge_cycle expected owner attempts hstart) w

end Convergence

/-- Whatever others do to the store before each call, a Secret is brought to its expected state by
one accepted write, or by none if it fails, and a conflict is reported only if every attempt that
was allowed has been disturbed. -/
theorem converge_isRetryCycle {expected : Secret} (howners : expected.owners = [])
    (owner : Option OwnerReference) (attempts : Int) (uids : Nat → Text) (calls : List StoreCall)
    (others : List (List StoreCall)) (w : Surroundings) :
    let out := SharedStore.run (converge expected owner attempts).run w
      ⟨(SecretStore.empty uids).after calls, others, []⟩
    ∃ rounds, out.2.2.moments = rounds.flatMap Convergence.Round.moments ∧
      Convergence.IsRetryCycle (expected.desired owner) attempts others rounds out.1 := by
  intro out
  obtain ⟨rounds, hcycle, hmoments⟩ :=
    Convergence.run_converge_cycle expected owner attempts uids calls others w
  exact ⟨rounds, hmoments, hcycle.isRetryCycle howners⟩

/-- The first two attempts are disturbed by a creation and by an update; what the third one reads
was created anew, and nobody writes to it before the update. -/
theorem converge_isRetryCycle_disturbed :
    let expected : Secret :=
      ⟨"s", "ns", Table.empty.insert "a" "1", .empty, Table.empty.insert "k" [1], [], [], []⟩
    let foreign (label : Text) : Secret :=
      ⟨"s", "ns", Table.empty.insert "b" label, .empty, .empty, [], [], []⟩
    let others : List (List StoreCall) := [[], [.create (foreign "1")], [],
      [.update (foreign "2")], [.delete "ns" "s" none, .create (foreign "3")], []]
    let owner : OwnerReference := ⟨"v1", "Elasticsearch", "es", "uid", true, true⟩
    let out := SharedStore.run (converge expected (some owner) 3).run .bare
      ⟨(SecretStore.empty fun _ => "uid-1").after [], others, []⟩
    expected.owners = [] ∧
      out.2.2.moments.map Moment.isApplied = [false, false, false, false, false, true] ∧
      ∃ rounds, out.2.2.moments = rounds.flatMap Convergence.Round.moments ∧
        Convergence.IsRetryCycle (expected.desired owner) 3 others rounds out.1 :=
  ⟨rfl, rfl, converge_isRetryCycle rfl _ 3 _ [] _ .bare⟩

/-- Whatever others do to the store before each call, an update that is accepted merges the
expected state into the Secret as it is at that very moment. -/
theorem merges_of_isApplied_update {expected : Secret} (howners : expected.owners = [])
    (owner : Option OwnerReference) (attempts : Int) (uids : Nat → Text) (calls : List StoreCall)
    (others : List (List StoreCall)) (w : Surroundings) {t : Moment}
    (ht : t ∈ (SharedStore.run (converge expected owner attempts).run w
      ⟨(SecretStore.empty uids).after calls, others, []⟩).2.2.moments)
    {u : Secret} (hcall : t.call = .update u) (happlied : t.isApplied = true) :
    ∃ s s', t.store.secrets.get? (keyOf expected) = some s ∧
      t.next.secrets.get? (keyOf expected) = some s' ∧ expected.Merges owner s s' := by
  obtain ⟨rounds, hcycle, hmoments⟩ :=
    Convergence.run_converge_cycle expected owner attempts uids calls others w
  rw [hmoments] at ht
  obtain ⟨r, hr, ht⟩ := List.mem_flatMap.1 ht
  obtain ⟨ending, hends⟩ := hcycle.exists_ends r hr
  exact hends.merges howners ht hcall happlied

/-- Between read and write of the second attempt the Secret is deleted and created anew, under
another controller; the update of the third attempt is a merge into the new one. -/
theorem merges_of_isApplied_update_anew :
    let expected : Secret :=
      ⟨"s", "ns", Table.empty.insert "a" "1", .empty, Table.empty.insert "k" [1], [], [], []⟩
    let foreign (label : Text) : Secret :=
      ⟨"s", "ns", Table.empty.insert "b" label, .empty, .empty,
        [⟨"v1", "Pod", "p", "uid-2", true, false⟩], [], []⟩
    let others : List (List StoreCall) := [[], [.create (foreign "1")], [],
      [.delete "ns" "s" none, .create (foreign "2")], [], []]
    let owner : OwnerReference := ⟨"v1", "Elasticsearch", "es", "uid", true, true⟩
    let out := SharedStore.run (converge expected (some owner) 3).run .bare
      ⟨(SecretStore.empty fun _ => "uid-1").after [], others, []⟩
    expected.owners = [] ∧
      ∃ t ∈ out.2.2.moments, ∃ u, t.call = .update u ∧ t.isApplied = true ∧
        ∃ s s', t.store.secrets.get? (keyOf expected) = some s ∧
          t.next.secrets.get? (keyOf expected) = some s' ∧ expected.Merges owner s s' := by
  have hmem {l : List Moment} (h : 5 < l.length) : l[5] ∈ l := List.getElem_mem h
  refine ⟨rfl, _, hmem (by decide), _, rfl, rfl, ?_⟩
  exact merges_of_isApplied_update rfl _ 3 _ [] _ .bare (hmem (by decide)) rfl rfl

end CrossClusterKeys
