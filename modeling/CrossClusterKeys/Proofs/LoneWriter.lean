import CrossClusterKeys.Interference
import CrossClusterKeys.Proofs.Persistence
import CrossClusterKeys.Proofs.SharedStore

/-!
# Saving when nobody else writes

Without other writers every write is accepted.  Its answer may get lost nevertheless, and what the
caller sees then is the refusal of the same write sent again.  An attempt that is made after that
finds the Secret as it wanted it.

**Input.**  Whatever passes the calls on to a store that nobody else uses, and an index.

**Invariant.**  The store is as the index wants it from the first write on, so there is no second
one.

**Results.**
* `get?_settle`: what is stored after a Secret was brought to its expected state.
* `isSettled_settle`, `settle_of_isSettled`: the store after saving needs no further write.
* `ensures_save_settle`: saving brings about that store with at most one write, or with none if the
  store is as wanted already; lost answers make no difference if there is a second attempt.
-/

namespace CrossClusterKeys

open SecretStore (keyOf)

/-- The failures that stand for the lost answer to a call: a write is sent again and refused,
because it has been made already; a read is just made again. -/
def CallKind.IsLoss : CallKind → Raised → Prop
  | .create, e => e.isConflict = true
  | .update, e => e.isConflict = true
  | .delete, e => e.isNotFound = true
  | .get, _ => False
  | .close, _ => False

namespace SharedStore

/-- The number of writes among the calls. -/
def writes (x : SharedStore) : Nat := (x.moments.filter fun t => t.call.isWrite).length

theorem writes_eq_zero_iff {x : SharedStore} :
    x.writes = 0 ↔ ∀ t ∈ x.moments, t.call.isWrite = false := by
  simp only [writes, List.length_eq_zero_iff, List.filter_eq_nil_iff, Bool.not_eq_true]

theorem length_applied_le (x : SharedStore) :
    (x.moments.filter Moment.isApplied).length ≤ x.writes := by
  refine (List.monotone_filter_right x.moments fun t ht => ?_).length_le
  exact (Bool.and_eq_true_iff.1 ht).1

/-- What happens between `x` and `x'` leaves the store as `target`, with at most one write, and with
none if the store was settled. -/
structure Reaches (target : SecretStore) (settled : Prop) (x x' : SharedStore) : Prop where
  alone : x'.others = []
  store : x'.store = target
  writes_le : x'.writes ≤ x.writes + 1
  writes_eq : settled → x'.writes = x.writes

section Sequence

variable {start target : SecretStore} {settled settled' : Prop} {x x' x'' : SharedStore}

/-- The store stays as it was reached while nothing is written. -/
theorem Reaches.before_idle (h : Reaches target settled x x') (hsettled' : settled')
    (h' : Reaches target settled' x' x'') : Reaches target settled x x'' where
  alone := h'.alone
  store := h'.store
  writes_le := h'.writes_eq hsettled' ▸ h.writes_le
  writes_eq hsettled := (h'.writes_eq hsettled').trans (h.writes_eq hsettled)

/-- The store is reached just the same if nothing was written before. -/
theorem Reaches.after_idle (h' : Reaches target settled' x' x'') (hsettled : settled)
    (h : Reaches start settled x x') : Reaches target settled' x x'' where
  alone := h'.alone
  store := h'.store
  writes_le := h.writes_eq hsettled ▸ h'.writes_le
  writes_eq hsettled' := (h'.writes_eq hsettled').trans (h.writes_eq hsettled)

end Sequence

variable {σ : Type} {h : (c : StoreCall) → σ → c.Answer × σ} {π : σ → SharedStore}
  {lossy : Prop}

/-- Every call is passed on to a shared store; if it is lossy, the answer to a write may be lost. -/
structure Relays (lossy : Prop) (h : (c : StoreCall) → σ → c.Answer × σ)
    (π : σ → SharedStore) : Prop where
  shared : ∀ c y, π (h c y).2 = (answer c (π y)).2
  reply : ∀ c y, (h c y).1 = (answer c (π y)).1 ∨
    lossy ∧ ∃ e, c.kind.IsLoss e ∧ (h c y).1 = c.refusal e

theorem relays_answer : Relays False answer id := ⟨fun _ _ => rfl, fun _ _ => Or.inl rfl⟩

theorem Relays.writes (hh : Relays lossy h π) (c : StoreCall) (y : σ) :
    (π (h c y).2).writes = (π y).writes + if c.isWrite then 1 else 0 := by
  rw [hh.shared]
  simp only [SharedStore.writes, answer, List.filter_append, List.length_append]
  cases hc : c.isWrite <;> simp [hc]

/-- A read and a write are one write. -/
theorem Relays.writes_after_read (hh : Relays lossy h π) (y : σ) (n name : Text) {c : StoreCall}
    (hc : c.isWrite = true) : (π (h c (h (.get n name) y).2).2).writes = (π y).writes + 1 := by
  rw [hh.writes, hh.writes, if_pos hc]
  rfl

section Alone

variable (hh : Relays lossy h π) {y : σ} (hy : (π y).others = [])

include hh hy

theorem Relays.others (c : StoreCall) : (π (h c y).2).others = [] := by
  rw [hh.shared]
  change (π y).others.tail = []
  rw [hy]
  rfl

theorem Relays.store (c : StoreCall) :
    (π (h c y).2).store = (SecretStore.answer c (π y).store).2 := by
  rw [hh.shared, answer, now, hy]
  rfl

theorem Relays.reply_alone (c : StoreCall) :
    (h c y).1 = (SecretStore.answer c (π y).store).1 ∨
      lossy ∧ ∃ e, c.kind.IsLoss e ∧ (h c y).1 = c.refusal e := by
  have hreply := hh.reply c y
  rw [answer, now, hy] at hreply
  exact hreply

/-- The answer to a read does not get lost. -/
theorem Relays.get (n name : Text) : (h (.get n name) y).1 = (π y).store.get n name := by
  rcases hh.reply_alone hy (.get n name) with hreply | ⟨-, e, he, -⟩
  · exact hreply
  · exact he.elim

/-- After a read alone the store is as it was. -/
theorem Relays.reaches_read (settled : Prop) (n name : Text) :
    Reaches (π y).store settled (π y) (π (h (.get n name) y).2) where
  alone := hh.others hy _
  store := hh.store hy _
  writes_le := Nat.le_succ_of_le (Nat.le_of_eq (hh.writes _ y))
  writes_eq _ := hh.writes _ y

/-- After a read and a write the store is as the write leaves it. -/
theorem Relays.reaches_write {settled : Prop} (hnot : ¬ settled) (n name : Text) (c : StoreCall) :
    Reaches (SecretStore.answer c (π y).store).2 settled (π y)
      (π (h c (h (.get n name) y).2).2) where
  alone := hh.others (hh.others hy _) _
  store := by
    rw [hh.store (hh.others hy _), hh.store hy]
    rfl
  writes_le := by
    rw [hh.writes, hh.writes]
    cases c.isWrite <;> simp [StoreCall.isWrite]
  writes_eq hsettled := absurd hsettled hnot

end Alone

end SharedStore

open SharedStore (Reaches Relays)

namespace Convergence

/-- The store after a Secret was brought to its expected state. -/
def settle (desired : Secret) (m : SecretStore) : SecretStore :=
  match m.secrets.get? (keyOf desired) with
  | none => (m.create desired).2
  | some s => if desired.outdated s then (m.update (desired.overlay s)).2 else m

/-- The Secret is in its expected state. -/
def IsSettled (desired : Secret) (m : SecretStore) : Prop :=
  ∃ s, m.secrets.get? (keyOf desired) = some s ∧ desired.outdated s = false

variable {desired : Secret} {m : SecretStore}

theorem settle_of_isSettled (h : IsSettled desired m) : settle desired m = m := by
  obtain ⟨s, hs, hcurrent⟩ := h
  rw [settle, hs]
  simp only [hcurrent, Bool.false_eq_true, if_false]

theorem isKept_settle (hm : m.IsKept) (desired : Secret) : (settle desired m).IsKept := by
  rw [settle]
  split
  · exact SecretStore.isKept_answer hm (.create desired)
  · split
    · exact SecretStore.isKept_answer hm (.update _)
    · exact hm

/-- The Secret as it is stored after it was brought to its expected state. -/
def outcome (desired : Secret) (m : SecretStore) : Secret :=
  match m.secrets.get? (keyOf desired) with
  | none => m.newborn desired
  | some s => if desired.outdated s then m.successor s (desired.overlay s) else s

theorem get?_settle (hm : m.IsKept) (desired : Secret) :
    (settle desired m).secrets.get? (keyOf desired) = some (outcome desired m) := by
  rw [settle, outcome]
  cases hs : m.secrets.get? (keyOf desired) with
  | none =>
    obtain ⟨m', hcreate, hsecrets⟩ := SecretStore.create_eq hs
    simp only [hcreate, hsecrets]
    exact (Table.get?_insert _ _ _ _).trans (if_pos rfl)
  | some s =>
    cases hold : desired.outdated s with
    | true =>
      obtain ⟨m', hupdate, hsecrets⟩ := Secret.update_overlay_eq hm hs
      simp only [hold, if_true, hupdate, hsecrets]
      exact (Table.get?_insert _ _ _ _).trans (if_pos (Secret.keyOf_overlay hm hs))
    | false =>
      simp only [hold, Bool.false_eq_true, if_false]
      exact hs

theorem isSettled_settle_iff (hm : m.IsKept) (desired : Secret) :
    IsSettled desired (settle desired m) ↔ desired.outdated (outcome desired m) = false := by
  rw [IsSettled, get?_settle hm]
  simp only [Option.some.injEq, exists_eq_left']

theorem isSettled_settle (hm : m.IsKept) {expected : Secret} (howners : expected.owners = [])
    (owner : Option OwnerReference) :
    IsSettled (expected.desired owner) (settle (expected.desired owner) m) := by
  rw [isSettled_settle_iff hm, outcome]
  split
  · exact Secret.not_outdated_self _ _ _
  · next s hs =>
    split
    · exact Secret.not_outdated_overlay howners owner _ _ _
    · next hcurrent => exact Bool.eq_false_iff.2 hcurrent

section Attempts

variable {σ : Type} {h : (c : StoreCall) → σ → c.Answer × σ} {π : σ → SharedStore} {lossy : Prop}
  (hh : Relays lossy h π) {y : σ} (hy : (π y).others = [])

include hh hy

/-- An attempt settles the Secret, with a write unless it is settled already.  It fails only if it
has written and the answer was lost. -/
theorem ensures_attempt_settle (desired : Secret) (hm : (π y).store.IsKept) :
    (attempt desired).run.Ensures h y fun r y' =>
      Reaches (settle desired (π y).store) (IsSettled desired (π y).store) (π y) (π y') ∧
        (¬ IsSettled desired (π y).store → (π y').writes = (π y).writes + 1) ∧
        (r = .ok (outcome desired (π y).store) ∨ lossy ∧ ¬ IsSettled desired (π y).store ∧
          ∃ e, r = .error e ∧ e.isConflict = true) := by
  have hget := hh.get hy desired.namespace desired.name
  have hy' := hh.others hy (.get desired.namespace desired.name)
  have hstore' : (π (h (.get desired.namespace desired.name) y).2).store = (π y).store :=
    hh.store hy _
  cases hs : (π y).store.secrets.get? (keyOf desired) with
  | none =>
    have hnot : ¬ IsSettled desired (π y).store := by
      rintro ⟨s, hs', -⟩
      cases hs.symm.trans hs'
    have htarget : settle desired (π y).store = ((π y).store.create desired).2 := by
      rw [settle, hs]
    have houtcome : outcome desired (π y).store = (π y).store.newborn desired := by
      rw [outcome, hs]
    refine (ensures_attempt_missing (hget.trans (SecretStore.get_of_none hs)) rfl).2 ⟨?_, ?_, ?_⟩
    · rw [htarget]
      exact hh.reaches_write hy hnot _ _ (.create desired)
    · exact fun _ => hh.writes_after_read _ _ _ rfl
    · obtain ⟨m', hcreate, -⟩ := SecretStore.create_eq hs
      rcases hh.reply_alone hy' (.create desired) with hreply | ⟨hlossy, e, he, hreply⟩
      · rw [hstore'] at hreply
        rw [houtcome]
        exact Or.inl (hreply.trans (congrArg Prod.fst hcreate))
      · exact Or.inr ⟨hlossy, hnot, e, hreply, he⟩
  | some s =>
    have hfound := hget.trans (SecretStore.get_of_some hs)
    cases hold : desired.outdated s with
    | true =>
      have hnot : ¬ IsSettled desired (π y).store := by
        rintro ⟨s', hs', hcurrent⟩
        cases hs.symm.trans hs'
        rw [hold] at hcurrent
        cases hcurrent
      have htarget : settle desired (π y).store = ((π y).store.update (desired.overlay s)).2 := by
        simp only [settle, hs, hold, if_true]
      have houtcome : outcome desired (π y).store =
          (π y).store.successor s (desired.overlay s) := by
        simp only [outcome, hs, hold, if_true]
      refine (ensures_attempt_outdated hfound hold).2 ⟨?_, ?_, ?_⟩
      · rw [htarget]
        exact hh.reaches_write hy hnot _ _ (.update (desired.overlay s))
      · exact fun _ => hh.writes_after_read _ _ _ rfl
      · obtain ⟨m', hupdate, -⟩ := Secret.update_overlay_eq hm hs
        rcases hh.reply_alone hy' (.update (desired.overlay s)) with
          hreply | ⟨hlossy, e, he, hreply⟩
        · rw [hstore'] at hreply
          rw [houtcome]
          exact Or.inl (hreply.trans (congrArg Prod.fst hupdate))
        · exact Or.inr ⟨hlossy, hnot, e, hreply, he⟩
    | false =>
      have hsettled : IsSettled desired (π y).store := ⟨s, hs, hold⟩
      have houtcome : outcome desired (π y).store = s := by
        simp only [outcome, hs, hold, Bool.false_eq_true, if_false]
      refine (ensures_attempt_current hfound hold).2 ⟨?_, fun hnot => absurd hsettled hnot, ?_⟩
      · rw [settle_of_isSettled hsettled]
        exact hh.reaches_read hy _ _ _
      · rw [houtcome]
        exact Or.inl rfl

/-- An attempt at a settled Secret succeeds. -/
theorem ensures_attempt_settled (hm : (π y).store.IsKept)
    (hsettled : IsSettled desired (π y).store) :
    (attempt desired).run.Ensures h y fun r y' =>
      ∃ s, r = .ok s ∧
        Reaches (π y).store (IsSettled desired (π y).store) (π y) (π y') := by
  refine Program.ensures_mono (ensures_attempt_settle hh hy desired hm) ?_
  rintro r y' ⟨hreaches, -, rfl | ⟨-, hnot, -⟩⟩
  · rw [settle_of_isSettled hsettled] at hreaches
    exact ⟨_, rfl, hreaches⟩
  · exact absurd hsettled hnot

/-- The Secret is settled, also if answers can be lost, provided that there is a second attempt
then. -/
theorem ensures_converge_settle {expected : Secret} (howners : expected.owners = [])
    (owner : Option OwnerReference) {attempts : Int} (hattempts : lossy → 2 ≤ attempts)
    (hm : (π y).store.IsKept) :
    (converge expected owner attempts).run.Ensures h y fun r y' =>
      ∃ s, r = .ok s ∧
        Reaches (settle (expected.desired owner) (π y).store)
          (IsSettled (expected.desired owner) (π y).store) (π y) (π y') := by
  have hfirst := ensures_attempt_settle hh hy (expected.desired owner) hm
  unfold converge
  cases hmore : Action.furtherAttempts attempts with
  | zero =>
    refine Program.ensures_mono hfirst ?_
    rintro r y' ⟨hreaches, -, rfl | ⟨hlossy, -⟩⟩
    · exact ⟨_, rfl, hreaches⟩
    · have htwo := hattempts hlossy
      unfold Action.furtherAttempts at hmore
      omega
  | succ more =>
    refine (Program.ensures_bind _ _ _ _).2 (Program.ensures_mono hfirst ?_)
    rintro r y' ⟨hreaches, -, rfl | ⟨-, -, e, rfl, hconflict⟩⟩
    · exact ⟨_, rfl, hreaches⟩
    · simp only [hconflict, if_true]
      -- The answer to the first write was lost; all further attempts find the Secret settled.
      have hsettled : IsSettled (expected.desired owner) (π y').store := by
        rw [hreaches.store]
        exact isSettled_settle hm howners owner
      have hm' : (π y').store.IsKept := by
        rw [hreaches.store]
        exact isKept_settle hm _
      have hrest := ensures_attempt_settled hh hreaches.alone hm' hsettled
      refine Program.ensures_mono (Action.ensures_retrying hrest more 2) ?_
      rintro r y'' ⟨s, rfl, hidle⟩
      rw [hreaches.store] at hidle hsettled
      exact ⟨s, rfl, hreaches.before_idle hsettled hidle⟩

end Attempts

end Convergence

namespace KeyIndex

/-- The store after an index was saved. -/
def settle (x : KeyIndex) (cluster : Cluster) (m : SecretStore) : SecretStore :=
  if x.isEmpty then
    match m.secrets.get? cluster.secretKey with
    | none => m
    | some s => (m.delete cluster.namespace (Naming.secretName cluster.name) (some s.uid)).2
  else
    match x.toSecret cluster with
    | .ok expected => Convergence.settle (expected.desired cluster.ownerReference?) m
    | .error _ => m

/-- The Secret of the cluster is as saving the index leaves it. -/
def IsSettled (x : KeyIndex) (cluster : Cluster) (m : SecretStore) : Prop :=
  if x.isEmpty then m.secrets.get? cluster.secretKey = none
  else ∃ expected, x.toSecret cluster = .ok expected ∧
    Convergence.IsSettled (expected.desired cluster.ownerReference?) m

variable {x : KeyIndex} {cluster : Cluster} {m : SecretStore}

theorem settle_of_toSecret (hne : x.isEmpty = false) {expected : Secret}
    (hs : x.toSecret cluster = .ok expected) :
    x.settle cluster m = Convergence.settle (expected.desired cluster.ownerReference?) m := by
  rw [settle, hne, hs]
  rfl

theorem isSettled_iff_of_toSecret (hne : x.isEmpty = false) {expected : Secret}
    (hs : x.toSecret cluster = .ok expected) :
    x.IsSettled cluster m ↔
      Convergence.IsSettled (expected.desired cluster.ownerReference?) m := by
  rw [IsSettled, hne, if_neg Bool.false_ne_true, hs]
  constructor
  · rintro ⟨_, ⟨⟩, hsettled⟩
    exact hsettled
  · exact fun hsettled => ⟨expected, rfl, hsettled⟩

theorem isSettled_iff_of_isEmpty (hx : x.isEmpty = true) :
    x.IsSettled cluster m ↔ m.secrets.get? cluster.secretKey = none := by
  rw [IsSettled, if_pos hx]

theorem settle_of_isSettled (henc : x.IsEncodable) (h : x.IsSettled cluster m) :
    x.settle cluster m = m := by
  cases hx : x.isEmpty with
  | true =>
    rw [settle, if_pos hx, (isSettled_iff_of_isEmpty hx).1 h]
  | false =>
    obtain ⟨expected, hs⟩ := (toSecret_eq_ok_iff x cluster).2 henc
    rw [settle_of_toSecret hx hs]
    exact Convergence.settle_of_isSettled ((isSettled_iff_of_toSecret hx hs).1 h)

theorem isKept_settle (hm : m.IsKept) (x : KeyIndex) (cluster : Cluster) :
    (x.settle cluster m).IsKept := by
  rw [settle]
  split
  · split
    · exact hm
    · exact SecretStore.isKept_answer hm (.delete _ _ _)
  · split
    · exact Convergence.isKept_settle hm _
    · exact hm

theorem isSettled_settle (hm : m.IsKept) (henc : x.IsEncodable) :
    x.IsSettled cluster (x.settle cluster m) := by
  cases hx : x.isEmpty with
  | true =>
    rw [isSettled_iff_of_isEmpty hx, settle, if_pos hx]
    cases hs : m.secrets.get? cluster.secretKey with
    | none => exact hs
    | some s =>
      obtain ⟨m', hdelete, hsecrets⟩ := SecretStore.delete_eq hs
      simp only [hdelete, hsecrets]
      exact (Table.get?_erase _ _ _).trans (if_pos rfl)
  | false =>
    obtain ⟨expected, hs⟩ := (toSecret_eq_ok_iff x cluster).2 henc
    have howners := (parts_of_toSecret hs).2.1
    rw [isSettled_iff_of_toSecret hx hs, settle_of_toSecret hx hs]
    exact Convergence.isSettled_settle hm howners _

theorem stands_of_isSettled (hx : x.IsNamed) (henc : x.IsEncodable) (h : x.IsSettled cluster m) :
    x.Stands cluster m := by
  cases hne : x.isEmpty with
  | true =>
    rw [Stands, if_pos hne]
    exact (isSettled_iff_of_isEmpty hne).1 h
  | false =>
    obtain ⟨expected, hs⟩ := (toSecret_eq_ok_iff x cluster).2 henc
    obtain ⟨hkey, hholds⟩ := holds_toSecret hx hs
    obtain ⟨stored, hstored, hcurrent⟩ := (isSettled_iff_of_toSecret hne hs).1 h
    have hcarries := Secret.carries_of_desired (Secret.carries_of_not_outdated hcurrent)
    rw [Stands, hne, if_neg Bool.false_ne_true, ← hkey]
    exact ⟨stored, hstored, holds_of_carries hholds hcarries⟩

/-- Indexes that are alike are settled by the same Secret. -/
theorem isSettled_congr {y : KeyIndex} (h : x.Alike y) (hx : x.IsNamed) (henc : x.IsEncodable)
    (hsettled : x.IsSettled cluster m) : y.IsSettled cluster m := by
  cases hne : x.isEmpty with
  | true =>
    rw [isSettled_iff_of_isEmpty (h.isEmpty_eq ▸ hne)]
    exact (isSettled_iff_of_isEmpty hne).1 hsettled
  | false =>
    obtain ⟨expected, hs⟩ := (toSecret_eq_ok_iff x cluster).2 henc
    obtain ⟨expected', hs'⟩ := (toSecret_eq_ok_iff y cluster).2
      fun a c hc => henc a c ((h.2 a).trans hc)
    obtain ⟨stored, hstored, hcurrent⟩ := (isSettled_iff_of_toSecret hne hs).1 hsettled
    have hsecrets := reordered_toSecret h hx (fun a c hc => hx a c ((h.2 a).trans hc)) hs hs'
    have hkeys : keyOf (expected'.desired cluster.ownerReference?) =
        keyOf (expected.desired cluster.ownerReference?) :=
      (parts_of_toSecret hs').1.trans (parts_of_toSecret hs).1.symm
    rw [isSettled_iff_of_toSecret (h.isEmpty_eq ▸ hne) hs']
    refine ⟨stored, hkeys ▸ hstored, ?_⟩
    rw [(hsecrets.desired cluster.ownerReference?).outdated_eq]
    exact hcurrent

section Saving

variable {σ : Type} {h : (c : StoreCall) → σ → c.Answer × σ} {π : σ → SharedStore} {lossy : Prop}
  (hh : Relays lossy h π) {y : σ} (hy : (π y).others = [])

include hh hy

/-- The removal of a Secret succeeds, also if its answer is lost. -/
theorem ensures_discard_settle (hx : x.isEmpty = true) :
    (discard cluster).run.Ensures h y fun r y' =>
      r = .ok () ∧
        Reaches (x.settle cluster (π y).store) (x.IsSettled cluster (π y).store) (π y) (π y') := by
  have hget := hh.get hy cluster.namespace (Naming.secretName cluster.name)
  unfold settle IsSettled
  rw [if_pos hx, if_pos hx]
  cases hs : (π y).store.secrets.get? cluster.secretKey with
  | none =>
    refine (ensures_discard_error (hget.trans (SecretStore.get_of_none hs))).2 ⟨rfl, ?_⟩
    exact hh.reaches_read hy _ _ _
  | some s =>
    have hfound := hget.trans (SecretStore.get_of_some hs)
    have hy' := hh.others hy (.get cluster.namespace (Naming.secretName cluster.name))
    refine (ensures_discard_found hfound).2 ⟨?_, ?_⟩
    · obtain ⟨m', hdelete, -⟩ := SecretStore.delete_eq hs
      rcases hh.reply_alone hy' (.delete _ _ (some s.uid)) with hreply | ⟨-, e, he, hreply⟩
      · rw [hh.store hy] at hreply
        rw [hreply]
        change removalResult ((π y).store.delete _ _ _).1 = _
        rw [hdelete]
        rfl
      · rw [hreply]
        exact if_pos he
    · exact hh.reaches_write hy (fun hnone => nomatch hnone) _ _ (.delete _ _ (some s.uid))

/-- How saving ends: with the index saved, or at a credential without bytes. -/
theorem ensures_save_settle (x : KeyIndex) (cluster : Cluster) {attempts : Int}
    (hattempts : lossy → 2 ≤ attempts) (hm : (π y).store.IsKept) :
    (x.save cluster attempts).run.Ensures h y fun r y' =>
      (r = .ok () ∧
        Reaches (x.settle cluster (π y).store) (x.IsSettled cluster (π y).store) (π y) (π y')) ∨
      ((∃ e, r = .error e) ∧ x.isEmpty = false ∧ ¬ x.IsEncodable) := by
  unfold save
  cases hne : x.isEmpty with
  | true =>
    rw [if_pos rfl]
    exact Program.ensures_mono (ensures_discard_settle hh hy hne) fun r y' hr => Or.inl hr
  | false =>
    rw [if_neg Bool.false_ne_true]
    refine (Action.ensures_bind _ _ _ _).2 ((Action.ensures_ofExcept _ _ _).2 ?_)
    cases hs : x.toSecret cluster with
    | error e =>
      refine Or.inr ⟨⟨e, rfl⟩, rfl, fun henc => ?_⟩
      obtain ⟨s, hok⟩ := (toSecret_eq_ok_iff x cluster).2 henc
      cases hs.symm.trans hok
    | ok expected =>
      have howners := (parts_of_toSecret hs).2.1
      refine (Action.ensures_bind _ _ _ _).2 (Program.ensures_mono
        (Convergence.ensures_converge_settle hh hy howners _ hattempts hm) ?_)
      rintro r y' ⟨s, rfl, hreaches⟩
      refine Or.inl ⟨rfl, ?_⟩
      rw [settle_of_toSecret hne hs, isSettled_iff_of_toSecret hne hs]
      exact hreaches

end Saving

/-- The store after an index was saved without losses. -/
theorem store_after_save (x : KeyIndex) (henc : x.IsEncodable) (cluster : Cluster) (attempts : Int)
    {m : SecretStore} (hm : m.IsKept) (w : Surroundings) :
    (SecretStore.run (x.save cluster attempts).run w m).2.2 = x.settle cluster m := by
  have hlossless : False → 2 ≤ attempts := False.elim
  have hends := SharedStore.run_of_ensures (ensures_save_settle (y := ⟨m, [], []⟩)
    SharedStore.relays_answer rfl x cluster hlossless hm) w
  rw [← (SharedStore.run_alone _ w m []).2.2]
  rcases hends with ⟨-, hreaches⟩ | ⟨-, -, hnot⟩
  · exact hreaches.store
  · exact absurd henc hnot

end KeyIndex

end CrossClusterKeys
