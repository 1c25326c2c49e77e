import CrossClusterKeys.Proofs.LoneWriter

/-!
# Saving while answers get lost

A write may be made and its answer lost.  The caller then sees that the write was refused when it
was sent again: there is a Secret of that name already, its version is no longer the stored one, or
it is gone.

**Input.**  A store that nobody else uses, and a list of losses that says which answers are lost.

**Results.**
* `relays_losing`: losses change the answers to accepted writes and nothing else.
* `ensures_save_stored`: what saving leaves in the store, also of credentials without an alias.
* `save_despite_losses`: with a second attempt allowed, saving succeeds, makes one write at most and
  leaves the store as it would have done without losses, with the index in it.
-/

namespace CrossClusterKeys

/-- The disturbance loses the answer to a call and does nothing else. -/
structure Disturbance.IsLoss (d : Disturbance) : Prop where
  after : d.after = true
  calls : d.calls = []
  failure : ∃ e, d.failure = some e ∧ d.kind.IsLoss e

namespace Interference

/-- The failure in place of the answer to the last call of a trace, if that answer is lost. -/
def loss? (ds : List Disturbance) (c : StoreCall) (trace : Trace) : Option Raised :=
  let n := (trace.filter fun d => d.kind = c.kind).length
  (ds.filter (strikes c.kind n true)).head?.bind Disturbance.failure

/-- The answer to a call behind losses, with the calls so far. -/
def losing (ds : List Disturbance) (c : StoreCall) (y : SharedStore × Trace) :
    c.Answer × SharedStore × Trace :=
  let reply := SharedStore.answer c y.1
  let trace := y.2 ++ [c]
  (if c.succeeded reply.1 then ((loss? ds c trace).map c.refusal).getD reply.1 else reply.1,
    reply.2, trace)

variable {ds : List Disturbance} (hds : ∀ d ∈ ds, d.IsLoss)

include hds

theorem filter_strikes_before (kind : CallKind) (n : Nat) :
    ds.filter (strikes kind n false) = [] := by
  refine List.filter_eq_nil_iff.2 fun d hd => ?_
  simp [strikes, (hds d hd).after]

theorem isLoss_of_loss? {c : StoreCall} {trace : Trace} {e : Raised}
    (h : loss? ds c trace = some e) : c.kind.IsLoss e := by
  obtain ⟨d, hd, he⟩ := Option.bind_eq_some_iff.1 h
  obtain ⟨hmem, hstrikes⟩ := List.mem_filter.1 (List.mem_of_mem_head? hd)
  obtain ⟨e', he', hloss⟩ := (hds d hmem).failure
  cases he.symm.trans he'
  simp only [strikes, Bool.and_eq_true, decide_eq_true_eq] at hstrikes
  exact hstrikes.1.1 ▸ hloss

variable {σ : Type} {h : (c : Store.Call) → σ → Store.Answer c × σ}

/-- Nobody calls anything when answers get lost, and the first loss is what the caller sees. -/
theorem ensures_happen (y : σ) (Q : Option Raised → σ → Prop) :
    (happen ds).Ensures h y Q ↔ Q (ds.head?.bind Disturbance.failure) y := by
  cases ds with
  | nil => exact Iff.rfl
  | cons d ds =>
    obtain ⟨e, he, -⟩ := (hds d List.mem_cons_self).failure
    rw [happen, (hds d List.mem_cons_self).calls, he, List.head?_cons, Option.bind_some, he]
    exact Iff.rfl

/-- A call with losses around it is answered as it is behind losses. -/
theorem ensures_around (c : StoreCall) (x : SharedStore) (before : Trace)
    (Q : c.Answer × Trace → SharedStore → Prop)
    (hQ : Q ((losing ds c (x, before)).1, (losing ds c (x, before)).2.2)
      (losing ds c (x, before)).2.1) :
    (around ds c before).Ensures SharedStore.answer x Q := by
  let trace := before ++ [c]
  let n := (trace.filter fun d => d.kind = c.kind).length
  refine (Program.ensures_bind _ _ _ _).2 ?_
  rw [filter_strikes_before hds]
  refine (Program.ensures_bind _ _ _ _).2 ((Program.ensures_call _ _ _).2 ?_)
  cases hok : c.succeeded (SharedStore.answer c x).1 with
  | false =>
    simp only [losing, hok, Bool.false_eq_true, if_false] at hQ ⊢
    exact hQ
  | true =>
    simp only [losing, hok, if_true] at hQ ⊢
    refine (Program.ensures_bind _ _ _ _).2 ((ensures_happen ?_ _ _).2 ?_)
    · exact fun d hd => hds d (List.mem_of_mem_filter hd)
    · split
      · next e he =>
        rw [show loss? ds c trace = some e from he] at hQ
        exact hQ
      · next he =>
        rw [show loss? ds c trace = none from he] at hQ
        exact hQ

/-- Losses change the answers to accepted writes and nothing else. -/
theorem relays_losing : SharedStore.Relays True (losing ds) Prod.fst where
  shared _ _ := rfl
  reply c y := by
    cases hok : c.succeeded (SharedStore.answer c y.1).1 with
    | false =>
      refine Or.inl ?_
      simp only [losing, hok, Bool.false_eq_true, if_false]
    | true =>
      simp only [losing, hok, if_true]
      cases hloss : loss? ds c (y.2 ++ [c]) with
      | none => exact Or.inl rfl
      | some e => exact Or.inr ⟨trivial, e, isLoss_of_loss? hds hloss, rfl⟩

end Interference

namespace KeyIndex

section Saving

open SecretStore (answer)

/-- The Secret of the cluster has the key IDs of the index and the bytes of each of its credentials,
and no other data; an index without aliases has no Secret. -/
structure IsStored (x : KeyIndex) (cluster : Cluster) (m : SecretStore) : Prop where
  absent : x.isEmpty = true → m.secrets.get? cluster.secretKey = none
  present : x.isEmpty = false → ∃ s, m.secrets.get? cluster.secretKey = some s ∧
    s.annotations.get? Naming.aliasesKey = some (aliasesText x.aliases) ∧
    ∀ setting bytes, s.data.get? setting = some bytes ↔
      ∃ a c, x.keys.get? a = some c ∧ setting = Naming.settingName a ∧ Utf8.encode c = .ok bytes

variable {x : KeyIndex} {cluster : Cluster} {m m' : SecretStore}

/-- A Secret that carries the one made of an index has what is asked for. -/
theorem isStored_of_converged {expected s : Secret} (hne : x.isEmpty = false)
    (h : x.toSecret cluster = .ok expected)
    (hdone : Converged (expected.desired cluster.ownerReference?) s m m') :
    x.IsStored cluster m' := by
  obtain ⟨hkey, -, -, hannotations, data, hdata, hexpected⟩ := parts_of_toSecret h
  have hcarries := Secret.carries_of_desired hdone.carries
  have hnodup : (data.map Prod.fst).Nodup := by
    rw [map_fst_of_dataOf hdata]
    exact x.keys.nodup.map fun a b hab => Naming.settingName_injective hab
  refine ⟨fun hempty => ?_, fun _ => ⟨s, hkey ▸ hdone.found, ?_, fun setting bytes => ?_⟩⟩
  · rw [hne] at hempty
    cases hempty
  · refine hcarries.annotations _ _ ?_
    rw [hannotations, Table.get?_insert, if_pos rfl]
  · rw [hcarries.data, hexpected, Table.get?_ofList_eq_some hnodup, mem_of_dataOf hdata]
    simp only [Table.mem_entries_iff]

/-- An index whose credentials have bytes is stored by saving it. -/
theorem ensures_save_stored (henc : x.IsEncodable) (cluster : Cluster) (attempts : Int)
    (hm : m.IsKept) :
    (x.save cluster attempts).run.Ensures answer m fun _ m' => x.IsStored cluster m' := by
  unfold save
  cases hne : x.isEmpty with
  | true =>
    rw [if_pos rfl]
    refine Program.ensures_mono (ensures_discard cluster hm) ?_
    rintro r m' ⟨-, -, hnone, -⟩
    refine ⟨fun _ => hnone, fun h => ?_⟩
    rw [hne] at h
    cases h
  | false =>
    rw [if_neg Bool.false_ne_true]
    obtain ⟨expected, hexpected⟩ := (toSecret_eq_ok_iff x cluster).2 henc
    refine (Action.ensures_bind _ _ _ _).2 ((Action.ensures_ofExcept _ _ _).2 ?_)
    rw [hexpected]
    refine (Action.ensures_bind _ _ _ _).2 ?_
    refine Program.ensures_mono (ensures_converge expected _ attempts hm) ?_
    rintro r m' ⟨s, rfl, hdone⟩
    exact isStored_of_converged hne hexpected hdone

end Saving

/-- Whatever answers get lost, an index whose credentials have bytes is saved if there is a second
attempt, with one accepted write at most; the index is stored then, and the store is as without
losses. -/
theorem save_despite_losses {x : KeyIndex} (henc : x.IsEncodable) (cluster : Cluster)
    {attempts : Int} (hattempts : 2 ≤ attempts) {ds : List Disturbance} (hds : ∀ d ∈ ds, d.IsLoss)
    (uids : Nat → Text) (calls : List StoreCall) (w w' : Surroundings) :
    let m := (SecretStore.empty uids).after calls
    let out := SharedStore.run
      ((x.save cluster attempts).run.serveWith (Interference.around ds) []) w ⟨m, [], []⟩
    out.1.1 = .ok () ∧ (out.2.2.moments.filter Moment.isApplied).length ≤ 1 ∧
      out.2.2.store = (SecretStore.run (x.save cluster attempts).run w' m).2.2 ∧
      x.IsStored cluster out.2.2.store := by
  intro m out
  have hkept : m.IsKept := SecretStore.isKept_after uids calls
  have hsave := ensures_save_settle (y := (⟨m, [], []⟩, [])) (Interference.relays_losing hds) rfl x
    cluster (fun _ => hattempts) hkept
  have hends := SharedStore.run_of_ensures
    (Program.ensures_serveWith (Interference.ensures_around hds) hsave) w
  rcases hends with ⟨hok, hreaches⟩ | ⟨-, -, hnot⟩
  · have hsame := hreaches.store.trans (store_after_save x henc cluster attempts hkept w').symm
    refine ⟨hok, (SharedStore.length_applied_le _).trans hreaches.writes_le, hsame, ?_⟩
    rw [hsame]
    exact SecretStore.run_of_ensures (ensures_save_stored henc cluster attempts hkept) w'
  · exact absurd henc hnot

/-- The answer to the creation is lost; the second attempt reads what it has created. -/
theorem save_despite_losses_on_empty :
    let x : KeyIndex := empty.put "prod" "k1" "a2V5"
    let cluster : Cluster := ⟨"es", "ns", "uid", [], "v1", "Elasticsearch"⟩
    let lost : Raised := SecretStore.clash "ns/es-es-remote-api-keys" "409"
    let ds : List Disturbance :=
      [⟨.create, 1, true, [], some lost⟩, ⟨.update, 0, true, [], some lost⟩]
    let uids : Nat → Text := fun _ => "uid-1"
    x.IsEncodable ∧ (∀ d ∈ ds, d.IsLoss) ∧
      let m := (SecretStore.empty uids).after []
      let out := SharedStore.run
        ((x.save cluster 2).run.serveWith (Interference.around ds) []) .bare ⟨m, [], []⟩
      out.1.1 = .ok () ∧ (out.2.2.moments.filter Moment.isApplied).length ≤ 1 ∧
        out.2.2.store = (SecretStore.run (x.save cluster 2).run .bare m).2.2 ∧
        x.IsStored cluster out.2.2.store := by
  intro x cluster lost ds uids
  have henc : x.IsEncodable := isEncodable_put isEncodable_empty _ _ ⟨_, rfl⟩
  have hds : ∀ d ∈ ds, d.IsLoss := by
    intro d hd
    simp only [ds, List.mem_cons, List.not_mem_nil, or_false] at hd
    rcases hd with rfl | rfl
    · exact ⟨rfl, rfl, lost, rfl, rfl⟩
    · exact ⟨rfl, rfl, lost, rfl, rfl⟩
  exact ⟨henc, hds, save_despite_losses henc cluster (Int.le_refl 2) hds uids [] .bare .bare⟩

end KeyIndex
end CrossClusterKeys
