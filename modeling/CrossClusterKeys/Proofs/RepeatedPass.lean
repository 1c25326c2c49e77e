import CrossClusterKeys.Proofs.AliasDifference
import CrossClusterKeys.Proofs.LoneWriter

/-!
# A pass made again

A pass over a store that the same expected keys have been brought into finds nothing to add, to
rotate or to remove, and what it saves is there already.

**Input.**  A store that nobody else uses, and two lists with the same keys for the same aliases.

**Results.**
* `ensures_run_settle`: what a pass leaves is settled for the index that it reports.
* `apply_of_agrees`: a pass changes nothing in an index that agrees with its keys.
* `run_again_writes_nothing`: the second of two passes succeeds without a write.
-/

namespace CrossClusterKeys
namespace Pass

open SharedStore (Reaches Relays)

section Running

variable {σ : Type} {h : (c : StoreCall) → σ → c.Answer × σ} {π : σ → SharedStore} {lossy : Prop}
  (hh : Relays lossy h π) {y : σ} (hy : (π y).others = [])

include hh hy

/-- How a pass ends: with the index that it reports settled, or with a failure. -/
theorem ensures_run_settle [Json.Nesting] (cluster : Cluster) (expected : List IssuedKey)
    {attempts : Int}
    (hattempts : lossy → 2 ≤ attempts) (id : Option Text) (hm : (π y).store.IsKept) :
    (run cluster expected attempts id).run.Ensures h y fun o y' =>
      (∃ x r, (π y).store.indexOf cluster = .ok x ∧ apply x expected = .ok r ∧ o = .ok r ∧
        Reaches (r.index.settle cluster (π y).store) (r.index.IsSettled cluster (π y).store)
          (π y) (π y')) ∨
      ((∃ e, o = .error e) ∧ ∀ x r, (π y).store.indexOf cluster = .ok x →
        apply x expected = .ok r → ¬ r.index.IsEncodable) := by
  have hget := hh.get hy cluster.namespace (Naming.secretName cluster.name)
  have hread := hh.reaches_read hy True cluster.namespace (Naming.secretName cluster.name)
  by_cases hout : ∃ x r, (π y).store.indexOf cluster = .ok x ∧ apply x expected = .ok r
  · obtain ⟨x, r, hx, happly⟩ := hout
    have hm' := hread.store.symm ▸ hm
    refine ensures_run_of_apply hget hx happly (Program.ensures_mono
      (KeyIndex.ensures_save_settle hh hread.alone r.index cluster hattempts hm') ?_)
    rintro o y' (⟨rfl, hreaches⟩ | ⟨⟨e, rfl⟩, -, henc⟩)
    · rw [hread.store] at hreaches
      exact Or.inl ⟨x, r, hx, happly, rfl, hreaches.after_idle trivial hread⟩
    · refine Or.inr ⟨⟨e, rfl⟩, fun x' r' hx' hr' => ?_⟩
      cases hx.symm.trans hx'
      cases happly.symm.trans hr'
      exact henc
  · have hnone : ∀ x r, (π y).store.indexOf cluster = .ok x → apply x expected ≠ .ok r :=
      fun x r hx happly => hout ⟨x, r, hx, happly⟩
    refine ensures_run_of_no_outcome hget hnone fun e => Or.inr ⟨⟨e, rfl⟩, ?_⟩
    exact fun x r hx happly => absurd happly (hnone x r hx)

end Running

/-- A pass over a store that nobody else uses, with its calls. -/
theorem run_settle [Json.Nesting] (cluster : Cluster) (expected : List IssuedKey) (attempts : Int)
    (id : Option Text) {m : SecretStore} (hm : m.IsKept) (w : Surroundings) :
    let out := SharedStore.run (run cluster expected attempts id).run w ⟨m, [], []⟩
    (∃ x r, m.indexOf cluster = .ok x ∧ apply x expected = .ok r ∧ out.1 = .ok r ∧
      out.2.2.store = r.index.settle cluster m ∧
      (r.index.IsSettled cluster m → ∀ t ∈ out.2.2.moments, t.call.isWrite = false)) ∨
    ((∃ e, out.1 = .error e) ∧ ∀ x r, m.indexOf cluster = .ok x →
      apply x expected = .ok r → ¬ r.index.IsEncodable) := by
  intro out
  have hlossless : False → 2 ≤ attempts := False.elim
  have hends := SharedStore.run_of_ensures (ensures_run_settle (y := ⟨m, [], []⟩)
    SharedStore.relays_answer rfl cluster expected hlossless id hm) w
  rcases hends with ⟨x, r, hx, happly, hr, hreaches⟩ | hfails
  · refine Or.inl ⟨x, r, hx, happly, hr, hreaches.store, fun hsettled => ?_⟩
    exact SharedStore.writes_eq_zero_iff.1 (hreaches.writes_eq hsettled)
  · exact Or.inr hfails

section Agreeing

variable {x : KeyIndex} {expected : List IssuedKey}

theorem Agrees.contains_eq (hx : Agrees x expected) (a : Text) :
    x.contains a = (expectedFor expected a).isSome := by
  rw [KeyIndex.contains, Table.contains, hx.aliases, Option.isSome_map]

theorem Agrees.not_isStale (hx : Agrees x expected) {k : IssuedKey}
    (hk : expectedFor expected k.remote = some k) : isStale x k = false := by
  rw [Bool.eq_false_iff, Ne, isStale_iff, KeyIndex.keyIdFor, hx.aliases, hk,
    hx.credentials _ k hk]
  simp

/-- Keys that the index has already are passed over. -/
theorem recordAll_of_fresh {r : Report} {ks : List IssuedKey}
    (h : ∀ k ∈ ks, r.index.contains k.remote = true ∧ isStale r.index k = false) :
    recordAll r ks = .ok r := by
  induction ks with
  | nil => rfl
  | cons k ks ih =>
    obtain ⟨hknown, hfresh⟩ := h k List.mem_cons_self
    rw [recordAll, hknown, hfresh]
    exact ih fun k' hk' => h k' (List.mem_cons_of_mem _ hk')

/-- A pass changes nothing in an index that agrees with its keys. -/
theorem apply_of_agrees (hx : Agrees x expected) : apply x expected = .ok ⟨x, [], [], []⟩ := by
  have hnone : unwanted x (wanted expected) = [] := by
    refine List.eq_nil_iff_forall_not_mem.2 fun a ha => ?_
    obtain ⟨hknown, hexp⟩ := (mem_unwanted x expected a).1 ha
    rw [hx.contains_eq, hexp] at hknown
    cases hknown
  rw [apply, hnone]
  refine recordAll_of_fresh fun k hk => ?_
  have hexp := (mem_sorted_wanted expected k).1 hk
  refine ⟨?_, hx.not_isStale hexp⟩
  change x.contains k.remote = true
  rw [hx.contains_eq, hexp]
  rfl

theorem agrees_congr {x' : KeyIndex} (h : x.Alike x') (hx : Agrees x expected) :
    Agrees x' expected where
  aliases a := (h.1 a).symm.trans (hx.aliases a)
  credentials a k ha := by
    rw [KeyIndex.credentialFor, ← h.2]
    exact hx.credentials a k ha

theorem agrees_of_same {expected' : List IssuedKey}
    (hsame : ∀ a, expectedFor expected a = expectedFor expected' a) (hx : Agrees x expected) :
    Agrees x expected' where
  aliases a := hsame a ▸ hx.aliases a
  credentials a k ha := hx.credentials a k ((hsame a).trans ha)

end Agreeing

section Repeating

variable {x : KeyIndex} {expected : List IssuedKey} {r : Report} {cluster : Cluster}
  {m : SecretStore}

theorem agrees_empty (hx : Agrees x expected) (hempty : x.isEmpty = true) :
    Agrees .empty expected := by
  have hnone : ∀ a, expectedFor expected a = none := by
    intro a
    rw [← Option.map_eq_none_iff, ← hx.aliases]
    exact (Table.isEmpty_iff _).1 hempty a
  refine ⟨fun a => ?_, fun a k ha => ?_⟩
  · rw [hnone]
    rfl
  · cases (hnone a).symm.trans ha

/-- What a pass has settled is loaded as an index that agrees with its keys and is settled. -/
theorem indexOf_settle [Json.Nesting] (hm : m.IsKept) (hx : m.indexOf cluster = .ok x)
    (hexpected : ∀ k ∈ expected, k.IsWellFormed) (h : apply x expected = .ok r) :
    ∃ z, (r.index.settle cluster m).indexOf cluster = .ok z ∧ Agrees z expected ∧
      z.IsEncodable ∧ z.IsSettled cluster (r.index.settle cluster m) := by
  have hnamed := isNamed_of_apply h (SecretStore.isNamed_of_indexOf hx)
  have henc := isEncodable_of_apply h (SecretStore.isEncodable_of_indexOf hx)
    fun k hk => ⟨_, Utf8.encode_of_isWellFormed (hexpected k hk).encoded⟩
  have hsettled : r.index.IsSettled cluster (r.index.settle cluster m) :=
    KeyIndex.isSettled_settle hm henc
  have hstands := KeyIndex.stands_of_isSettled hnamed henc hsettled
  cases hne : r.index.isEmpty with
  | true =>
    have hindex := KeyIndex.indexOf_of_stands_empty hstands hne
    refine ⟨.empty, hindex, agrees_empty (agrees_of_apply h) hne,
      SecretStore.isEncodable_of_indexOf hindex, ?_⟩
    exact (KeyIndex.isSettled_iff_of_isEmpty rfl).2
      ((KeyIndex.isSettled_iff_of_isEmpty hne).1 hsettled)
  | false =>
    have hlegible := isLegible_of_apply h hx hexpected
    obtain ⟨z, hindex, halike⟩ := KeyIndex.indexOf_of_stands hlegible hstands hne
    refine ⟨z, hindex, agrees_congr halike.symm (agrees_of_apply h),
      SecretStore.isEncodable_of_indexOf hindex, ?_⟩
    exact KeyIndex.isSettled_congr halike.symm hnamed henc hsettled

end Repeating

/-- After a pass that has succeeded, a pass for the same keys by alias succeeds without a change and
without a write, if nobody else writes in between. -/
theorem run_again_writes_nothing [Json.Nesting] (uids : Nat → Text) (calls : List StoreCall)
    (cluster : Cluster)
    {expected expected' : List IssuedKey} (hexpected : ∀ k ∈ expected, k.IsWellFormed)
    (hsame : ∀ a, expectedFor expected a = expectedFor expected' a) (attempts attempts' : Int)
    (id id' : Option Text) (w w' : Surroundings) {r : Report}
    (hrun : (SecretStore.run (run cluster expected attempts id).run w
      ((SecretStore.empty uids).after calls)).1 = .ok r) :
    let m := (SecretStore.run (run cluster expected attempts id).run w
      ((SecretStore.empty uids).after calls)).2.2
    let again := SharedStore.run (run cluster expected' attempts' id').run w' ⟨m, [], []⟩
    (∃ r', again.1 = .ok r' ∧ r'.changed = false) ∧
      (∀ t ∈ again.2.2.moments, t.call.isWrite = false) ∧ again.2.2.store = m := by
  have hkept := SecretStore.isKept_after uids calls
  generalize (SecretStore.empty uids).after calls = prior at hkept hrun ⊢
  intro m again
  -- The calls of the first pass are not looked at, but it runs as it does where they are kept.
  obtain ⟨hresult, -, hstore⟩ :=
    SharedStore.run_alone (run cluster expected attempts id).run w prior []
  rcases run_settle cluster expected attempts id hkept w with
    ⟨x, r₀, hx, happly, -, hsettle, -⟩ | ⟨⟨e, he⟩, -⟩
  · have hm : m = r₀.index.settle cluster prior := hstore.symm.trans hsettle
    obtain ⟨z, hz, hagrees, henc, hsettled⟩ := indexOf_settle hkept hx hexpected happly
    have hkept' : m.IsKept := hm ▸ KeyIndex.isKept_settle hkept _ _
    have hagrees' : Agrees z expected' := agrees_of_same hsame hagrees
    rw [← hm] at hz hsettled
    rcases run_settle cluster expected' attempts' id' hkept' w' with
      ⟨z', r', hz', hagain, hr', hstore', hidle⟩ | ⟨-, hnot⟩
    · cases hz.symm.trans hz'
      cases (apply_of_agrees hagrees').symm.trans hagain
      refine ⟨⟨_, hr', rfl⟩, hidle hsettled, ?_⟩
      exact hstore'.trans (KeyIndex.settle_of_isSettled henc hsettled)
    · exact absurd henc (hnot z _ hz (apply_of_agrees hagrees'))
  · rw [hresult, hrun] at he
    cases he

/-- The first pass rotates one key and adds another, over a Secret with a credential that has no key
ID; the second list has the keys in another order and without the one that does not count. -/
theorem run_again_writes_nothing_orphaned :
    let expected : List IssuedKey :=
      [⟨"prod", "k0", "eA=="⟩, ⟨"eu", "k2", [.ofNat 0xE9]⟩, ⟨"prod", "k3", "eQ=="⟩]
    let expected' : List IssuedKey := [⟨"prod", "k3", "eQ=="⟩, ⟨"eu", "k2", [.ofNat 0xE9]⟩]
    let cluster : Cluster := ⟨"es", "ns", "uid", [], "v1", "Elasticsearch"⟩
    let uids : Nat → Text := fun _ => "uid-1"
    let calls : List StoreCall := [.create orphanedSecret]
    (∀ k ∈ expected, k.IsWellFormed) ∧
      (∀ a, expectedFor expected a = expectedFor expected' a) ∧
      (∃ r, (SecretStore.run (run cluster expected 3 none).run .bare
        ((SecretStore.empty uids).after calls)).1 = .ok r) ∧
      let m := (SecretStore.run (run cluster expected 3 none).run .bare
        ((SecretStore.empty uids).after calls)).2.2
      let again := SharedStore.run (run cluster expected' 1 none).run .bare ⟨m, [], []⟩
      (∃ r', again.1 = .ok r' ∧ r'.changed = false) ∧
        (∀ t ∈ again.2.2.moments, t.call.isWrite = false) ∧ again.2.2.store = m := by
  intro expected expected' cluster uids calls
  have hwell : ∀ k ∈ expected, k.IsWellFormed := by
    intro k hk
    simp only [expected, List.mem_cons, List.not_mem_nil, or_false] at hk
    rcases hk with rfl | rfl | rfl
    · exact ⟨by decide, by decide, by decide⟩
    · exact ⟨by decide, by decide, by decide⟩
    · exact ⟨by decide, by decide, by decide⟩
  have hsame : ∀ a, expectedFor expected a = expectedFor expected' a := by
    intro a
    by_cases hprod : ("prod" : Text) = a
    · subst hprod
      decide
    · by_cases heu : ("eu" : Text) = a
      · subst heu
        decide
      · simp [expectedFor, expected, expected', hprod, heu]
  obtain ⟨x, hx, -⟩ := indexOf_orphanedSecret
  have hkept := SecretStore.isKept_after uids calls
  obtain ⟨r, hr, -⟩ := SecretStore.run_of_ensures
    (ensures_run_ok cluster 3 none hkept hx (by decide : ∀ k ∈ expected, _)
      fun k hk => ⟨_, Utf8.encode_of_isWellFormed (hwell k hk).encoded⟩) .bare
  exact ⟨hwell, hsame, ⟨r, hr⟩,
    run_again_writes_nothing uids calls cluster hwell hsame 3 1 none none .bare .bare hr⟩

end Pass
end CrossClusterKeys
