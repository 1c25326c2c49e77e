import CrossClusterKeys.Table
import Mathlib.Data.List.Sort

/-!
# Tables as maps

Two tables are the same map when every look-up finds the same in both.  The order of entry is
lost in that view, and sorting brings every table of a map to one and the same list.

**Results.**
* `mem_entries_iff`: the entries are what look-ups find.
* `isSubmapOf_iff`, `sameAs_iff`, `isEmpty_iff`: the tests on tables, said by look-ups.
* `get?_overlay_eq_iff`: an overlay of entries that are there already changes nothing.
* `entries_ofList`, `ofList_entries`: entries with distinct keys make the table of exactly these
  entries.
* `get?_map`, `map_insert`, `map_erase`, `map_ofList`, `nodup_filterMap`: images of tables.
* `KeyMap.sorted_congr`: the sorted entries depend on the map alone.
-/

namespace CrossClusterKeys
namespace Table

variable {κ α β : Type} [DecidableEq κ]

theorem mem_iff_find {es : List (κ × α)} (h : (es.map Prod.fst).Nodup) (k : κ) (v : α) :
    (k, v) ∈ es ↔ find k es = some v := by
  induction es with
  | nil => simp [find]
  | cons e rest ih =>
    obtain ⟨k', w⟩ := e
    rw [List.map_cons, List.nodup_cons] at h
    by_cases hk : k' = k
    · subst hk
      have hrest : (k', v) ∉ rest := fun hm => h.1 (List.mem_map.2 ⟨_, hm, rfl⟩)
      simp [find, hrest, eq_comm]
    · have hk' : ¬ k = k' := fun e => hk e.symm
      simp [find, hk, hk', ih h.2]

/-- The entries are what look-ups find. -/
theorem mem_entries_iff (m : Table κ α) (k : κ) (v : α) :
    (k, v) ∈ m.entries ↔ m.get? k = some v :=
  mem_iff_find m.nodup k v

theorem isEmpty_iff (m : Table κ α) : m.isEmpty = true ↔ ∀ k, m.get? k = none := by
  unfold isEmpty
  rw [List.isEmpty_iff]
  constructor
  · intro h k
    rw [get?, h]
    rfl
  · intro h
    cases hes : m.entries with
    | nil => rfl
    | cons e rest =>
      have hm : m.get? e.1 = some e.2 := (mem_entries_iff m e.1 e.2).1 (by simp [hes])
      rw [h] at hm
      cases hm

theorem isEmpty_eq_false_iff (m : Table κ α) :
    m.isEmpty = false ↔ ∃ k v, m.get? k = some v := by
  rw [← Bool.not_eq_true, isEmpty_iff]
  constructor
  · intro h
    obtain ⟨k, hk⟩ := Classical.not_forall.1 h
    exact ⟨k, Option.ne_none_iff_exists'.1 hk⟩
  · rintro ⟨k, v, hk⟩ h
    rw [h] at hk
    cases hk

theorem get?_overlay_of_none {m n : Table κ α} {k : κ} (h : n.get? k = none) :
    (m.overlay n).get? k = m.get? k := by
  rw [get?_overlay, h, Option.none_or]

/-- An overlay changes nothing if and only if its entries are there already. -/
theorem get?_overlay_eq_iff (m n : Table κ α) :
    (∀ k, (m.overlay n).get? k = m.get? k) ↔ ∀ k v, n.get? k = some v → m.get? k = some v := by
  constructor
  · intro h k v hk
    rw [← h, get?_overlay, hk, Option.some_or]
  · intro h k
    cases hk : n.get? k with
    | none => exact get?_overlay_of_none hk
    | some v => rw [get?_overlay, hk, Option.some_or, h k v hk]

theorem isSubmapOf_iff [DecidableEq α] (m n : Table κ α) :
    m.isSubmapOf n = true ↔ ∀ k v, m.get? k = some v → n.get? k = some v := by
  unfold isSubmapOf
  rw [List.all_eq_true]
  constructor
  · intro h k v hk
    exact of_decide_eq_true (h (k, v) ((mem_entries_iff m k v).2 hk))
  · intro h e he
    exact decide_eq_true (h e.1 e.2 ((mem_entries_iff m e.1 e.2).1 he))

theorem sameAs_iff [DecidableEq α] (m n : Table κ α) :
    m.sameAs n = true ↔ ∀ k, m.get? k = n.get? k := by
  unfold sameAs
  rw [Bool.and_eq_true, isSubmapOf_iff, isSubmapOf_iff]
  constructor
  · rintro ⟨hmn, hnm⟩ k
    cases hk : m.get? k with
    | some v => exact (hmn k v hk).symm
    | none =>
      cases hk' : n.get? k with
      | none => rfl
      | some v =>
        rw [hnm k v hk'] at hk
        cases hk
  · intro h
    exact ⟨fun k v hk => by rw [← h, hk], fun k v hk => by rw [h, hk]⟩

section Lists

omit [DecidableEq κ] in
theorem ext_entries {m n : Table κ α} (h : m.entries = n.entries) : m = n := by
  cases m
  cases n
  cases h
  rfl

theorem put_of_not_mem {key : κ} {es : List (κ × α)} (h : key ∉ es.map Prod.fst) (value : α) :
    put key value es = es ++ [(key, value)] := by
  induction es with
  | nil => rfl
  | cons e rest ih =>
    obtain ⟨k, v⟩ := e
    rw [List.map_cons, List.mem_cons, not_or] at h
    have hk : ¬ k = key := fun e => h.1 e.symm
    rw [put, if_neg hk, ih h.2, List.cons_append]

theorem entries_insertMany (m : Table κ α) (es : List (κ × α))
    (h : ((m.entries ++ es).map Prod.fst).Nodup) :
    (m.insertMany es).entries = m.entries ++ es := by
  unfold insertMany
  induction es generalizing m with
  | nil => simp
  | cons e rest ih =>
    have hput : (m.insert e.1 e.2).entries = m.entries ++ [e] := by
      refine put_of_not_mem (fun hm => ?_) e.2
      rw [List.map_append, List.nodup_append] at h
      exact h.2.2 _ hm e.1 (by simp) rfl
    rw [List.foldl_cons, ih (m.insert e.1 e.2) (by rw [hput, List.append_assoc]; exact h), hput,
      List.append_assoc, List.singleton_append]

/-- Entries with distinct keys make the table of exactly these entries. -/
theorem entries_ofList {es : List (κ × α)} (h : (es.map Prod.fst).Nodup) :
    (ofList es).entries = es :=
  entries_insertMany empty es h

theorem ofList_entries (m : Table κ α) : ofList m.entries = m :=
  ext_entries (entries_ofList m.nodup)

theorem get?_ofList {es : List (κ × α)} (h : (es.map Prod.fst).Nodup) (k : κ) :
    (ofList es).get? k = find k es := by
  rw [get?, entries_ofList h]

theorem get?_map (f : α → β) (m : Table κ α) (k : κ) :
    (m.map f).get? k = (m.get? k).map f := by
  obtain ⟨es, h⟩ := m
  change find k (es.map fun e => (e.1, f e.2)) = (find k es).map f
  induction es with
  | nil => rfl
  | cons e rest ih =>
    rw [List.map_cons, List.nodup_cons] at h
    by_cases hk : e.1 = k
    · simp [find, hk]
    · simp [find, hk, ih h.2]

theorem get?_ofList_eq_some {es : List (κ × α)} (h : (es.map Prod.fst).Nodup) (k : κ) (v : α) :
    (ofList es).get? k = some v ↔ (k, v) ∈ es := by
  rw [get?_ofList h, mem_iff_find h]

omit [DecidableEq κ] in
/-- Renaming the keys and leaving some out keeps them distinct if every new name tells the old. -/
theorem nodup_filterMap {κ' : Type} (rename : κ → Option κ') (f : α → β) (back : κ' → κ)
    (hback : ∀ k k', rename k = some k' → k = back k') {es : List (κ × α)}
    (h : (es.map Prod.fst).Nodup) :
    ((es.filterMap fun e => (rename e.1).map fun k' => (k', f e.2)).map Prod.fst).Nodup := by
  induction es with
  | nil => simp
  | cons e rest ih =>
    obtain ⟨k, v⟩ := e
    rw [List.map_cons, List.nodup_cons] at h
    cases hr : rename k with
    | none =>
      simp only [List.filterMap_cons, hr, Option.map_none]
      exact ih h.2
    | some k' =>
      simp only [List.filterMap_cons, hr, Option.map_some, List.map_cons, List.nodup_cons]
      refine ⟨fun hm => ?_, ih h.2⟩
      obtain ⟨p, hp, hpk⟩ := List.mem_map.1 hm
      obtain ⟨e, he, hep⟩ := List.mem_filterMap.1 hp
      obtain ⟨k'', hk'', rfl⟩ := Option.map_eq_some_iff.1 hep
      have hsame : e.1 = k := by
        rw [hback _ _ hk'', hback _ _ hr]
        exact congrArg back hpk
      exact h.1 (List.mem_map.2 ⟨e, he, hsame⟩)

end Lists

section Images

variable (f : α → β) (m : Table κ α) (k : κ)

theorem contains_map : (m.map f).contains k = m.contains k := by
  unfold contains
  rw [get?_map, Option.isSome_map]

theorem map_insert (v : α) : (m.insert k v).map f = (m.map f).insert k (f v) := by
  have hput : ∀ es : List (κ × α), (put k v es).map (fun e => (e.1, f e.2)) =
      put k (f v) (es.map fun e => (e.1, f e.2)) := by
    intro es
    induction es with
    | nil => rfl
    | cons e es ih =>
      by_cases hk : e.1 = k
      · simp [put, hk]
      · simp [put, hk, ih]
  exact ext_entries (hput m.entries)

theorem map_erase : (m.erase k).map f = (m.map f).erase k := by
  refine ext_entries ?_
  change (m.entries.filter _).map _ = (m.entries.map _).filter _
  rw [List.filter_map]
  rfl

theorem map_ofList (es : List (κ × α)) :
    (ofList es).map f = ofList (es.map fun e => (e.1, f e.2)) := by
  have hmany : ∀ m : Table κ α, (m.insertMany es).map f =
      (m.map f).insertMany (es.map fun e => (e.1, f e.2)) := by
    induction es with
    | nil => exact fun _ => rfl
    | cons e es ih =>
      intro m
      have hstep := ih (m.insert e.1 e.2)
      rw [map_insert] at hstep
      exact hstep
  exact hmany empty

end Images

end Table

namespace KeyMap

variable {α : Type}

theorem sorted_perm (m : KeyMap α) : m.sorted.Perm m.entries := List.mergeSort_perm _ _

theorem nodup_sorted (m : KeyMap α) : (m.sorted.map Prod.fst).Nodup :=
  ((sorted_perm m).map Prod.fst).nodup_iff.2 m.nodup

theorem mem_sorted_iff (m : KeyMap α) (k : Text) (v : α) :
    (k, v) ∈ m.sorted ↔ m.get? k = some v := by
  rw [(sorted_perm m).mem_iff, Table.mem_entries_iff]

theorem find_sorted (m : KeyMap α) (k : Text) : Table.find k m.sorted = m.get? k := by
  refine Option.ext fun v => ?_
  rw [← Table.mem_iff_find (nodup_sorted m), mem_sorted_iff]

theorem pairwise_sorted (m : KeyMap α) :
    m.sorted.Pairwise fun a b => Text.le a.1 b.1 = true := by
  have htrans : ∀ a b c : Text × α,
      Text.le a.1 b.1 = true → Text.le b.1 c.1 = true → Text.le a.1 c.1 = true :=
    fun _ _ _ => Text.le_trans
  have htotal : ∀ a b : Text × α, (Text.le a.1 b.1 || Text.le b.1 a.1) = true := by
    intro a b
    rw [Bool.or_eq_true]
    exact Text.le_total a.1 b.1
  exact List.pairwise_mergeSort htrans htotal m.entries

theorem sorted_map {β : Type} (f : α → β) (m : KeyMap α) :
    KeyMap.sorted (m.map f) = m.sorted.map fun e => (e.1, f e.2) := by
  let le (a b : Text × α) : Bool := Text.le a.1 b.1
  let le' (a b : Text × β) : Bool := Text.le a.1 b.1
  have h : ∀ a ∈ m.entries, ∀ b ∈ m.entries, le a b = le' (a.1, f a.2) (b.1, f b.2) :=
    fun _ _ _ _ => rfl
  exact (List.map_mergeSort h).symm

/-- The sorted entries depend on the map alone. -/
theorem sorted_congr {m n : KeyMap α} (h : ∀ k, m.get? k = n.get? k) : m.sorted = n.sorted := by
  have hmem : ∀ e, e ∈ m.sorted ↔ e ∈ n.sorted := by
    rintro ⟨k, v⟩
    rw [mem_sorted_iff, mem_sorted_iff, h]
  have hperm : m.sorted.Perm n.sorted :=
    (List.perm_ext_iff_of_nodup (nodup_sorted m).of_map (nodup_sorted n).of_map).2 hmem
  refine hperm.eq_of_pairwise (fun a b ha hb hab hba => ?_) (pairwise_sorted m) (pairwise_sorted n)
  obtain ⟨k, v⟩ := a
  obtain ⟨k', w⟩ := b
  obtain rfl : k = k' := Text.le_antisymm hab hba
  have hv := (mem_sorted_iff n k v).1 ((hmem _).1 ha)
  have hw := (mem_sorted_iff n k w).1 hb
  rw [hv, Option.some.injEq] at hw
  rw [hw]

end KeyMap
end CrossClusterKeys
