import CrossClusterKeys.Text.Basic

/-!
# Tables with an order of entry

Labels, annotations, data, aliases and keys are finite maps from texts, and a store is a finite map
from names to Secrets.  The entries of a map have an order, which answers show: a key keeps the
place at which it was first entered, also when its value is replaced, and a key that is erased and
entered again comes last.

**Results.**
* `get?_insert`, `get?_erase`, `get?_overlay`: what a look-up finds after each operation.
* `contains_iff`: a key is contained when a look-up finds a value.
-/

namespace CrossClusterKeys

/-- A finite map with its entries in order. -/
structure Table (κ α : Type) where
  /-- The entries in order. -/
  entries : List (κ × α)
  /-- No key is entered twice. -/
  nodup : (entries.map Prod.fst).Nodup
  deriving DecidableEq

/-- A table from texts. -/
abbrev KeyMap (α : Type) := Table Text α

namespace Table

variable {κ α β : Type} [DecidableEq κ]

section Entries

/-- The value at `key` in a list of entries. -/
def find (key : κ) : List (κ × α) → Option α
  | [] => none
  | (k, v) :: rest => if k = key then some v else find key rest

/-- The entries with `value` at `key`, in place of an old value or at the end. -/
def put (key : κ) (value : α) : List (κ × α) → List (κ × α)
  | [] => [(key, value)]
  | (k, v) :: rest => if k = key then (k, value) :: rest else (k, v) :: put key value rest

theorem keys_put (key : κ) (value : α) (es : List (κ × α)) :
    (put key value es).map Prod.fst =
      if key ∈ es.map Prod.fst then es.map Prod.fst else es.map Prod.fst ++ [key] := by
  induction es with
  | nil => simp [put]
  | cons e rest ih =>
    obtain ⟨k, v⟩ := e
    by_cases h : k = key
    · simp [put, h]
    · have h' : ¬ key = k := fun hk => h hk.symm
      by_cases hm : key ∈ rest.map Prod.fst
      · simp only [put, h, if_false, List.map_cons, ih, if_pos hm, List.mem_cons, h', false_or]
      · simp only [put, h, if_false, List.map_cons, ih, if_neg hm, List.mem_cons, h', false_or,
          List.cons_append]

theorem nodup_put (key : κ) (value : α) (es : List (κ × α))
    (h : (es.map Prod.fst).Nodup) : ((put key value es).map Prod.fst).Nodup := by
  rw [keys_put]
  split
  · exact h
  · next hm =>
    rw [List.nodup_append]
    refine ⟨h, by simp, ?_⟩
    intro a ha b hb hab
    rw [List.mem_singleton.1 hb] at hab
    exact hm (hab ▸ ha)

theorem find_put (key : κ) (value : α) (es : List (κ × α)) (k : κ) :
    find k (put key value es) = if key = k then some value else find k es := by
  induction es with
  | nil => simp [put, find]
  | cons e rest ih =>
    obtain ⟨k', v⟩ := e
    by_cases h : k' = key
    · subst h
      by_cases hk : k' = k <;> simp [put, find, hk]
    · by_cases hk : k' = k
      · subst hk
        have h' : ¬ key = k' := fun e => h e.symm
        simp [put, find, h, h']
      · simp [put, find, h, hk, ih]

theorem find_eq_none_iff (key : κ) (es : List (κ × α)) :
    find key es = none ↔ key ∉ es.map Prod.fst := by
  induction es with
  | nil => simp [find]
  | cons e rest ih =>
    obtain ⟨k, v⟩ := e
    by_cases h : k = key
    · simp [find, h]
    · have h' : ¬ key = k := fun hk => h hk.symm
      simp [find, h, h', ih]

theorem find_filter (key : κ) (es : List (κ × α)) (k : κ) :
    find k (es.filter fun e => e.1 ≠ key) = if key = k then none else find k es := by
  induction es with
  | nil => simp [find]
  | cons e rest ih =>
    obtain ⟨k', v⟩ := e
    by_cases h : k' = key
    · subst h
      by_cases hk : k' = k <;> simp [find, hk] at ih ⊢ <;> exact ih
    · by_cases hk : k' = k
      · subst hk
        have h' : ¬ key = k' := fun e => h e.symm
        simp [find, h, h']
      · simp [find, h, hk] at ih ⊢
        exact ih

end Entries

/-- The map without entries. -/
def empty : Table κ α := ⟨[], by simp⟩

instance : Inhabited (Table κ α) := ⟨empty⟩
instance : EmptyCollection (Table κ α) := ⟨empty⟩

/-- The value at a key. -/
def get? (m : Table κ α) (key : κ) : Option α := find key m.entries

/-- Whether the map has a value at a key. -/
def contains (m : Table κ α) (key : κ) : Bool := (m.get? key).isSome

/-- The map with `value` at `key`. -/
def insert (m : Table κ α) (key : κ) (value : α) : Table κ α :=
  ⟨put key value m.entries, nodup_put key value m.entries m.nodup⟩

/-- The map without the entry at `key`. -/
def erase (m : Table κ α) (key : κ) : Table κ α :=
  ⟨m.entries.filter fun e => e.1 ≠ key, (m.nodup.sublist (List.filter_sublist.map Prod.fst))⟩

/-- The map with the entries of a list added one after the other. -/
def insertMany (m : Table κ α) (es : List (κ × α)) : Table κ α :=
  es.foldl (fun m e => m.insert e.1 e.2) m

/-- The map of a list of entries, the last one of each key counting. -/
def ofList (es : List (κ × α)) : Table κ α := empty.insertMany es

/-- The map `m` with the entries of `n` put over it. -/
def overlay (m n : Table κ α) : Table κ α := m.insertMany n.entries

/-- The keys in order of entry. -/
def keys (m : Table κ α) : List κ := m.entries.map Prod.fst

/-- The number of entries. -/
def size (m : Table κ α) : Nat := m.entries.length

/-- Whether there is no entry. -/
def isEmpty (m : Table κ α) : Bool := m.entries.isEmpty

/-- The map with every value replaced by its image. -/
def map (f : α → β) (m : Table κ α) : Table κ β :=
  ⟨m.entries.map fun e => (e.1, f e.2), by
    have h := m.nodup
    simpa [List.map_map, Function.comp_def] using h⟩

/-- Whether every entry of `m` is one of `n`. -/
def isSubmapOf [DecidableEq α] (m n : Table κ α) : Bool :=
  m.entries.all fun e => n.get? e.1 = some e.2

/-- Whether two maps have the same entries, in whatever order. -/
def sameAs [DecidableEq α] (m n : Table κ α) : Bool := m.isSubmapOf n && n.isSubmapOf m

theorem get?_empty (key : κ) : (empty : Table κ α).get? key = none := rfl

theorem get?_insert (m : Table κ α) (key k : κ) (value : α) :
    (m.insert key value).get? k = if key = k then some value else m.get? k :=
  find_put key value m.entries k

theorem get?_erase (m : Table κ α) (key k : κ) :
    (m.erase key).get? k = if key = k then none else m.get? k :=
  find_filter key m.entries k

theorem contains_iff (m : Table κ α) (key : κ) : m.contains key = true ↔ key ∈ m.keys := by
  unfold contains get? keys
  rw [Option.isSome_iff_ne_none, ne_eq, find_eq_none_iff, Classical.not_not]

/-- Of entries added one after the other, the last one at a key counts. -/
theorem get?_insertMany (m : Table κ α) (es : List (κ × α)) (k : κ) :
    (m.insertMany es).get? k = (find k es.reverse).or (m.get? k) := by
  unfold insertMany
  induction es generalizing m with
  | nil => simp [find]
  | cons e rest ih =>
    obtain ⟨key, v⟩ := e
    have hfind : ∀ (l : List (κ × α)),
        find k (l ++ [(key, v)]) = (find k l).or (if key = k then some v else none) := by
      intro l
      induction l with
      | nil => by_cases h : key = k <;> simp [find, h]
      | cons a l ihl =>
        obtain ⟨k', w⟩ := a
        by_cases h : k' = k <;> simp [find, h, ihl]
    rw [List.foldl_cons, ih, List.reverse_cons, hfind, get?_insert]
    by_cases h : key = k <;> cases find k rest.reverse <;> simp [h]

private theorem find_reverse (es : List (κ × α)) (h : (es.map Prod.fst).Nodup) (k : κ) :
    find k es.reverse = find k es := by
  have key : ∀ (l : List (κ × α)) (a : κ × α),
      find k (l ++ [a]) = (find k l).or (find k [a]) := by
    intro l a
    induction l with
    | nil => simp [find]
    | cons b l ihl =>
      obtain ⟨k', w⟩ := b
      by_cases h : k' = k <;> simp [find, h] at ihl ⊢
      exact ihl
  induction es with
  | nil => rfl
  | cons e rest ih =>
    obtain ⟨k', v⟩ := e
    rw [List.map_cons, List.nodup_cons] at h
    rw [List.reverse_cons, key, ih h.2]
    by_cases hk : k' = k
    · have : find k rest = none := (find_eq_none_iff k rest).2 (hk ▸ h.1)
      simp [find, hk, this]
    · simp [find, hk]

theorem get?_overlay (m n : Table κ α) (k : κ) :
    (m.overlay n).get? k = (n.get? k).or (m.get? k) := by
  unfold overlay
  rw [get?_insertMany, find_reverse n.entries n.nodup]
  rfl

end Table

namespace KeyMap

variable {α : Type}

/-- The entries in the order of their keys. -/
def sorted (m : KeyMap α) : List (Text × α) := m.entries.mergeSort fun a b => Text.le a.1 b.1

end KeyMap
end CrossClusterKeys
