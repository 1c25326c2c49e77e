import CrossClusterKeys.Proofs.JsonWriting
import CrossClusterKeys.Value

/-!
# Values that JSON gives back

A value is plain if it is made of what JSON has forms of its own for: no value, truth values, whole
numbers, texts, lists and maps from texts.

**Reading.**  `Value.parse` is what a text of a document stands for as a value.  A map is looked up
by key with `Value.at?`.

**Results.**
* `isLegible_toJson`: a plain value has a legible document, from which it is got back.
* `at?_readBack`: an entry of an object is read as if it had been written alone, provided that
  the keys are distinct and unpaired.
-/

namespace CrossClusterKeys
namespace Value

section Reading

mutual

/-- The value that a document stands for. -/
def ofJson : Json → Value
  | .null => .null
  | .bool b => .bool b
  | .int n => .int n
  | .real x => .real x
  | .text t => .text t
  | .list items => .list (ofJsonItems items)
  | .object members => .map (ofJsonMembers members)

/-- The value of every item. -/
def ofJsonItems : List Json → List Value
  | [] => []
  | j :: js => ofJson j :: ofJsonItems js

/-- Every member with its value. -/
def ofJsonMembers : List (Text × Json) → List (Text × Value)
  | [] => []
  | (k, j) :: ms => (k, ofJson j) :: ofJsonMembers ms

end

/-- The value that the text of a document stands for. -/
def parse [Json.Nesting] (t : Text) : Except Json.Refusal Value := (Json.read t).map ofJson

/-- The value at a key, if the value is a map that has the key. -/
def at? (v : Value) (key : Text) : Option Value :=
  match v with
  | .map entries => Table.find key entries
  | _ => none

end Reading

section Plain

mutual

/-- Values that JSON gives back, with at most `depth` levels of lists and maps. -/
def IsPlain : Nat → Value → Prop
  | _, .null => True
  | _, .bool _ => True
  | _, .int n => n.natAbs < 10 ^ Json.digitLimit
  | _, .real _ => False
  | _, .text t => t.isUnpaired = true
  | _, .bytes _ => False
  | 0, .list _ => False
  | depth + 1, .list items => ArePlain depth items
  | _, .tuple _ => False
  | 0, .map _ => False
  | depth + 1, .map entries => (entries.map Prod.fst).Nodup ∧ ArePlainEntries depth entries
  | _, .other .. => False

/-- Lists of such values. -/
def ArePlain : Nat → List Value → Prop
  | _, [] => True
  | depth, v :: vs => IsPlain depth v ∧ ArePlain depth vs

/-- Entries with unpaired keys and such values. -/
def ArePlainEntries : Nat → List (Text × Value) → Prop
  | _, [] => True
  | depth, (k, v) :: es => k.isUnpaired = true ∧ IsPlain depth v ∧ ArePlainEntries depth es

end

theorem keys_toJsonEntries (es : List (Text × Value)) :
    (toJsonEntries es).map Prod.fst = es.map Prod.fst := by
  induction es with
  | nil => rw [toJsonEntries, List.map_nil, List.map_nil]
  | cons e es ih => rw [toJsonEntries, List.map_cons, List.map_cons, ih]

mutual

/-- A plain value has a legible document, from which it is got back. -/
theorem isLegible_toJson :
    ∀ (v : Value) (depth : Nat), IsPlain depth v →
      Json.IsLegible depth v.toJson ∧ ofJson v.toJson = v
  | .null, _, _ => by simp [toJson, ofJson, Json.IsLegible]
  | .bool _, _, _ => by simp [toJson, ofJson, Json.IsLegible]
  | .int n, _, h => by
    rw [IsPlain] at h
    rw [toJson, ofJson, Json.IsLegible]
    exact ⟨h, rfl⟩
  | .real _, _, h => by simp [IsPlain] at h
  | .text t, _, h => by
    rw [IsPlain] at h
    rw [toJson, ofJson, Json.IsLegible]
    exact ⟨h, rfl⟩
  | .bytes _, _, h => by simp [IsPlain] at h
  | .list _, 0, h => by simp [IsPlain] at h
  | .list items, depth + 1, h => by
    rw [IsPlain] at h
    obtain ⟨hlegible, hback⟩ := areLegible_toJsonItems items depth h
    rw [toJson, ofJson, Json.IsLegible, hback]
    exact ⟨hlegible, rfl⟩
  | .tuple _, _, h => by simp [IsPlain] at h
  | .map _, 0, h => by simp [IsPlain] at h
  | .map entries, depth + 1, h => by
    rw [IsPlain] at h
    obtain ⟨hlegible, hback⟩ := areLegible_toJsonEntries entries depth h.2
    rw [toJson, ofJson, Json.IsLegible, hback, keys_toJsonEntries]
    exact ⟨⟨h.1, hlegible⟩, rfl⟩
  | .other .., _, h => by simp [IsPlain] at h

theorem areLegible_toJsonItems :
    ∀ (vs : List Value) (depth : Nat), ArePlain depth vs →
      Json.AreLegible depth (toJsonItems vs) ∧ ofJsonItems (toJsonItems vs) = vs
  | [], _, _ => by simp [toJsonItems, ofJsonItems, Json.AreLegible]
  | v :: vs, depth, h => by
    rw [ArePlain] at h
    obtain ⟨hlegible, hback⟩ := isLegible_toJson v depth h.1
    obtain ⟨hlegibles, hbacks⟩ := areLegible_toJsonItems vs depth h.2
    rw [toJsonItems, ofJsonItems, Json.AreLegible, hback, hbacks]
    exact ⟨⟨hlegible, hlegibles⟩, rfl⟩

theorem areLegible_toJsonEntries :
    ∀ (es : List (Text × Value)) (depth : Nat), ArePlainEntries depth es →
      Json.AreLegibleMembers depth (toJsonEntries es) ∧ ofJsonMembers (toJsonEntries es) = es
  | [], _, _ => by simp [toJsonEntries, ofJsonMembers, Json.AreLegibleMembers]
  | (k, v) :: es, depth, h => by
    rw [ArePlainEntries] at h
    obtain ⟨hlegible, hback⟩ := isLegible_toJson v depth h.2.1
    obtain ⟨hlegibles, hbacks⟩ := areLegible_toJsonEntries es depth h.2.2
    rw [toJsonEntries, ofJsonMembers, Json.AreLegibleMembers, hback, hbacks]
    exact ⟨⟨h.1, hlegible, hlegibles⟩, rfl⟩

end

/-- A plain value has a document that fits and is read as the value. -/
theorem fits_toJson {v : Value} {depth : Nat} (h : v.IsPlain depth) :
    Json.Fits depth v.toJson ∧ ofJson (Json.readBack v.toJson) = v := by
  obtain ⟨hlegible, hback⟩ := isLegible_toJson v depth h
  obtain ⟨hfits, hread⟩ := Json.fits_of_isLegible v.toJson depth hlegible
  rw [hread]
  exact ⟨hfits, hback⟩

end Plain

section Objects

theorem ofJsonMembers_eq_map (ms : List (Text × Json)) :
    ofJsonMembers ms = ms.map fun m => (m.1, ofJson m.2) := by
  induction ms with
  | nil => rw [ofJsonMembers, List.map_nil]
  | cons m ms ih => rw [ofJsonMembers, List.map_cons, ih]

theorem readBackMembers_eq_map {ms : List (Text × Json)}
    (h : ∀ k ∈ ms.map Prod.fst, k.isUnpaired = true) :
    Json.readBackMembers ms = ms.map fun m => (m.1, Json.readBack m.2) := by
  induction ms with
  | nil => rw [Json.readBackMembers, List.map_nil]
  | cons m ms ih =>
    have hm : m.1.isUnpaired = true := h m.1 (List.mem_cons_self ..)
    have hms := ih fun k hk => h k (List.mem_cons_of_mem _ hk)
    rw [Json.readBackMembers, List.map_cons, hms, Text.readBack_of_isUnpaired hm]

/-- An entry of an object is read as if it had been written alone. -/
theorem at?_readBack {ms : List (Text × Json)} (hnodup : (ms.map Prod.fst).Nodup)
    (h : ∀ k ∈ ms.map Prod.fst, k.isUnpaired = true) (key : Text) :
    (ofJson (Json.readBack (.object ms))).at? key =
      (Table.find key ms).map fun j => ofJson (Json.readBack j) := by
  have hkeys : ((ms.map fun m => (m.1, Json.readBack m.2)).map Prod.fst).Nodup := by
    rw [List.map_map]
    exact hnodup
  have hlookup := Table.get?_map (fun j => ofJson (Json.readBack j)) ⟨ms, hnodup⟩ key
  rw [Json.readBack, readBackMembers_eq_map h, Table.entries_ofList hkeys, ofJson,
    ofJsonMembers_eq_map, List.map_map]
  exact hlookup

end Objects

end Value
end CrossClusterKeys
