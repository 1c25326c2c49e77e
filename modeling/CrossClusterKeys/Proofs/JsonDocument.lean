import CrossClusterKeys.Proofs.JsonText
import CrossClusterKeys.Proofs.Naming

/-!
# The reader step by step

What one step of the reader makes of the sign at the head of a text, and of what was read behind
it.  Whatever is proved of the reader is put together from these rules.

**Results.**
* `skipGap_append`: blanks in front of a sign are skipped.
* `readValue_word`, `readValue_list`, `readValue_object`: a word, a list and an object.
* `readItems_close`, `readItems_open`, `readMembers_close`, `readMembers_open`: whether a list or an
  object ends at once.
* `readMoreItems_last`, `readMoreItems_next`, `readMoreMembers_last`, `readMoreMembers_next`: an
  item or a member, and whether it is the last one.
-/

namespace CrossClusterKeys
namespace Json

section Gaps

theorem skipGap_cons {c : CodePoint} (h : isGap c = false) (t : Text) :
    skipGap (c :: t) = c :: t := by
  simp [skipGap, h]

theorem skipGap_append {gap : Text} (h : gap.all isGap = true) {c : CodePoint}
    (hc : isGap c = false) (t : Text) : skipGap (gap ++ c :: t) = c :: t := by
  induction gap with
  | nil => exact skipGap_cons hc t
  | cons d gap ih =>
    simp only [List.all_cons, Bool.and_eq_true] at h
    simp only [skipGap, List.cons_append, List.dropWhile_cons, h.1, if_true]
    exact ih h.2

end Gaps

section Rules

variable {fuel depth : Nat} {t u w rest : Text}

theorem after?_eq_none {c d : CodePoint} (h : c ≠ d) (s t : Text) :
    Text.after? (c :: s) (d :: t) = none := by
  have hp : ¬ (c :: s).isPrefixOf (d :: t) = true := by
    simp [h]
  simp only [Text.after?, if_neg hp]

theorem readValue_word {j : Json} (fuel depth : Nat)
    (hw : ∃ c t, w = c :: t ∧ c ≠ '"' ∧ c ≠ '[' ∧ c ≠ '\x7b')
    (h : readWord? (w ++ rest) = some (j, rest)) :
    readValue (fuel + 1) depth (w ++ rest) = .ok (j, rest) := by
  obtain ⟨c, t, rfl, hq, hl, ho⟩ := hw
  rw [List.cons_append] at h ⊢
  rw [readValue.eq_def]
  simp only [if_neg hq, if_neg hl, if_neg ho, h]

theorem readValue_list :
    readValue (fuel + 1) (depth + 1) (CodePoint.ofChar '[' :: t) =
      (readItems fuel depth (skipGap t)).map fun p => (.list p.1, p.2) := by
  have hq : ¬ CodePoint.ofChar '[' = CodePoint.ofChar '"' := by decide
  rw [readValue.eq_def]
  simp only [if_neg hq, if_true]

theorem readValue_object :
    readValue (fuel + 1) (depth + 1) (CodePoint.ofChar '\x7b' :: t) =
      (readMembers fuel depth (skipGap t)).map fun p =>
        (.object (Table.ofList p.1).entries, p.2) := by
  have hq : ¬ CodePoint.ofChar '\x7b' = CodePoint.ofChar '"' := by decide
  have hl : ¬ CodePoint.ofChar '\x7b' = CodePoint.ofChar '[' := by decide
  rw [readValue.eq_def]
  simp only [if_neg hq, if_neg hl, if_true]

theorem readItems_close :
    readItems (fuel + 1) depth (CodePoint.ofChar ']' :: rest) = .ok ([], rest) := by
  have hb : Text.ofString "]" = [CodePoint.ofChar ']'] := by decide
  have ha := Text.after?_append [CodePoint.ofChar ']'] rest
  rw [List.singleton_append] at ha
  rw [readItems.eq_def]
  simp only [hb, ha]

theorem readItems_open {c : CodePoint} (h : c ≠ ']') :
    readItems (fuel + 1) depth (c :: t) = readMoreItems fuel depth (c :: t) := by
  have hb : Text.ofString "]" = [CodePoint.ofChar ']'] := by decide
  have ha := after?_eq_none (Ne.symm h) [] t
  rw [readItems.eq_def]
  simp only [hb, ha]

theorem readMembers_close :
    readMembers (fuel + 1) depth (CodePoint.ofChar '\x7d' :: rest) = .ok ([], rest) := by
  have hb : Text.ofString "\x7d" = [CodePoint.ofChar '\x7d'] := by decide
  have ha := Text.after?_append [CodePoint.ofChar '\x7d'] rest
  rw [List.singleton_append] at ha
  rw [readMembers.eq_def]
  simp only [hb, ha]

theorem readMembers_open {c : CodePoint} (h : c ≠ '\x7d') :
    readMembers (fuel + 1) depth (c :: t) = readMoreMembers fuel depth (c :: t) := by
  have hb : Text.ofString "\x7d" = [CodePoint.ofChar '\x7d'] := by decide
  have ha := after?_eq_none (Ne.symm h) [] t
  rw [readMembers.eq_def]
  simp only [hb, ha]

theorem readMoreItems_last {j : Json} (h : readValue fuel depth t = .ok (j, u))
    (hu : skipGap u = CodePoint.ofChar ']' :: rest) :
    readMoreItems (fuel + 1) depth t = .ok ([j], rest) := by
  rw [readMoreItems.eq_def]
  simp only [h, bind, Except.bind, hu, if_true]

theorem readMoreItems_next {j : Json} (h : readValue fuel depth t = .ok (j, u))
    (hu : skipGap u = CodePoint.ofChar ',' :: rest) :
    readMoreItems (fuel + 1) depth t =
      (readMoreItems fuel depth (skipGap rest)).map fun p => (j :: p.1, p.2) := by
  have hb : ¬ CodePoint.ofChar ',' = CodePoint.ofChar ']' := by decide
  rw [readMoreItems.eq_def]
  simp only [h, bind, Except.bind, hu, if_neg hb, if_true]
  cases readMoreItems fuel depth (skipGap rest) <;> rfl

theorem readMoreMembers_last {k v : Text} {j : Json} (hk : readText t = .ok (k, u))
    (hu : skipGap u = CodePoint.ofChar ':' :: v)
    (h : readValue fuel depth (skipGap v) = .ok (j, w))
    (hw : skipGap w = CodePoint.ofChar '\x7d' :: rest) :
    readMoreMembers (fuel + 1) depth (CodePoint.ofChar '"' :: t) = .ok ([(k, j)], rest) := by
  rw [readMoreMembers.eq_def]
  simp only [if_true, hk, h, bind, Except.bind, hu, hw]

theorem readMoreMembers_next {k v : Text} {j : Json} (hk : readText t = .ok (k, u))
    (hu : skipGap u = CodePoint.ofChar ':' :: v)
    (h : readValue fuel depth (skipGap v) = .ok (j, w))
    (hw : skipGap w = CodePoint.ofChar ',' :: rest) :
    readMoreMembers (fuel + 1) depth (CodePoint.ofChar '"' :: t) =
      (readMoreMembers fuel depth (skipGap rest)).map fun p => ((k, j) :: p.1, p.2) := by
  have hb : ¬ CodePoint.ofChar ',' = CodePoint.ofChar '\x7d' := by decide
  rw [readMoreMembers.eq_def]
  simp only [if_true, hk, h, bind, Except.bind, hu, hw, if_neg hb]
  cases readMoreMembers fuel depth (skipGap rest) <;> rfl

end Rules

end Json
end CrossClusterKeys
