import CrossClusterKeys.Text.Basic

/-!
# Blank code points

Two sets of blanks are in use.  `isBlank` is the wide one, by which credentials and backend
names are stripped: the white space of Unicode and the four ASCII separators `U+001C` to
`U+001F`.  `isWhiteSpace` is the property `White_Space` alone, by which numbers in settings are
trimmed.

**Results.**
* `Text.trim_append`: trimming removes nothing but a run at either end.
-/

namespace CrossClusterKeys
namespace CodePoint

/-- The Unicode property `White_Space`. -/
def isWhiteSpace (c : CodePoint) : Bool :=
  (9 ≤ c.val && c.val ≤ 13) || c.val == 32 || c.val == 0x85 || c.val == 0xA0 || c.val == 0x1680 ||
    (0x2000 ≤ c.val && c.val ≤ 0x200A) || c.val == 0x2028 || c.val == 0x2029 || c.val == 0x202F ||
    c.val == 0x205F || c.val == 0x3000

/-- White space and the information separators. -/
def isBlank (c : CodePoint) : Bool :=
  c.isWhiteSpace || (0x1C ≤ c.val && c.val ≤ 0x1F)

end CodePoint

namespace Text

/-- The text without the code points in `p` at either end. -/
def trim (p : CodePoint → Bool) (t : Text) : Text :=
  ((t.dropWhile p).reverse.dropWhile p).reverse

/-- The text without blanks at either end. -/
def strip (t : Text) : Text := trim CodePoint.isBlank t

/-- Trimming removes a run of `p` in front and a run of `p` behind. -/
theorem trim_append (p : CodePoint → Bool) (t : Text) :
    ∃ front back : Text, t = front ++ trim p t ++ back ∧
      (∀ c ∈ front, p c = true) ∧ ∀ c ∈ back, p c = true := by
  have hsplit : ∀ u : Text, u = u.takeWhile p ++ u.dropWhile p := fun u =>
    (List.takeWhile_append_dropWhile (p := p) (l := u)).symm
  have htake : ∀ u : Text, ∀ c ∈ u.takeWhile p, p c = true := by
    intro u
    induction u with
    | nil => simp
    | cons d u ih =>
      by_cases h : p d = true
      · simpa [List.takeWhile_cons, h] using ih
      · simp [h]
  refine ⟨t.takeWhile p, ((t.dropWhile p).reverse.takeWhile p).reverse, ?_, htake t, ?_⟩
  · have h := congrArg List.reverse (hsplit (t.dropWhile p).reverse)
    rw [List.reverse_reverse, List.reverse_append] at h
    rw [List.append_assoc]
    show t = t.takeWhile p ++ (((t.dropWhile p).reverse.dropWhile p).reverse ++ _)
    rw [← h]
    exact hsplit t
  · intro c hc
    exact htake _ c (List.mem_reverse.1 hc)

end Text
end CrossClusterKeys
