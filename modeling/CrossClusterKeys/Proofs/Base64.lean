import CrossClusterKeys.Base64

/-!
# Reading back what was written in Base64

**Input.**  Any byte string.  Its digits are a sequence of whole groups, and a last group of two or
three digits if the length is no multiple of three.

**Results.**
* `scan_map_glyph`: signs of digits are read one by one, whatever stands behind them.
* `scan_padding`: padding signs close a last group of two or three digits.
* `decode_encode`: a byte string is read back from its text.
-/

namespace CrossClusterKeys
namespace Base64

section Digits

theorem lt_of_mem_digitsOf {bs : List UInt8} : ∀ d ∈ digitsOf bs, d < 64 := by
  induction bs using digitsOf.induct with
  | case1 => simp [digitsOf]
  | case2 a =>
    have ha := a.toNat_lt
    simp only [digitsOf, List.forall_mem_cons]
    exact ⟨by omega, by omega, by simp⟩
  | case3 a b =>
    have ha := a.toNat_lt
    have hb := b.toNat_lt
    simp only [digitsOf, List.forall_mem_cons]
    exact ⟨by omega, by omega, by omega, by simp⟩
  | case4 a b c rest ih =>
    have ha := a.toNat_lt
    have hb := b.toNat_lt
    have hc := c.toNat_lt
    simp only [digitsOf, List.forall_mem_cons]
    exact ⟨by omega, by omega, by omega, by omega, ih⟩

/-- No group has one digit alone. -/
theorem length_digitsOf_mod (bs : List UInt8) : (digitsOf bs).length % 4 ≠ 1 := by
  induction bs using digitsOf.induct with
  | case1 => decide
  | case2 a => simp [digitsOf]
  | case3 a b => simp [digitsOf]
  | case4 a b c rest ih =>
    simp only [digitsOf, List.length_cons]
    omega

end Digits

section Signs

theorem isAscii_glyph : ∀ d, d < 64 → (glyph d).isAscii = true := by decide

theorem glyph_ne_padding : ∀ d, d < 64 → glyph d ≠ '=' := by decide

theorem isAscii_encode (bs : List UInt8) : (encode bs).all CodePoint.isAscii = true := by
  have hpadding : ∀ n, (padding n).all CodePoint.isAscii = true := by
    intro n
    unfold padding
    split <;> decide
  rw [encode, List.all_append, hpadding, Bool.and_true, List.all_map, List.all_eq_true]
  exact fun d hd => isAscii_glyph d (lt_of_mem_digitsOf d hd)

/-- Signs of digits are read one by one, whatever stands behind them. -/
theorem scan_map_glyph {ds : List Nat} (hds : ∀ d ∈ ds, d < 64) (count : Nat) (rest : Text) :
    scan count 0 (ds.map glyph ++ rest) =
      (ds ++ (scan (count + ds.length) 0 rest).1, (scan (count + ds.length) 0 rest).2) := by
  induction ds generalizing count with
  | nil => rfl
  | cons d ds ih =>
    have hd := hds d List.mem_cons_self
    have hrest := ih (fun d' hd' => hds d' (List.mem_cons_of_mem _ hd')) (count + 1)
    have hlength : count + 1 + ds.length = count + (d :: ds).length := by
      rw [List.length_cons]
      omega
    rw [hlength] at hrest
    rw [List.map_cons, List.cons_append, scan, if_neg (glyph_ne_padding d hd), digitOf_glyph d hd]
    simp only [hrest, List.cons_append]

/-- Padding signs close a last group of two or three digits; behind whole groups there are none. -/
theorem scan_padding {count : Nat} (h : count % 4 ≠ 1) :
    scan count 0 (padding count) = ([], decide (count % 4 ≠ 0)) := by
  have hcases : count % 4 = 0 ∨ count % 4 = 2 ∨ count % 4 = 3 := by omega
  rcases hcases with hzero | htwo | hthree
  · simp [padding, hzero, scan]
  · simp [padding, htwo, scan, Text.ofString]
  · simp [padding, hthree, scan, Text.ofString]

end Signs

/-- A byte string is read back from its text. -/
theorem decode_encode (bs : List UInt8) : decode (encode bs) = .ok bs := by
  have hmod := length_digitsOf_mod bs
  have hscan : scan 0 0 (encode bs) = (digitsOf bs, decide ((digitsOf bs).length % 4 ≠ 0)) := by
    rw [encode, scan_map_glyph lt_of_mem_digitsOf, Nat.zero_add, scan_padding hmod,
      List.append_nil]
  rw [decode, if_pos (isAscii_encode bs), hscan]
  by_cases hwhole : (digitsOf bs).length % 4 = 0 <;> simp [hwhole, bytesOf_digitsOf]

end Base64
end CrossClusterKeys
