import CrossClusterKeys.Text.Basic

/-!
# Numbers as digits

A natural number is written by its digits in a base from 2 to 16, the most
significant first and without leading zeros; zero is the single digit `0`.
Reading folds the digits back.

**Results.**
* `value_digits`: reading the digits of a number gives the number.
* `length_digits_pos`: a number has at least one digit.
* `ofNat_injective`: two numbers never have the same decimal text.
-/

namespace CrossClusterKeys
namespace Digits

/-- The digits of `n` in front of `rest`; `fuel` bounds their number. -/
def digitsOnto (base : Nat) : Nat → Nat → List Nat → List Nat
  | 0, _, rest => rest
  | fuel + 1, n, rest =>
    if n < base then n :: rest else digitsOnto base fuel (n / base) (n % base :: rest)

/-- The digits of `n` in `base`, the most significant first. -/
def digits (base n : Nat) : List Nat := digitsOnto base (n.log2 + 1) n []

/-- The number that digits stand for. -/
def value (base : Nat) (ds : List Nat) : Nat := ds.foldl (fun n d => n * base + d) 0

/-- The code point of a digit, in lower case above nine. -/
def glyph (d : Nat) : CodePoint :=
  if d < 10 then CodePoint.ofNat (48 + d) else CodePoint.ofNat (87 + d)

/-- The digits of `n` in `base` as text. -/
def text (base n : Nat) : Text := (digits base n).map glyph

/-- A natural number in decimal. -/
def ofNat (n : Nat) : Text := text 10 n

/-- An integer in decimal, with a minus sign below zero. -/
def ofInt : Int → Text
  | .ofNat n => ofNat n
  | .negSucc n => (↑ '-' : CodePoint) :: ofNat (n + 1)

/-- The hexadecimal digits of `n`, filled with zeros up to `width`. -/
def hex (width n : Nat) : Text := Text.padLeft '0' width (text 16 n)

private theorem foldl_digitsOnto (base fuel n : Nat) (hn : n < Nat.pow base fuel)
    (rest : List Nat) :
    value base (digitsOnto base fuel n rest) = rest.foldl (fun n d => n * base + d) n := by
  induction fuel generalizing n rest with
  | zero =>
    have : n = 0 := Nat.lt_one_iff.1 hn
    simp [digitsOnto, value, this]
  | succ fuel ih =>
    unfold digitsOnto
    split
    · simp [value]
    · have hlt : n / base < Nat.pow base fuel :=
        Nat.div_lt_of_lt_mul (Nat.mul_comm base _ ▸ hn)
      rw [ih _ hlt]
      simp [Nat.div_add_mod']

private theorem lt_pow_log2_succ (base n : Nat) (hb : 2 ≤ base) : n < Nat.pow base (n.log2 + 1) :=
  Nat.lt_of_lt_of_le Nat.lt_log2_self (Nat.pow_le_pow_left hb _)

theorem value_digits (base n : Nat) (hb : 2 ≤ base) : value base (digits base n) = n := by
  exact foldl_digitsOnto base (n.log2 + 1) n (lt_pow_log2_succ base n hb) []

private theorem length_digitsOnto (base fuel n : Nat) (rest : List Nat) :
    rest.length ≤ (digitsOnto base fuel n rest).length := by
  induction fuel generalizing n rest with
  | zero => simp [digitsOnto]
  | succ fuel ih =>
    unfold digitsOnto
    split
    · simp
    · exact Nat.le_trans (by simp) (ih _ _)

theorem length_digits_pos (base n : Nat) : 0 < (digits base n).length := by
  unfold digits digitsOnto
  split
  · simp
  · exact Nat.lt_of_lt_of_le (by simp) (length_digitsOnto base _ _ _)

private theorem lt_of_mem_digitsOnto {base : Nat} (hbase : 0 < base) (fuel n : Nat)
    {rest : List Nat} (hrest : ∀ d ∈ rest, d < base) :
    ∀ d ∈ digitsOnto base fuel n rest, d < base := by
  induction fuel generalizing n rest with
  | zero => exact hrest
  | succ fuel ih =>
    rw [digitsOnto]
    split
    · next hn =>
      intro d hd
      rcases List.mem_cons.1 hd with rfl | hd
      · exact hn
      · exact hrest d hd
    · refine ih _ fun d hd => ?_
      rcases List.mem_cons.1 hd with rfl | hd
      · exact Nat.mod_lt n hbase
      · exact hrest d hd

theorem lt_of_mem_digits {base n : Nat} (hbase : 0 < base) {d : Nat} (h : d ∈ digits base n) :
    d < base :=
  lt_of_mem_digitsOnto hbase _ _ (by simp) d h

theorem digit?_glyph {d : Nat} (h : d < 10) : (glyph d).digit? = some d := by
  have hlt : 48 + d < 0x110000 := by omega
  have hdigit : 48 + d ≤ 57 := by omega
  simp [glyph, h, CodePoint.ofNat, hlt, CodePoint.digit?, hdigit]

/-- Two numbers never have the same decimal text. -/
theorem ofNat_injective {a b : Nat} (h : ofNat a = ofNat b) : a = b := by
  have hread : ∀ n, (ofNat n).map CodePoint.digit? = (digits 10 n).map some := by
    intro n
    rw [ofNat, text, List.map_map]
    exact List.map_congr_left fun d hd => digit?_glyph (lt_of_mem_digits (by decide) hd)
  have hdigits : digits 10 a = digits 10 b := by
    refine (List.map_inj_right fun _ _ => Option.some.inj).1 ?_
    rw [← hread, ← hread, h]
  rw [← value_digits 10 a (by decide), hdigits, value_digits 10 b (by decide)]

theorem ofNat_ne_nil (n : Nat) : ofNat n ≠ [] := by
  intro h
  have hlength := length_digits_pos 10 n
  rw [ofNat, text, List.map_eq_nil_iff] at h
  rw [h] at hlength
  exact Nat.lt_irrefl 0 hlength

end Digits
end CrossClusterKeys
