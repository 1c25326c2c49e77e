import CrossClusterKeys.Json.Reader
import Mathlib.Tactic.SplitIfs
import Mathlib.Tactic.IntervalCases

/-!
# Quoted texts read back

A text is written between quotes in printable ASCII.  A code point above `U+FFFF` takes two
numbered units, and two numbered units that make a pair are joined again.  So a text reads back
exactly if no high surrogate stands directly before a low one in it; of any other text the pairs
are joined.

**Algorithm.**  `signsOf` is the list of signs that the form of a code point is read as, and `sign`
is what remains of it once pairs are joined.

**Results.**
* `hex_four`: a UTF-16 unit has exactly four digits.
* `readSigns_escape`: the form of a code point is read as its signs.
* `foldr_pair`: joining turns the signs of a text into one sign for each code point.
* `readText_quoted`: what was written of a text is read as its `readBack`, whatever follows it.
* `Text.readBack_of_isUnpaired`: that is the text itself if it is unpaired.
-/

namespace CrossClusterKeys
namespace Text

/-- Whether no high surrogate stands directly before a low one. -/
def isUnpaired : Text → Bool
  | [] => true
  | [_] => true
  | c :: d :: t => !(c.isHighSurrogate && d.isLowSurrogate) && isUnpaired (d :: t)

theorem isUnpaired_of_isWellFormed {t : Text} (h : t.isWellFormed = true) :
    t.isUnpaired = true := by
  fun_induction isUnpaired t with
  | case1 => rfl
  | case2 => rfl
  | case3 c d t ih =>
    simp only [isWellFormed, List.all_cons, Bool.and_eq_true, Bool.not_eq_true'] at h
    have hc : c.isHighSurrogate = false := by
      have hs := h.1
      simp only [CodePoint.isSurrogate, CodePoint.isHighSurrogate, Bool.and_eq_false_iff,
        decide_eq_false_iff_not] at hs ⊢
      omega
    have htail : isWellFormed (d :: t) = true := by
      simp only [isWellFormed, List.all_cons, Bool.and_eq_true, Bool.not_eq_true']
      exact h.2
    simp only [hc, Bool.false_and, Bool.not_false, Bool.true_and]
    exact ih htail

theorem isUnpaired_of_cons {c : CodePoint} {t : Text} (h : isUnpaired (c :: t) = true) :
    t.isUnpaired = true := by
  cases t with
  | nil => rfl
  | cons d t =>
    simp only [isUnpaired, Bool.and_eq_true] at h
    exact h.2

end Text

namespace Digits

/-- Fuel beyond the number of digits changes nothing. -/
theorem digitsOnto_of_lt {base : Nat} (hbase : 0 < base) (fuel fuel' n : Nat) (rest : List Nat)
    (h : n < base ^ fuel) (h' : n < base ^ fuel') (hpos : 0 < fuel) (hpos' : 0 < fuel') :
    digitsOnto base fuel n rest = digitsOnto base fuel' n rest := by
  induction fuel generalizing fuel' n rest with
  | zero => omega
  | succ fuel ih =>
    cases fuel' with
    | zero => omega
    | succ fuel' =>
      unfold digitsOnto
      split
      · rfl
      · next hn =>
        have hlt : n / base < base ^ fuel :=
          Nat.div_lt_of_lt_mul (by rw [Nat.pow_succ, Nat.mul_comm] at h; exact h)
        have hlt' : n / base < base ^ fuel' :=
          Nat.div_lt_of_lt_mul (by rw [Nat.pow_succ, Nat.mul_comm] at h'; exact h')
        have hone : 0 < n / base := Nat.div_pos (by omega) hbase
        refine ih fuel' _ _ hlt hlt' ?_ ?_
        · refine Nat.pos_of_ne_zero fun hz => ?_
          rw [hz, Nat.pow_zero] at hlt
          omega
        · refine Nat.pos_of_ne_zero fun hz => ?_
          rw [hz, Nat.pow_zero] at hlt'
          omega

/-- A UTF-16 unit has exactly four hexadecimal digits. -/
theorem hex_four {n : Nat} (h : n < 0x10000) :
    hex 4 n = [glyph (n / 4096), glyph (n / 256 % 16), glyph (n / 16 % 16), glyph (n % 16)] := by
  have hlog : n < 16 ^ (n.log2 + 1) :=
    Nat.lt_of_lt_of_le Nat.lt_log2_self (Nat.pow_le_pow_left (by omega) _)
  have hdigits : digits 16 n = digitsOnto 16 4 n [] :=
    digitsOnto_of_lt (by omega) _ _ _ _ hlog (by omega) (by omega) (by omega)
  have hzero : (CodePoint.ofChar '0') = glyph 0 := by decide
  unfold hex text Text.padLeft
  rw [hdigits, hzero]
  by_cases h1 : n < 16
  · have e1 : n / 4096 = 0 := by omega
    have e2 : n / 256 % 16 = 0 := by omega
    have e3 : n / 16 % 16 = 0 := by omega
    have e4 : n % 16 = n := by omega
    simp [digitsOnto, h1, e1, e2, e3, e4, List.replicate]
  · by_cases h2 : n < 256
    · have e1 : n / 4096 = 0 := by omega
      have e2 : n / 256 % 16 = 0 := by omega
      have e3 : n / 16 % 16 = n / 16 := by omega
      have e4 : n / 16 < 16 := by omega
      simp [digitsOnto, h1, e1, e2, e3, e4, List.replicate]
    · have e4 : ¬ n / 16 < 16 := by omega
      by_cases h3 : n < 4096
      · have e1 : n / 4096 = 0 := by omega
        have e2 : n / 16 / 16 = n / 256 := by omega
        have e3 : n / 256 % 16 = n / 256 := by omega
        have e5 : n / 256 < 16 := by omega
        simp [digitsOnto, h1, e1, e2, e3, e4, e5]
      · have e2 : n / 16 / 16 = n / 256 := by omega
        have e5 : ¬ n / 256 < 16 := by omega
        have e6 : n / 256 / 16 = n / 4096 := by omega
        have e7 : n / 4096 < 16 := by omega
        simp [digitsOnto, h1, e2, e4, e5, e6, e7]

/-- The digits of a base up to sixteen are read back. -/
theorem hexDigit?_glyph {d : Nat} (h : d < 16) : (glyph d).hexDigit? = some d := by
  interval_cases d <;> decide

end Digits

namespace Json

section Signs

/-- Whether the form of a code point is not by its number. -/
def isShort (c : CodePoint) : Bool :=
  c = '"' || c = '\\' || (32 ≤ c.val && c.val ≤ 126) || c = '\n' || c = '\r' || c = '\t' ||
    c.val = 8 || c.val = 12

/-- The sign of a code point once pairs are joined. -/
def sign (c : CodePoint) : Sign := ⟨c, !isShort c && c.val < 0x10000⟩

/-- The signs that the form of a code point is read as. -/
def signsOf (c : CodePoint) : List Sign :=
  if c.val < 0x10000 then [sign c]
  else [⟨.ofNat (0xD800 + (c.val - 0x10000) / 1024), true⟩,
    ⟨.ofNat (0xDC00 + (c.val - 0x10000) % 1024), true⟩]

/-- A numbered unit is read as one sign. -/
theorem readSigns_unit {n : Nat} (hn : n < 0x10000) {rest : Text} (hrest : rest ≠ []) :
    readSigns (unit n ++ rest) =
      (readSigns rest).map fun p => (⟨.ofNat n, true⟩ :: p.1, p.2) := by
  have hstart : (Text.ofString "\\u") = [CodePoint.ofChar '\\', CodePoint.ofChar 'u'] := by decide
  have hquote : ¬ CodePoint.ofChar '\\' = CodePoint.ofChar '"' := by decide
  have hvalue : unitOf? (Digits.glyph (n / 4096)) (Digits.glyph (n / 256 % 16))
      (Digits.glyph (n / 16 % 16)) (Digits.glyph (n % 16)) = some n := by
    have h1 : n / 4096 < 16 := by omega
    have h2 : n / 256 % 16 < 16 := by omega
    have h3 : n / 16 % 16 < 16 := by omega
    have h4 : n % 16 < 16 := by omega
    simp only [unitOf?, Digits.hexDigit?_glyph h1, Digits.hexDigit?_glyph h2,
      Digits.hexDigit?_glyph h3, Digits.hexDigit?_glyph h4, Option.bind_eq_bind, Option.bind_some,
      Option.pure_def, Option.some.injEq]
    omega
  have hempty : rest.isEmpty = false := by
    cases rest with
    | nil => exact absurd rfl hrest
    | cons => rfl
  unfold unit
  rw [hstart, Digits.hex_four hn]
  simp only [List.cons_append, List.nil_append]
  rw [readSigns, if_neg hquote, if_pos rfl]
  simp only [if_true, hempty, hvalue]

/-- An escape by a letter is read as one sign. -/
theorem readSigns_letter {e d : CodePoint} (he : e ≠ 'u') (hd : unescape? e = some d)
    (rest : Text) :
    readSigns (CodePoint.ofChar '\\' :: e :: rest) =
      (readSigns rest).map fun p => (⟨d, false⟩ :: p.1, p.2) := by
  have hquote : ¬ CodePoint.ofChar '\\' = CodePoint.ofChar '"' := by decide
  rw [readSigns.eq_def]
  simp only [if_neg hquote, if_true, if_neg he, hd]

theorem signsOf_of_isShort {c : CodePoint} (h : isShort c = true) : signsOf c = [⟨c, false⟩] := by
  have hlt : c.val < 0x10000 := by
    simp only [isShort, Bool.or_eq_true, Bool.and_eq_true, decide_eq_true_eq] at h
    rcases h with ((((((rfl | rfl) | h) | rfl) | rfl) | rfl) | h) | h
    all_goals first | decide | omega
  simp [signsOf, hlt, sign, h]

/-- The form of a code point is read as its signs. -/
theorem readSigns_escape (c : CodePoint) {rest : Text} (hrest : rest ≠ []) :
    readSigns (escape c ++ rest) =
      (readSigns rest).map fun p => (signsOf c ++ p.1, p.2) := by
  have letter : ∀ (form : Text) (e : CodePoint), form = [CodePoint.ofChar '\\', e] → e ≠ 'u' →
      unescape? e = some c → isShort c = true →
      readSigns (form ++ rest) = (readSigns rest).map fun p => (signsOf c ++ p.1, p.2) := by
    intro form e hform he hc hshort
    rw [hform, signsOf_of_isShort hshort]
    exact readSigns_letter he hc rest
  unfold escape
  by_cases h1 : c = '"'
  · subst h1
    rw [if_pos rfl]
    exact letter _ '"' (by decide) (by decide) (by decide) (by decide)
  by_cases h2 : c = '\\'
  · subst h2
    rw [if_neg h1, if_pos rfl]
    exact letter _ '\\' (by decide) (by decide) (by decide) (by decide)
  by_cases h3 : (32 ≤ c.val && c.val ≤ 126) = true
  · have hshort : isShort c = true := by simp only [isShort, h3, Bool.or_true, Bool.true_or]
    have hlow : ¬ c.val < 32 := by
      simp only [Bool.and_eq_true, decide_eq_true_eq] at h3
      omega
    rw [if_neg h1, if_neg h2, if_pos h3, signsOf_of_isShort hshort, readSigns.eq_def]
    simp only [List.cons_append, List.nil_append, if_neg h1, if_neg h2, if_neg hlow]
  by_cases h4 : c = '\n'
  · subst h4
    rw [if_neg h1, if_neg h2, if_neg h3, if_pos rfl]
    exact letter _ 'n' (by decide) (by decide) (by decide) (by decide)
  by_cases h5 : c = '\r'
  · subst h5
    rw [if_neg h1, if_neg h2, if_neg h3, if_neg h4, if_pos rfl]
    exact letter _ 'r' (by decide) (by decide) (by decide) (by decide)
  by_cases h6 : c = '\t'
  · subst h6
    rw [if_neg h1, if_neg h2, if_neg h3, if_neg h4, if_neg h5, if_pos rfl]
    exact letter _ 't' (by decide) (by decide) (by decide) (by decide)
  rw [if_neg h1, if_neg h2, if_neg h3, if_neg h4, if_neg h5, if_neg h6]
  by_cases h7 : c.val = 8
  · obtain rfl : c = .ofNat 8 := CodePoint.ext h7
    rw [if_pos h7]
    exact letter _ 'b' (by decide) (by decide) (by decide) (by decide)
  by_cases h8 : c.val = 12
  · obtain rfl : c = .ofNat 12 := CodePoint.ext h8
    rw [if_neg h7, if_pos h8]
    exact letter _ 'f' (by decide) (by decide) (by decide) (by decide)
  have hshort : isShort c = false := by
    simp only [Bool.not_eq_true] at h3
    simp only [isShort, h1, h2, h3, h4, h5, h6, h7, h8, decide_false, Bool.or_self]
  rw [if_neg h7, if_neg h8]
  by_cases h9 : c.val < 0x10000
  · have hc : CodePoint.ofNat c.val = c := by simp [CodePoint.ofNat, c.isLt]
    rw [if_pos h9, readSigns_unit h9 hrest]
    simp [signsOf, sign, h9, hshort, hc]
  · have hlt := c.isLt
    have hunit : unit (0xDC00 + (c.val - 0x10000) % 1024) ++ rest ≠ [] :=
      List.append_ne_nil_of_right_ne_nil _ hrest
    rw [if_neg h9, List.append_assoc, readSigns_unit (by omega) hunit,
      readSigns_unit (by omega) hrest]
    cases readSigns rest with
    | error e => rfl
    | ok p => simp [Except.map, signsOf, h9]

theorem readSigns_flatMap (t rest : Text) :
    readSigns (t.flatMap escape ++ CodePoint.ofChar '"' :: rest) =
      .ok (t.flatMap signsOf, rest) := by
  induction t with
  | nil =>
    rw [List.flatMap_nil, List.nil_append, readSigns.eq_def]
    rfl
  | cons c t ih =>
    have hrest : t.flatMap escape ++ CodePoint.ofChar '"' :: rest ≠ [] :=
      List.append_ne_nil_of_right_ne_nil _ (List.cons_ne_nil _ _)
    rw [List.flatMap_cons, List.append_assoc, readSigns_escape c hrest, ih]
    rfl

end Signs

section Pairs

/-- Only two numbered surrogates that make a pair are joined. -/
theorem pair_cons_of_not {s r : Sign} {rs : List Sign}
    (h : (s.point.isHighSurrogate && r.point.isLowSurrogate) = false) :
    pair s (r :: rs) = s :: r :: rs := by
  have hcond : ¬ (s.numbered && r.numbered && s.point.isHighSurrogate &&
      r.point.isLowSurrogate) = true := by
    rw [Bool.and_assoc, h, Bool.and_false]
    exact Bool.false_ne_true
  rw [pair, if_neg hcond]

/-- The two units of a code point above `U+FFFF` are joined to it. -/
theorem pair_units {c : CodePoint} (h : 0x10000 ≤ c.val) (rs : List Sign) :
    pair ⟨.ofNat (0xD800 + (c.val - 0x10000) / 1024), true⟩
      (pair ⟨.ofNat (0xDC00 + (c.val - 0x10000) % 1024), true⟩ rs) = sign c :: rs := by
  have hlt := c.isLt
  have hhigh : (CodePoint.ofNat (0xD800 + (c.val - 0x10000) / 1024)).val =
      0xD800 + (c.val - 0x10000) / 1024 := by
    rw [CodePoint.ofNat, dif_pos (by omega)]
  have hlow : (CodePoint.ofNat (0xDC00 + (c.val - 0x10000) % 1024)).val =
      0xDC00 + (c.val - 0x10000) % 1024 := by
    rw [CodePoint.ofNat, dif_pos (by omega)]
  have hinner : pair ⟨.ofNat (0xDC00 + (c.val - 0x10000) % 1024), true⟩ rs =
      ⟨.ofNat (0xDC00 + (c.val - 0x10000) % 1024), true⟩ :: rs := by
    cases rs with
    | nil => rfl
    | cons r rs =>
      refine pair_cons_of_not ?_
      simp only [CodePoint.isHighSurrogate, hlow, Bool.and_eq_false_iff, decide_eq_false_iff_not]
      omega
  have hpair : (CodePoint.ofNat (0xD800 + (c.val - 0x10000) / 1024)).isHighSurrogate = true ∧
      (CodePoint.ofNat (0xDC00 + (c.val - 0x10000) % 1024)).isLowSurrogate = true := by
    simp only [CodePoint.isHighSurrogate, CodePoint.isLowSurrogate, hhigh, hlow,
      Bool.and_eq_true, decide_eq_true_eq]
    omega
  have hjoined : joined (0xD800 + (c.val - 0x10000) / 1024)
      (0xDC00 + (c.val - 0x10000) % 1024) = c := by
    refine CodePoint.ext ?_
    rw [joined, CodePoint.ofNat, dif_pos (by omega)]
    simp only
    omega
  have hsign : sign c = ⟨c, false⟩ := by
    have hbig : ¬ c.val < 0x10000 := by omega
    simp only [sign, hbig, decide_false, Bool.and_false]
  rw [hinner, pair, if_pos (by rw [hpair.1, hpair.2]; rfl), hhigh, hlow, hjoined, hsign]

/-- Joining turns the signs of a text into one sign for each code point. -/
theorem foldr_pair {t : Text} (h : t.isUnpaired = true) :
    (t.flatMap signsOf).foldr pair [] = t.map sign := by
  induction t with
  | nil => rfl
  | cons c t ih =>
    rw [List.flatMap_cons, List.foldr_append, ih (Text.isUnpaired_of_cons h), signsOf]
    split
    · cases t with
      | nil => rfl
      | cons d t =>
        simp only [Text.isUnpaired, Bool.and_eq_true, Bool.not_eq_true'] at h
        exact pair_cons_of_not h.1
    · next hc => exact pair_units (by omega) _

end Pairs

end Json

namespace Text

/-- What a text is read as once it was written between quotes. -/
def readBack (t : Text) : Text :=
  ((t.flatMap Json.signsOf).foldr Json.pair []).map Json.Sign.point

/-- A text without pairs of surrogates is read as itself. -/
theorem readBack_of_isUnpaired {t : Text} (h : t.isUnpaired = true) : t.readBack = t := by
  rw [readBack, Json.foldr_pair h]
  simp [Function.comp_def, Json.sign]

end Text

namespace Json

theorem quoted_append (t rest : Text) :
    quoted t ++ rest =
      CodePoint.ofChar '"' :: (t.flatMap escape ++ CodePoint.ofChar '"' :: rest) := by
  have hquote : (Text.ofString "\"") = [CodePoint.ofChar '"'] := by decide
  simp only [quoted, hquote, List.append_assoc, List.cons_append, List.nil_append]

/-- What was written of a text is read as its code points with the pairs joined, whatever follows
it. -/
theorem readText_quoted (t rest : Text) :
    readText (t.flatMap escape ++ CodePoint.ofChar '"' :: rest) = .ok (t.readBack, rest) := by
  rw [readText, readSigns_flatMap]
  rfl

end Json
end CrossClusterKeys
