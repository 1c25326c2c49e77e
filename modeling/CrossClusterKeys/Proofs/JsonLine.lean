import CrossClusterKeys.Json.Grammar
import CrossClusterKeys.Proofs.JsonText

/-!
# Documents on one line

A document that is written on one line is printable ASCII, whatever its texts hold: nothing in it
ends the line, and nothing in it moves the cursor.

**Numbers.**  A whole number is written by its digits, the first of which is zero for zero only, so
that it is the whole part of a number in the grammar.

**Results.**
* `Digits.length_ofNat_le`, `Digits.isWhole_ofNat`, `Digits.valueOf_ofNat`: the digits of a number
  in the grammar, how many there are, and the number they stand for.
* `Json.isPrintableAscii_write`: every document on one line is printable ASCII.
-/

namespace CrossClusterKeys
namespace Digits

section Decimal

theorem length_digitsOnto_le (base fuel n : Nat) (rest : List Nat) :
    (digitsOnto base fuel n rest).length ≤ fuel + rest.length := by
  induction fuel generalizing n rest with
  | zero => simp [digitsOnto]
  | succ fuel ih =>
    unfold digitsOnto
    split
    · simp only [List.length_cons]
      omega
    · have h := ih (n / base) (n % base :: rest)
      simp only [List.length_cons] at h
      omega

/-- A number below a power of ten has at most as many digits. -/
theorem length_ofNat_le {n k : Nat} (hk : 0 < k) (h : n < 10 ^ k) : (ofNat n).length ≤ k := by
  have hlog : n < 10 ^ (n.log2 + 1) :=
    Nat.lt_of_lt_of_le Nat.lt_log2_self (Nat.pow_le_pow_left (by omega) _)
  have hdigits : digits 10 n = digitsOnto 10 k n [] :=
    digitsOnto_of_lt (by omega) _ _ _ _ hlog h (by omega) hk
  rw [ofNat, text, List.length_map, hdigits]
  exact length_digitsOnto_le 10 k n []

theorem head?_digitsOnto {base fuel n : Nat} (hbase : 0 < base) (hn : 0 < n)
    (h : n < base ^ fuel) (rest : List Nat) :
    ∃ d, (digitsOnto base fuel n rest).head? = some d ∧ d ≠ 0 := by
  induction fuel generalizing n rest with
  | zero =>
    rw [Nat.pow_zero] at h
    omega
  | succ fuel ih =>
    unfold digitsOnto
    split
    · exact ⟨n, rfl, by omega⟩
    · next hlt =>
      refine ih (Nat.div_pos (by omega) hbase) ?_ _
      exact Nat.div_lt_of_lt_mul (by rw [Nat.pow_succ, Nat.mul_comm] at h; exact h)

theorem val_glyph {d : Nat} (h : d < 10) : (glyph d).val = 48 + d := by
  have hlt : 48 + d < 0x110000 := by omega
  simp [glyph, h, CodePoint.ofNat, hlt]

theorem isDigit_glyph {d : Nat} (h : d < 10) : (glyph d).isDigit = true := by
  have hval := val_glyph h
  simp only [CodePoint.isDigit, hval, Bool.and_eq_true, decide_eq_true_eq]
  omega

theorem isDigit_of_mem_ofNat {n : Nat} {c : CodePoint} (h : c ∈ ofNat n) : c.isDigit = true := by
  obtain ⟨d, hd, rfl⟩ := List.mem_map.1 h
  exact isDigit_glyph (lt_of_mem_digits (by omega) hd)

/-- A number is written as the whole part of a JSON number. -/
theorem isWhole_ofNat (n : Nat) : Json.IsWhole (ofNat n) := by
  rcases Nat.eq_zero_or_pos n with rfl | hn
  · exact Or.inl (by decide)
  refine Or.inr ⟨⟨ofNat_ne_nil n, fun _ hc => isDigit_of_mem_ofNat hc⟩, ?_⟩
  have hlog : n < 10 ^ (n.log2 + 1) :=
    Nat.lt_of_lt_of_le Nat.lt_log2_self (Nat.pow_le_pow_left (by omega) _)
  obtain ⟨d, hd, hne⟩ := head?_digitsOnto (by omega) hn hlog []
  have hmem : d ∈ digits 10 n := List.mem_of_mem_head? hd
  have hval := val_glyph (lt_of_mem_digits (by omega) hmem)
  rw [ofNat, text, List.head?_map, digits, hd, Option.map_some, ne_eq, Option.some.injEq]
  intro heq
  have hzero : (CodePoint.ofChar '0').val = 48 := by decide
  rw [← heq, hval] at hzero
  omega

/-- The digits of a number stand for it. -/
theorem valueOf_ofNat (n : Nat) : Decimal.valueOf (ofNat n) = n := by
  have hvals : (ofNat n).map (fun c => c.val - 48) = digits 10 n := by
    rw [ofNat, text, List.map_map]
    refine (List.map_congr_left fun d hd => ?_).trans (List.map_id _)
    have hval := val_glyph (lt_of_mem_digits (by omega) hd)
    simp only [Function.comp_apply, hval, id_eq]
    omega
  rw [Decimal.valueOf, hvals, value_digits 10 n (by omega)]

end Decimal

end Digits

namespace Text

/-- Nothing but blanks and visible signs of ASCII. -/
def IsPrintableAscii (t : Text) : Prop := ∀ c ∈ t, 32 ≤ c.val ∧ c.val ≤ 126

instance (t : Text) : Decidable t.IsPrintableAscii :=
  inferInstanceAs (Decidable (∀ c ∈ t, 32 ≤ c.val ∧ c.val ≤ 126))

namespace IsPrintableAscii

theorem append {s t : Text} (hs : s.IsPrintableAscii) (ht : t.IsPrintableAscii) :
    IsPrintableAscii (s ++ t) := by
  intro c hc
  exact (List.mem_append.1 hc).elim (hs c) (ht c)

theorem mono {s t : Text} (ht : t.IsPrintableAscii) (h : ∀ c ∈ s, c ∈ t) : s.IsPrintableAscii :=
  fun c hc => ht c (h c hc)

theorem replicate {c : CodePoint} (hc : 32 ≤ c.val ∧ c.val ≤ 126) (n : Nat) :
    IsPrintableAscii (List.replicate n c) := by
  intro d hd
  rw [(List.mem_replicate.1 hd).2]
  exact hc

theorem padLeft {c : CodePoint} (hc : 32 ≤ c.val ∧ c.val ≤ 126) {t : Text}
    (ht : t.IsPrintableAscii) (n : Nat) : (Text.padLeft c n t).IsPrintableAscii :=
  (replicate hc _).append ht

theorem padRight {c : CodePoint} (hc : 32 ≤ c.val ∧ c.val ≤ 126) {t : Text}
    (ht : t.IsPrintableAscii) (n : Nat) : (Text.padRight c n t).IsPrintableAscii :=
  ht.append (replicate hc _)

theorem ofNat (n : Nat) : (Digits.ofNat n).IsPrintableAscii := by
  intro c hc
  have h := Digits.isDigit_of_mem_ofNat hc
  simp only [CodePoint.isDigit, Bool.and_eq_true, decide_eq_true_eq] at h
  omega

theorem ofInt (n : Int) : (Digits.ofInt n).IsPrintableAscii := by
  cases n with
  | ofNat n => exact ofNat n
  | negSucc n => exact IsPrintableAscii.append (s := [CodePoint.ofChar '-']) (by decide) (ofNat _)

theorem hex (width n : Nat) : (Digits.hex width n).IsPrintableAscii := by
  refine padLeft (by decide) (fun c hc => ?_) width
  obtain ⟨d, hd, rfl⟩ := List.mem_map.1 hc
  have hlt : d < 16 := Digits.lt_of_mem_digits (by omega) hd
  interval_cases d <;> decide

end IsPrintableAscii

end Text

namespace Decimal

open Text (IsPrintableAscii)

theorem isPrintableAscii_exponentText (width : Nat) (e : Int) :
    (exponentText width e).IsPrintableAscii := by
  refine .append ?_ (.padLeft (by decide) (.ofNat _) _)
  split <;> decide

theorem isPrintableAscii_pointed {ds : Text} (h : ds.IsPrintableAscii) (before : Int) :
    (pointed ds before).IsPrintableAscii := by
  unfold pointed
  split
  · exact .append (.append (by decide) (.replicate (by decide) _)) h
  · simp only
    split
    · exact .append (.padRight (by decide) h _) (by decide)
    · exact .append (.append (h.mono fun _ => List.mem_of_mem_take) (by decide))
        (h.mono fun _ => List.mem_of_mem_drop)

theorem isPrintableAscii_fraction {ds : Text} (h : ds.IsPrintableAscii) :
    (fraction ds).IsPrintableAscii := by
  unfold fraction
  split
  · decide
  · exact .append (by decide) h

theorem isPrintableAscii_layOut (style : Style) (s : Scaled) :
    (layOut style s).IsPrintableAscii := by
  have hds := IsPrintableAscii.ofNat s.digits
  unfold layOut
  simp only
  split
  · decide
  · split
    · exact isPrintableAscii_pointed hds _
    · refine .append (.append (.append ?_ ?_) (by decide)) (isPrintableAscii_exponentText _ _)
      · exact hds.mono fun _ => List.mem_of_mem_take
      · exact isPrintableAscii_fraction (hds.mono fun _ => List.mem_of_mem_drop)

theorem isPrintableAscii_signed (negative : Bool) {t : Text} (h : t.IsPrintableAscii) :
    (signed negative t).IsPrintableAscii := by
  unfold signed
  split
  · exact .append (by decide) h
  · exact h

theorem isPrintableAscii_text (x : Binary64) : (text written x).IsPrintableAscii := by
  cases x with
  | nan => decide
  | infinite negative => exact isPrintableAscii_signed negative (by decide)
  | finite negative m e => exact isPrintableAscii_signed negative (isPrintableAscii_layOut _ _)

end Decimal

namespace Json

section Lines

open Text (IsPrintableAscii)

theorem isPrintableAscii_unit (n : Nat) : (unit n).IsPrintableAscii :=
  .append (by decide) (.hex 4 n)

theorem isPrintableAscii_escape (c : CodePoint) : (escape c).IsPrintableAscii := by
  unfold escape
  by_cases h : (32 ≤ c.val && c.val ≤ 126) = true
  · simp only [h, if_true]
    split
    · decide
    · split
      · decide
      · intro d hd
        rw [List.mem_singleton.1 hd]
        simpa only [Bool.and_eq_true, decide_eq_true_eq] using h
  · have hunits := isPrintableAscii_unit
    simp only [if_neg h]
    repeat' split
    all_goals first | decide | exact hunits _ | exact .append (hunits _) (hunits _)

theorem isPrintableAscii_quoted (t : Text) : (quoted t).IsPrintableAscii := by
  refine .append (.append (by decide) fun c hc => ?_) (by decide)
  obtain ⟨d, -, hc⟩ := List.mem_flatMap.1 hc
  exact isPrintableAscii_escape d c hc

theorem isPrintableAscii_truth (b : Bool) : (truth b).IsPrintableAscii := by
  cases b <;> decide

variable {l : Layout}

mutual

/-- A document that is written on one line has neither line breaks nor other signs that a line
could be torn by. -/
theorem isPrintableAscii_write (hitem : l.item.IsPrintableAscii) (hkey : l.key.IsPrintableAscii) :
    ∀ j : Json, (write l j).IsPrintableAscii
  | .null => by
    rw [write]
    decide
  | .bool b => by
    rw [write]
    exact isPrintableAscii_truth b
  | .int n => by
    rw [write]
    exact .ofInt n
  | .real x => by
    rw [write]
    exact Decimal.isPrintableAscii_text x
  | .text t => by
    rw [write]
    exact isPrintableAscii_quoted t
  | .list [] => by
    rw [write, writeItems]
    decide
  | .list (j :: js) => by
    rw [write, writeItems]
    exact .append (.append (by decide) (.append (isPrintableAscii_write hitem hkey j)
      (isPrintableAscii_writeMoreItems hitem hkey js))) (by decide)
  | .object [] => by
    rw [write, writeMembers]
    decide
  | .object ((k, j) :: ms) => by
    rw [write, writeMembers]
    exact .append (.append (by decide) (.append (.append (.append (isPrintableAscii_quoted k) hkey)
      (isPrintableAscii_write hitem hkey j)) (isPrintableAscii_writeMoreMembers hitem hkey ms)))
      (by decide)

theorem isPrintableAscii_writeMoreItems (hitem : l.item.IsPrintableAscii)
    (hkey : l.key.IsPrintableAscii) : ∀ js : List Json, (writeMoreItems l js).IsPrintableAscii
  | [] => by
    rw [writeMoreItems]
    decide
  | j :: js => by
    rw [writeMoreItems]
    exact .append (.append hitem (isPrintableAscii_write hitem hkey j))
      (isPrintableAscii_writeMoreItems hitem hkey js)

theorem isPrintableAscii_writeMoreMembers (hitem : l.item.IsPrintableAscii)
    (hkey : l.key.IsPrintableAscii) :
    ∀ ms : List (Text × Json), (writeMoreMembers l ms).IsPrintableAscii
  | [] => by
    rw [writeMoreMembers]
    decide
  | (k, j) :: ms => by
    rw [writeMoreMembers]
    exact .append (.append (.append (.append hitem (isPrintableAscii_quoted k)) hkey)
      (isPrintableAscii_write hitem hkey j)) (isPrintableAscii_writeMoreMembers hitem hkey ms)

end

end Lines

end Json
end CrossClusterKeys
