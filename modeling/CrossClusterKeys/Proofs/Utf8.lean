import CrossClusterKeys.Text.Utf8
import Mathlib.Tactic.SplitIfs

/-!
# UTF-8 loses nothing

Bytes that are read and written again are the same bytes, whether or not they are UTF-8.  A text
without surrogates that is written and read again is the same text.

**Invariant.**  A sequence that is recognised stands for exactly one code point, is that code
point's only form, and its code point is no surrogate.  A byte that belongs to no sequence is at
least `0x80`, so the surrogate that it is read as is written as that byte.

**Results.**
* `encode_decode`: reading loses no byte.
* `decode_encode`: writing loses no code point of a text without surrogates.
* `read_eq_ok_iff`: strict reading succeeds exactly on the bytes of texts without surrogates.
-/

namespace CrossClusterKeys
namespace Utf8

section Sequences

theorem payload?_eq_some {b : UInt8} {x : Nat} (h : payload? b = some x) :
    x < 64 ∧ b.toNat = 0x80 + x := by
  unfold payload? at h
  split at h
  · next hb =>
    simp only [Bool.and_eq_true, decide_eq_true_eq] at hb
    simp only [Option.some.injEq] at h
    omega
  · cases h

theorem toNat_continuation (n : Nat) : (continuation n).toNat = 0x80 + n % 64 := by
  unfold continuation
  rw [UInt8.toNat_ofNat']
  omega

theorem payload?_continuation (n : Nat) : payload? (continuation n) = some (n % 64) := by
  unfold payload?
  rw [toNat_continuation]
  have h : 0x80 ≤ 0x80 + n % 64 ∧ 0x80 + n % 64 < 0xC0 := by omega
  simp only [h, decide_true, Bool.and_self, if_true, Option.some.injEq]
  omega

theorem ofNat_eq {n : Nat} {b : UInt8} (h : b.toNat = n) : UInt8.ofNat n = b := by
  rw [← h]
  exact UInt8.ofNat_toNat

theorem continuation_eq {n x : Nat} {b : UInt8} (hb : b.toNat = 0x80 + x) (h : n % 64 = x) :
    continuation n = b := by
  unfold continuation
  exact ofNat_eq (by omega)

/-- A code point that is no surrogate. -/
def IsScalar (n : Nat) : Prop := n < 0xD800 ∨ (0xE000 ≤ n ∧ n < 0x110000)

theorem val_ofNat {n : Nat} (h : IsScalar n) : (CodePoint.ofNat n).val = n := by
  have hn : n < 0x110000 := by unfold IsScalar at h; omega
  simp [CodePoint.ofNat, hn]

theorem isSurrogate_ofNat {n : Nat} (h : IsScalar n) :
    (CodePoint.ofNat n).isSurrogate = false := by
  unfold CodePoint.isSurrogate
  rw [val_ofNat h]
  unfold IsScalar at h
  simp only [Bool.and_eq_false_iff, decide_eq_false_iff_not]
  omega

/-- A recognised sequence is the form of the code point that it stands for. -/
theorem sequence?_eq_some {lead : UInt8} {rest : List UInt8} {n size : Nat}
    (h : sequence? lead rest = some (n, size)) :
    IsScalar n ∧ size ≤ rest.length ∧
      bytesOf (CodePoint.ofNat n) = lead :: rest.take size := by
  have key : IsScalar n → size ≤ rest.length →
      (∀ c : CodePoint, c.val = n → bytesOf c = lead :: rest.take size) →
      IsScalar n ∧ size ≤ rest.length ∧
        bytesOf (CodePoint.ofNat n) = lead :: rest.take size :=
    fun hn hsize hbytes => ⟨hn, hsize, hbytes _ (val_ofNat hn)⟩
  unfold sequence? at h
  simp only at h
  split_ifs at h with h1 h2 h3 h4 h5
  · simp only [Option.some.injEq, Prod.mk.injEq] at h
    obtain ⟨rfl, rfl⟩ := h
    refine key (by unfold IsScalar; omega) (Nat.zero_le _) fun c hc => ?_
    simp only [bytesOf, hc, if_pos h1, List.take_zero, List.cons.injEq, and_true]
    exact ofNat_eq rfl
  · cases rest with
    | nil => cases h
    | cons b rest =>
      simp only [Option.bind_eq_bind, Option.pure_def, Option.bind_eq_some_iff, Option.some.injEq,
        Prod.mk.injEq] at h
      obtain ⟨x, hx, rfl, rfl⟩ := h
      obtain ⟨hx1, hx2⟩ := payload?_eq_some hx
      refine key (by unfold IsScalar; omega) (by simp) fun c hc => ?_
      have hlow : ¬ c.val < 0x80 := by omega
      have hhigh : c.val < 0x800 := by omega
      simp only [bytesOf, if_neg hlow, if_pos hhigh, List.take_succ_cons, List.take_zero,
        List.cons.injEq, and_true]
      exact ⟨ofNat_eq (by omega), continuation_eq hx2 (by omega)⟩
  · match rest, h with
    | b :: c :: rest, h =>
      simp only [Option.bind_eq_bind, Option.pure_def, Option.bind_eq_some_iff] at h
      obtain ⟨x, hx, y, hy, h⟩ := h
      obtain ⟨hx1, hx2⟩ := payload?_eq_some hx
      obtain ⟨hy1, hy2⟩ := payload?_eq_some hy
      split_ifs at h with hbad
      simp only [Bool.or_eq_true, Bool.and_eq_true, decide_eq_true_eq] at hbad
      simp only [Option.some.injEq, Prod.mk.injEq] at h
      obtain ⟨rfl, rfl⟩ := h
      refine key (by unfold IsScalar; omega) (by simp) fun p hp => ?_
      have hlow : ¬ p.val < 0x80 := by omega
      have hmid : ¬ p.val < 0x800 := by omega
      have hhigh : p.val < 0x10000 := by omega
      simp only [bytesOf, if_neg hlow, if_neg hmid, if_pos hhigh, List.take_succ_cons,
        List.take_zero, List.cons.injEq, and_true]
      exact ⟨ofNat_eq (by omega), continuation_eq hx2 (by omega), continuation_eq hy2 (by omega)⟩
  · match rest, h with
    | b :: c :: d :: rest, h =>
      simp only [Option.bind_eq_bind, Option.pure_def, Option.bind_eq_some_iff] at h
      obtain ⟨x, hx, y, hy, z, hz, h⟩ := h
      obtain ⟨hx1, hx2⟩ := payload?_eq_some hx
      obtain ⟨hy1, hy2⟩ := payload?_eq_some hy
      obtain ⟨hz1, hz2⟩ := payload?_eq_some hz
      split_ifs at h with hbad
      simp only [Bool.or_eq_true, decide_eq_true_eq] at hbad
      simp only [Option.some.injEq, Prod.mk.injEq] at h
      obtain ⟨rfl, rfl⟩ := h
      refine key (by unfold IsScalar; omega) (by simp) fun p hp => ?_
      have hlow : ¬ p.val < 0x80 := by omega
      have hmid : ¬ p.val < 0x800 := by omega
      have hhigh : ¬ p.val < 0x10000 := by omega
      simp only [bytesOf, if_neg hlow, if_neg hmid, if_neg hhigh, List.take_succ_cons,
        List.take_zero, List.cons.injEq, and_true]
      exact ⟨ofNat_eq (by omega), continuation_eq hx2 (by omega), continuation_eq hy2 (by omega),
        continuation_eq hz2 (by omega)⟩

/-- The form of a code point that is no surrogate is recognised, whatever follows it. -/
theorem sequence?_bytesOf (c : CodePoint) (h : c.isSurrogate = false) :
    ∃ lead more, bytesOf c = lead :: more ∧
      ∀ rest, sequence? lead (more ++ rest) = some (c.val, more.length) := by
  have hlt := c.isLt
  have hs : ¬ (0xD800 ≤ c.val ∧ c.val < 0xE000) := by
    intro hc
    simp [CodePoint.isSurrogate, hc] at h
  unfold bytesOf
  simp only
  split_ifs with h1 h2 h3
  · refine ⟨_, _, rfl, fun rest => ?_⟩
    have hn : (UInt8.ofNat c.val).toNat = c.val := by rw [UInt8.toNat_ofNat']; omega
    simp [sequence?, hn, h1]
  · refine ⟨_, _, rfl, fun rest => ?_⟩
    have hn : (UInt8.ofNat (0xC0 + c.val / 64)).toNat = 0xC0 + c.val / 64 := by
      rw [UInt8.toNat_ofNat']; omega
    simp only [sequence?, hn, List.cons_append, List.nil_append, payload?_continuation]
    rw [if_neg (by omega), if_neg (by omega), if_pos (by omega)]
    simp only [Option.bind_eq_bind, Option.bind_some, Option.pure_def, Option.some.injEq,
      Prod.mk.injEq, List.length_cons, List.length_nil, and_true]
    omega
  · refine ⟨_, _, rfl, fun rest => ?_⟩
    have hn : (UInt8.ofNat (0xE0 + c.val / 4096)).toNat = 0xE0 + c.val / 4096 := by
      rw [UInt8.toNat_ofNat']; omega
    have hv : (0xE0 + c.val / 4096 - 0xE0) * 4096 + c.val / 64 % 64 * 64 + c.val % 64 = c.val := by
      omega
    simp only [sequence?, hn, List.cons_append, List.nil_append, payload?_continuation]
    rw [if_neg (by omega), if_neg (by omega), if_neg (by omega), if_pos (by omega)]
    simp only [Option.bind_eq_bind, Option.bind_some, hv]
    rw [if_neg (by simp only [Bool.or_eq_true, Bool.and_eq_true, decide_eq_true_eq]; omega)]
    rfl
  · refine ⟨_, _, rfl, fun rest => ?_⟩
    have hn : (UInt8.ofNat (0xF0 + c.val / 262144)).toNat = 0xF0 + c.val / 262144 := by
      rw [UInt8.toNat_ofNat']; omega
    have hv : (0xF0 + c.val / 262144 - 0xF0) * 262144 + c.val / 4096 % 64 * 4096 +
        c.val / 64 % 64 * 64 + c.val % 64 = c.val := by
      omega
    simp only [sequence?, hn, List.cons_append, List.nil_append, payload?_continuation]
    rw [if_neg (by omega), if_neg (by omega), if_neg (by omega), if_neg (by omega),
      if_pos (by omega)]
    -- by rewriting: unfolding the binds would make the kernel evaluate the bounds
    rw [Option.bind_eq_bind, Option.bind_some, Option.bind_some, Option.bind_some]
    simp only [hv]
    rw [if_neg (by simp only [Bool.or_eq_true, decide_eq_true_eq]; omega)]
    rfl

end Sequences

section Decoding

theorem decodeAfter_eq_drop (size : Nat) (bs : List UInt8) :
    decodeAfter size bs = decodeAfter 0 (bs.drop size) := by
  induction size generalizing bs with
  | zero => rfl
  | succ size ih =>
    cases bs with
    | nil => simp [decodeAfter]
    | cons b bs => exact ih bs

theorem readAfter_eq_drop (index size : Nat) (bs : List UInt8) :
    ∃ index', readAfter index size bs = readAfter index' 0 (bs.drop size) := by
  induction size generalizing index bs with
  | zero => exact ⟨index, rfl⟩
  | succ size ih =>
    cases bs with
    | nil => exact ⟨index, by simp [readAfter]⟩
    | cons b bs => exact ih (index + 1) bs

/-- A code point that is no surrogate has its own form. -/
theorem encodeOne?_of_not_surrogate {c : CodePoint} (h : c.isSurrogate = false) :
    encodeOne? c = some (bytesOf c) := by
  have hs : ¬ (0xDC80 ≤ c.val ∧ c.val ≤ 0xDCFF) := by
    intro hc
    simp only [CodePoint.isSurrogate, Bool.and_eq_false_iff, decide_eq_false_iff_not] at h
    omega
  have hk : keptByte? c = none := by
    simpa [keptByte?] using hs
  simp [encodeOne?, hk, h]

/-- A byte that belongs to no sequence is written as itself. -/
theorem encodeOne?_keep {b : UInt8} (h : 0x80 ≤ b.toNat) : encodeOne? (keep b) = some [b] := by
  have hb := b.toNat_lt
  have hv : (keep b).val = 0xDC00 + b.toNat := by
    unfold keep CodePoint.ofNat
    rw [dif_pos (by omega)]
  have hk : keptByte? (keep b) = some b := by
    unfold keptByte?
    rw [hv, if_pos (by simp only [Bool.and_eq_true, decide_eq_true_eq]; omega)]
    exact congrArg some (ofNat_eq (by omega))
  simp [encodeOne?, hk]

theorem le_toNat_of_sequence?_eq_none {b : UInt8} {rest : List UInt8}
    (h : sequence? b rest = none) : 0x80 ≤ b.toNat := by
  refine Nat.le_of_not_lt fun hb => ?_
  simp [sequence?, hb] at h

theorem encodeFrom_cons {index : Nat} {c : CodePoint} {t : Text} {bs : List UInt8}
    (h : encodeOne? c = some bs) :
    encodeFrom index (c :: t) = (encodeFrom (index + 1) t).map (bs ++ ·) := by
  simp [encodeFrom, h]

/-- What any bytes are read as is written as these bytes. -/
theorem encodeFrom_decodeAfter (n index : Nat) (bs : List UInt8) (hn : bs.length ≤ n) :
    encodeFrom index (decodeAfter 0 bs) = .ok bs := by
  -- On the number of bytes: what follows a sequence is not a tail of the list's constructor.
  induction n generalizing index bs with
  | zero =>
    have hbs : bs = [] := List.length_eq_zero_iff.1 (by omega)
    subst hbs
    rfl
  | succ n ih =>
    cases bs with
    | nil => rfl
    | cons b rest =>
      rw [List.length_cons] at hn
      cases hseq : sequence? b rest with
      | none =>
        have hone := encodeOne?_keep (le_toNat_of_sequence?_eq_none hseq)
        simp only [decodeAfter, hseq]
        rw [encodeFrom_cons hone, ih (index + 1) rest (by omega)]
        rfl
      | some p =>
        obtain ⟨v, size⟩ := p
        obtain ⟨hv, hsize, hbytes⟩ := sequence?_eq_some hseq
        have hone := encodeOne?_of_not_surrogate (isSurrogate_ofNat hv)
        have hdrop : (rest.drop size).length ≤ n := by
          rw [List.length_drop]
          omega
        simp only [decodeAfter, hseq]
        rw [encodeFrom_cons hone, decodeAfter_eq_drop, ih (index + 1) _ hdrop, hbytes]
        simp [Except.map]

/-- Reading loses no byte. -/
theorem encode_decode (bs : List UInt8) : encode (decode bs) = .ok bs :=
  encodeFrom_decodeAfter bs.length 0 bs (Nat.le_refl _)

/-- The bytes of a text without surrogates are the forms of its code points. -/
theorem encodeFrom_of_isWellFormed {t : Text} (h : t.isWellFormed = true) (index : Nat) :
    encodeFrom index t = .ok (t.flatMap bytesOf) := by
  induction t generalizing index with
  | nil => rfl
  | cons c t ih =>
    simp only [Text.isWellFormed, List.all_cons, Bool.and_eq_true, Bool.not_eq_true'] at h
    rw [encodeFrom_cons (encodeOne?_of_not_surrogate h.1), ih h.2]
    rfl

theorem decodeAfter_flatMap {t : Text} (h : t.isWellFormed = true) :
    decodeAfter 0 (t.flatMap bytesOf) = t := by
  induction t with
  | nil => rfl
  | cons c t ih =>
    simp only [Text.isWellFormed, List.all_cons, Bool.and_eq_true, Bool.not_eq_true'] at h
    obtain ⟨lead, more, hbytes, hseq⟩ := sequence?_bytesOf c h.1
    have hc : CodePoint.ofNat c.val = c := by
      simp [CodePoint.ofNat, c.isLt]
    rw [List.flatMap_cons, hbytes, List.cons_append]
    simp only [decodeAfter, hseq, hc]
    rw [decodeAfter_eq_drop, List.drop_left, ih h.2]

theorem encode_of_isWellFormed {t : Text} (h : t.isWellFormed = true) :
    encode t = .ok (t.flatMap bytesOf) :=
  encodeFrom_of_isWellFormed h 0

/-- Writing loses no code point of a text without surrogates. -/
theorem decode_encode {t : Text} (h : t.isWellFormed = true) :
    ∃ bs, encode t = .ok bs ∧ decode bs = t :=
  ⟨_, encode_of_isWellFormed h, decodeAfter_flatMap h⟩

theorem decode_of_encode {t : Text} (h : t.isWellFormed = true) {bs : List UInt8}
    (hbs : encode t = .ok bs) : decode bs = t := by
  obtain ⟨bs', hbs', hd⟩ := decode_encode h
  rw [hbs] at hbs'
  cases hbs'
  exact hd

/-- What is read strictly has no surrogates and is what any reading gives. -/
theorem isWellFormed_of_readAfter (n index : Nat) (bs : List UInt8) (hn : bs.length ≤ n) {t : Text}
    (h : readAfter index 0 bs = .ok t) : t.isWellFormed = true ∧ decodeAfter 0 bs = t := by
  induction n generalizing index bs t with
  | zero =>
    have hbs : bs = [] := List.length_eq_zero_iff.1 (by omega)
    subst hbs
    cases h
    exact ⟨rfl, rfl⟩
  | succ n ih =>
    cases bs with
    | nil =>
      cases h
      exact ⟨rfl, rfl⟩
    | cons b rest =>
      rw [List.length_cons] at hn
      cases hseq : sequence? b rest with
      | none => simp [readAfter, hseq] at h
      | some p =>
        obtain ⟨v, size⟩ := p
        obtain ⟨hv, -, -⟩ := sequence?_eq_some hseq
        obtain ⟨index', hdrop⟩ := readAfter_eq_drop (index + 1) size rest
        simp only [readAfter, hseq, hdrop] at h
        cases hrest : readAfter index' 0 (rest.drop size) with
        | error e => simp [hrest, Except.map] at h
        | ok u =>
          obtain ⟨hu, hdecode⟩ :=
            ih index' (rest.drop size) (by rw [List.length_drop]; omega) hrest
          simp only [hrest, Except.map, Except.ok.injEq] at h
          subst h
          constructor
          · simp only [Text.isWellFormed, List.all_cons, isSurrogate_ofNat hv, Bool.not_false,
              Bool.true_and]
            exact hu
          · simp only [decodeAfter, hseq]
            rw [decodeAfter_eq_drop, hdecode]

theorem readAfter_flatMap {t : Text} (h : t.isWellFormed = true) (index : Nat) :
    readAfter index 0 (t.flatMap bytesOf) = .ok t := by
  induction t generalizing index with
  | nil => rfl
  | cons c t ih =>
    simp only [Text.isWellFormed, List.all_cons, Bool.and_eq_true, Bool.not_eq_true'] at h
    obtain ⟨lead, more, hbytes, hseq⟩ := sequence?_bytesOf c h.1
    have hc : CodePoint.ofNat c.val = c := by
      simp [CodePoint.ofNat, c.isLt]
    obtain ⟨index', hdrop⟩ :=
      readAfter_eq_drop (index + 1) more.length (more ++ t.flatMap bytesOf)
    rw [List.flatMap_cons, hbytes, List.cons_append]
    simp only [readAfter, hseq, hc]
    rw [hdrop, List.drop_left, ih h.2 index']
    rfl

/-- Strict reading succeeds exactly on the bytes of a text without surrogates, with that text. -/
theorem read_eq_ok_iff {bs : List UInt8} {t : Text} :
    read bs = .ok t ↔ t.isWellFormed = true ∧ encode t = .ok bs := by
  constructor
  · intro h
    obtain ⟨hwf, hdecode⟩ := isWellFormed_of_readAfter bs.length 0 bs (Nat.le_refl _) h
    refine ⟨hwf, ?_⟩
    rw [← hdecode]
    exact encode_decode bs
  · rintro ⟨hwf, hencode⟩
    rw [encode_of_isWellFormed hwf, Except.ok.injEq] at hencode
    rw [← hencode]
    exact readAfter_flatMap hwf 0

end Decoding

end Utf8
end CrossClusterKeys
