import CrossClusterKeys.Cli
import CrossClusterKeys.Proofs.Utf8
import Mathlib.Data.List.DropRight

/-!
# The key that a run is given

A key is read from the standard input or from a file.  What the key is can be said without reading:
the text that stands there has blanks in front of the key and behind it, and the key itself neither
starts nor ends with one.

**Input.**  Any place and any path.  The text of a file is the one whose bytes stand there; every
ending of a line counts as a line feed.

**Results.**
* `unifiesLines_iff`, `strips_iff`: what the two transformations of a text amount to.
* `readKey_eq_ok_iff`: a key is read exactly if it is supplied.
* `exists_supplies`, `Supplies.unique`: for every place and path there is one key or none.
* `isReported_of_readKey`: a key that cannot be read is an operator's concern.
-/

namespace CrossClusterKeys

namespace Files

/-- The second text has a line feed where a line of the first one ends: with a carriage return, with
a line feed, or with one behind the other. -/
inductive UnifiesLines : Text → Text → Prop
  | nil : UnifiesLines [] []
  | pair {u t} (h : UnifiesLines u t) : UnifiesLines ('\r' :: '\n' :: u) ('\n' :: t)
  | lone {u t} (hnext : u.head? ≠ some (CodePoint.ofChar '\n')) (h : UnifiesLines u t) :
      UnifiesLines ('\r' :: u) ('\n' :: t)
  | plain {c : CodePoint} {u t} (hc : c ≠ '\r') (h : UnifiesLines u t) :
      UnifiesLines (c :: u) (c :: t)

theorem unifiesLines_unifyLines (u : Text) : UnifiesLines u (unifyLines u) := by
  fun_induction unifyLines u with
  | case1 => exact .nil
  | case2 => exact .lone (by simp) .nil
  | case3 c hc => exact .plain hc .nil
  | case4 t ih => exact .pair ih
  | case5 d t hd ih => exact .lone (by simpa using hd) ih
  | case6 c d t hc ih => exact .plain hc ih

theorem UnifiesLines.unique {u t t' : Text} (h : UnifiesLines u t) (h' : UnifiesLines u t') :
    t = t' := by
  induction h generalizing t' with
  | nil =>
    cases h'
    rfl
  | pair _ ih =>
    cases h' with
    | pair h' => rw [ih h']
    | lone hnext => exact absurd rfl hnext
    | plain hc => exact absurd rfl hc
  | lone hnext _ ih =>
    cases h' with
    | pair => exact absurd rfl hnext
    | lone _ h' => rw [ih h']
    | plain hc => exact absurd rfl hc
  | plain hc _ ih =>
    cases h' with
    | pair => exact absurd rfl hc
    | lone => exact absurd rfl hc
    | plain _ h' => rw [ih h']

theorem unifiesLines_iff {u t : Text} : unifyLines u = t ↔ UnifiesLines u t := by
  constructor
  · rintro rfl
    exact unifiesLines_unifyLines u
  · exact (unifiesLines_unifyLines u).unique

theorem UnifiesLines.isWellFormed {u t : Text} (h : UnifiesLines u t)
    (hu : u.isWellFormed = true) : t.isWellFormed = true := by
  unfold Text.isWellFormed at hu ⊢
  induction h with
  | nil => rfl
  | pair _ ih =>
    simp only [List.all_cons, Bool.and_eq_true] at hu ⊢
    exact ⟨by decide, ih hu.2.2⟩
  | lone _ _ ih =>
    simp only [List.all_cons, Bool.and_eq_true] at hu ⊢
    exact ⟨by decide, ih hu.2⟩
  | plain _ _ ih =>
    simp only [List.all_cons, Bool.and_eq_true] at hu ⊢
    exact ⟨hu.1, ih hu.2⟩

/-- Bytes have a text exactly if they are those of a text without surrogates. -/
theorem decode_eq_ok_iff {bs : List UInt8} {t : Text} :
    decode bs = .ok t ↔
      ∃ u, u.isWellFormed = true ∧ Utf8.encode u = .ok bs ∧ UnifiesLines u t := by
  unfold decode
  rw [mapError_eq_ok_iff]
  constructor
  · intro h
    cases hread : Utf8.read bs with
    | error flaw =>
      rw [hread] at h
      cases h
    | ok u =>
      rw [hread] at h
      obtain ⟨hwf, hencode⟩ := Utf8.read_eq_ok_iff.1 hread
      exact ⟨u, hwf, hencode, unifiesLines_iff.1 (Except.ok.inj h)⟩
  · rintro ⟨u, hwf, hencode, hlines⟩
    rw [Utf8.read_eq_ok_iff.2 ⟨hwf, hencode⟩, ← unifiesLines_iff.2 hlines]
    rfl

section Reported

/-- A walk fails only for what it finds on its way. -/
theorem isReported_of_walk {f : Files} {shown : Text} {here : Option (List Text)}
    {ps : List Text} {e : Failure} (h : f.walk shown here ps = .error e) : e.isReported = true := by
  induction ps generalizing here with
  | nil =>
    rw [walk] at h
    cases h
    rfl
  | cons p ps ih =>
    cases here with
    | none =>
      rw [walk] at h
      split at h
      · exact ih h
      · cases h
        rfl
    | some here =>
      rw [walk] at h
      split at h
      · exact ih h
      · split at h
        · cases h
          rfl
        · split at h
          · split at h
            · cases h
            · cases h
              rfl
          · split at h
            · exact ih h
            · cases h
              rfl

theorem isReported_of_bytes {f : Files} {path : Text} {e : Failure} (h : f.bytes path = .error e) :
    e.isReported = true := by
  unfold bytes at h
  cases henc : Utf8.encode (normalised path) with
  | error flaw =>
    simp only [henc, mapError_error, bind, Except.bind] at h
    cases h
    rfl
  | ok bs =>
    simp only [henc, mapError_ok, bind, Except.bind] at h
    split at h
    · cases h
      rfl
    · split at h
      · cases h
        rfl
      · exact isReported_of_walk h

/-- A file that cannot be read is an operator's concern. -/
theorem isReported_of_text {f : Files} {path : Text} {e : Failure} (h : f.text path = .error e) :
    e.isReported = true := by
  unfold text at h
  cases hb : f.bytes path with
  | error e' =>
    rw [hb] at h
    cases h
    exact isReported_of_bytes hb
  | ok bs =>
    rw [hb] at h
    change decode bs = .error e at h
    unfold decode at h
    cases hr : Utf8.read bs with
    | error flaw =>
      rw [hr] at h
      cases h
      rfl
    | ok u =>
      rw [hr] at h
      cases h

end Reported

end Files

namespace Text

/-- The second text is the first one without the blanks around it. -/
structure Strips (t key : Text) : Prop where
  around : ∃ front back, t = front ++ key ++ back ∧
    (∀ c ∈ front, c.isBlank = true) ∧ ∀ c ∈ back, c.isBlank = true
  first : ∀ c ∈ key.head?, c.isBlank = false
  last : ∀ c ∈ key.getLast?, c.isBlank = false

section Trimming

variable {p : CodePoint → Bool}

/-- Nothing is dropped from a text whose first code point stays. -/
theorem dropWhile_of_head {t : Text} (h : ∀ c ∈ t.head?, p c = false) : t.dropWhile p = t := by
  cases t with
  | nil => rfl
  | cons c t =>
    have hc : p c = false := h c rfl
    simp [hc]

theorem head_trim {t : Text} {c : CodePoint} (h : c ∈ (trim p t).head?) : p c = false := by
  obtain ⟨rest, hrest⟩ : trim p t <+: t.dropWhile p := List.rdropWhile_prefix p _
  have hhead : (t.dropWhile p).head? = some c := by
    rw [← hrest, List.head?_append, Option.mem_def.1 h, Option.some_or]
  have hnot := List.head?_dropWhile_not p t
  rw [hhead] at hnot
  exact hnot

theorem getLast_trim {t : Text} {c : CodePoint} (h : c ∈ (trim p t).getLast?) : p c = false := by
  obtain ⟨hne, hlast⟩ := List.mem_getLast?_eq_getLast h
  have hnot : ¬ p ((trim p t).getLast hne) = true := List.rdropWhile_last_not p _ hne
  rw [hlast]
  exact Bool.eq_false_iff.2 hnot

/-- What a run in front and a run behind are trimmed to is what stands between them. -/
theorem trim_of_around {front key back : Text} (hfront : ∀ c ∈ front, p c = true)
    (hback : ∀ c ∈ back, p c = true) (hfirst : ∀ c ∈ key.head?, p c = false)
    (hlast : ∀ c ∈ key.getLast?, p c = false) : trim p (front ++ key ++ back) = key := by
  have hfront' : (front ++ key ++ back).dropWhile p = (key ++ back).dropWhile p := by
    rw [List.append_assoc]
    exact List.dropWhile_append_of_pos hfront
  rw [trim, hfront']
  cases key with
  | nil =>
    rw [List.nil_append, List.dropWhile_eq_nil_iff.2 hback]
    rfl
  | cons c key =>
    have hkeep : (c :: key ++ back).dropWhile p = c :: key ++ back :=
      dropWhile_of_head fun d hd => hfirst d hd
    have hkeep' : (c :: key).reverse.dropWhile p = (c :: key).reverse := by
      refine dropWhile_of_head fun d hd => hlast d ?_
      rwa [List.head?_reverse] at hd
    rw [hkeep, List.reverse_append,
      List.dropWhile_append_of_pos fun d hd => hback d (List.mem_reverse.1 hd), hkeep',
      List.reverse_reverse]

end Trimming

theorem strips_iff {t key : Text} : t.strip = key ↔ t.Strips key := by
  constructor
  · rintro rfl
    exact ⟨trim_append _ t, fun _ => head_trim, fun _ => getLast_trim⟩
  · rintro ⟨⟨front, back, rfl, hfront, hback⟩, hfirst, hlast⟩
    exact trim_of_around hfront hback hfirst hlast

/-- Nothing is left of a text exactly if it is blank. -/
theorem strip_eq_nil_iff {t : Text} : t.strip = [] ↔ ∀ c ∈ t, c.isBlank = true := by
  rw [strips_iff]
  constructor
  · rintro ⟨⟨front, back, rfl, hfront, hback⟩, -, -⟩
    rw [List.append_nil]
    exact List.forall_mem_append.2 ⟨hfront, hback⟩
  · intro h
    refine ⟨⟨t, [], by simp, h, by simp⟩, by simp, by simp⟩

theorem Strips.isWellFormed {t key : Text} (h : t.Strips key) (ht : t.isWellFormed = true) :
    key.isWellFormed = true := by
  obtain ⟨front, back, rfl, -, -⟩ := h.around
  unfold Text.isWellFormed at ht ⊢
  rw [List.all_append, List.all_append, Bool.and_eq_true, Bool.and_eq_true] at ht
  exact ht.1.2

end Text

namespace Cli

/-- The text that a path stands for: `-` for the standard input, and any other path for the text
without surrogates whose bytes are in the file there. -/
inductive Holds (p : Place) (path : Text) : Text → Prop
  | input (h : path = "-") : Holds p path p.input
  | file {bytes u t} (h : path ≠ "-") (hbytes : p.files.bytes path = .ok bytes)
      (hwf : u.isWellFormed = true) (hu : Utf8.encode u = .ok bytes)
      (hlines : Files.UnifiesLines u t) : Holds p path t

/-- The key that stands at a path, none if nothing but blanks does or nothing can be read. -/
inductive Supplies (p : Place) (path : Text) : Option Text → Prop
  | key {t key} (h : Holds p path t) (hkey : t.Strips key) (hne : key ≠ []) :
      Supplies p path (some key)
  | blank {t} (h : Holds p path t) (hblank : ∀ c ∈ t, c.isBlank = true) : Supplies p path none
  | unreadable (h : ∀ t, ¬ Holds p path t) : Supplies p path none

variable {p : Place} {path : Text}

theorem keyText_eq_ok_iff {t : Text} : keyText p path = .ok t ↔ Holds p path t := by
  unfold keyText
  split
  · next hinput =>
    constructor
    · intro h
      cases h
      exact .input hinput
    · intro h
      cases h with
      | input => rfl
      | file hfile => exact absurd hinput hfile
  · next hfile =>
    constructor
    · intro h
      obtain ⟨bytes, hbytes, hdecode⟩ := exists_of_bind_eq_ok h
      obtain ⟨u, hwf, hencode, hlines⟩ := Files.decode_eq_ok_iff.1 hdecode
      exact .file hfile hbytes hwf hencode hlines
    · intro h
      cases h with
      | input hinput => exact absurd hinput hfile
      | file _ hbytes hwf hencode hlines =>
        unfold Files.text
        rw [hbytes]
        exact Files.decode_eq_ok_iff.2 ⟨_, hwf, hencode, hlines⟩

theorem Holds.unique {t t' : Text} (h : Holds p path t) (h' : Holds p path t') : t = t' :=
  Except.ok.inj ((keyText_eq_ok_iff.2 h).symm.trans (keyText_eq_ok_iff.2 h'))

theorem Holds.isWellFormed {t : Text} (h : Holds p path t) (hp : p.input.isWellFormed = true) :
    t.isWellFormed = true := by
  cases h with
  | input => exact hp
  | file _ _ hwf _ hlines => exact hlines.isWellFormed hwf

theorem isReported_of_keyText {f : Failure} (h : keyText p path = .error f) :
    f.isReported = true := by
  unfold keyText at h
  split at h
  · cases h
  · exact Files.isReported_of_text h

theorem readKey_of_keyText {t : Text} (h : keyText p path = .ok t) (hne : t.strip ≠ []) :
    readKey p path = .ok t.strip := by
  have hfull : ¬ t.strip.isEmpty = true := by
    rwa [List.isEmpty_iff]
  simp only [readKey, h, bind, Except.bind, if_neg hfull]
  rfl

/-- A key that cannot be read is an operator's concern. -/
theorem isReported_of_readKey {f : Failure} (h : readKey p path = .error f) :
    f.isReported = true := by
  unfold readKey at h
  cases ht : keyText p path with
  | error e =>
    rw [ht] at h
    cases h
    exact isReported_of_keyText ht
  | ok t =>
    simp only [ht, bind, Except.bind] at h
    split at h
    · cases h
      rfl
    · cases h

/-- A key is read exactly if it is supplied. -/
theorem readKey_eq_ok_iff {key : Text} :
    readKey p path = .ok key ↔ Supplies p path (some key) := by
  constructor
  · intro h
    obtain ⟨t, ht, hkey⟩ := exists_of_bind_eq_ok h
    simp only at hkey
    split at hkey
    · cases hkey
    · next hne =>
      cases hkey
      refine .key (keyText_eq_ok_iff.1 ht) (Text.strips_iff.1 rfl) ?_
      rwa [List.isEmpty_iff] at hne
  · rintro (⟨h, hkey, hne⟩)
    rw [← Text.strips_iff] at hkey
    subst hkey
    exact readKey_of_keyText (keyText_eq_ok_iff.2 h) hne

/-- Nothing is supplied exactly if no key is read. -/
theorem supplies_none_iff : Supplies p path none ↔ ∃ f, readKey p path = .error f := by
  constructor
  · intro h
    cases hread : readKey p path with
    | error f => exact ⟨f, rfl⟩
    | ok key =>
      obtain ⟨ht, hkey, hne⟩ := readKey_eq_ok_iff.1 hread
      cases h with
      | blank h hblank =>
        rw [Holds.unique h ht] at hblank
        rw [← Text.strips_iff, Text.strip_eq_nil_iff.2 hblank] at hkey
        exact absurd hkey.symm hne
      | unreadable h => exact absurd ht (h _)
  · rintro ⟨f, hf⟩
    cases ht : keyText p path with
    | error e =>
      refine .unreadable fun t h => ?_
      rw [keyText_eq_ok_iff.2 h] at ht
      cases ht
    | ok t =>
      refine .blank (keyText_eq_ok_iff.1 ht) (Text.strip_eq_nil_iff.1 ?_)
      by_contra hne
      rw [readKey_of_keyText ht hne] at hf
      cases hf

/-- For every place and path there is a key or none. -/
theorem exists_supplies (p : Place) (path : Text) : ∃ key?, Supplies p path key? := by
  cases h : readKey p path with
  | error f => exact ⟨none, supplies_none_iff.2 ⟨f, h⟩⟩
  | ok key => exact ⟨some key, readKey_eq_ok_iff.1 h⟩

theorem Supplies.unique {key? key?' : Option Text} (h : Supplies p path key?)
    (h' : Supplies p path key?') : key? = key?' := by
  have hread : ∀ o : Option Text, Supplies p path o → (readKey p path).toOption = o := by
    intro o ho
    cases o with
    | none =>
      obtain ⟨f, hf⟩ := supplies_none_iff.1 ho
      rw [hf]
      rfl
    | some key =>
      rw [readKey_eq_ok_iff.2 ho]
      rfl
  exact (hread _ h).symm.trans (hread _ h')

theorem Supplies.isWellFormed {key : Text} (h : Supplies p path (some key))
    (hp : p.input.isWellFormed = true) : key.isWellFormed = true := by
  obtain ⟨ht, hkey, -⟩ := h
  exact hkey.isWellFormed (ht.isWellFormed hp)

end Cli
end CrossClusterKeys
