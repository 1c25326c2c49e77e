import CrossClusterKeys.Proofs.JsonCompleteness
import CrossClusterKeys.Proofs.JsonLine
import CrossClusterKeys.Proofs.Tables

/-!
# Documents read back

A document that was written on one line is read as the same document, except that the pairs of
surrogates in its texts are joined.

**Limits.**  `Fits` says that no whole number has too many digits and that no bracket opens a level
too many.  A document is legible if, moreover, its texts are unpaired and no object has a key twice.

**Proof shape.**  What is written is compared with the grammar and not with the reader: the
inductions follow the document, one theorem for each of the writer's functions, and the reader is
known to read what the grammar has.

**Results.**
* `document_write`: what is written of a document that fits is a document of the grammar.
* `read_write_of_fits`: so it is read, as its `readBack`.
* `read_write`: a legible document is read as itself.
-/

namespace CrossClusterKeys
namespace Json

/-- A layout whose separators are their signs with blanks behind them. -/
structure Layout.IsReadable (l : Layout) : Prop where
  item : ∃ gap, l.item = CodePoint.ofChar ',' :: gap ∧ gap.all isGap = true
  key : ∃ gap, l.key = CodePoint.ofChar ':' :: gap ∧ gap.all isGap = true

theorem isReadable_compact : compact.IsReadable :=
  ⟨⟨[], by decide, rfl⟩, ⟨[], by decide, rfl⟩⟩

theorem isReadable_spaced : spaced.IsReadable :=
  ⟨⟨[CodePoint.ofChar ' '], by decide, by decide⟩, ⟨[CodePoint.ofChar ' '], by decide, by decide⟩⟩

section Limits

mutual

/-- Documents with no whole number above the limit of digits and no more than `depth` levels. -/
def Fits : Nat → Json → Prop
  | _, .null => True
  | _, .bool _ => True
  | _, .int n => n.natAbs < 10 ^ digitLimit
  | _, .real _ => False
  | _, .text _ => True
  | 0, .list _ => False
  | depth + 1, .list items => FitItems depth items
  | 0, .object _ => False
  | depth + 1, .object members => FitMembers depth members

/-- Lists of such documents. -/
def FitItems : Nat → List Json → Prop
  | _, [] => True
  | depth, j :: js => Fits depth j ∧ FitItems depth js

/-- Members with such documents. -/
def FitMembers : Nat → List (Text × Json) → Prop
  | _, [] => True
  | depth, (_, j) :: ms => Fits depth j ∧ FitMembers depth ms

end

mutual

/-- What a document is read as once it was written. -/
def readBack : Json → Json
  | .null => .null
  | .bool b => .bool b
  | .int n => .int n
  | .real x => .real x
  | .text t => .text t.readBack
  | .list items => .list (readBackItems items)
  | .object members => .object (Table.ofList (readBackMembers members)).entries

/-- Every item as it is read. -/
def readBackItems : List Json → List Json
  | [] => []
  | j :: js => readBack j :: readBackItems js

/-- Every member as it is read. -/
def readBackMembers : List (Text × Json) → List (Text × Json)
  | [] => []
  | (k, j) :: ms => (k.readBack, readBack j) :: readBackMembers ms

end

end Limits

section Heads

theorem isGap_nil : List.all ([] : Text) isGap = true := rfl

theorem exists_cons_ofNat (n : Nat) :
    ∃ d t, Digits.ofNat n = d :: t ∧ d.isDigit = true := by
  obtain ⟨d, t, h, hd⟩ := (Digits.isWhole_ofNat n).isDigits.exists_cons
  exact ⟨d, t, h, hd⟩

theorem isGap_of_isDigit {c : CodePoint} (h : c.isDigit = true) : isGap c = false := by
  simp only [isGap, Bool.or_eq_false_iff, decide_eq_false_iff_not]
  exact ⟨⟨⟨ne_of_isDigit h (by decide), ne_of_isDigit h (by decide)⟩,
    ne_of_isDigit h (by decide)⟩, ne_of_isDigit h (by decide)⟩

theorem write_eq_cons (l : Layout) {depth : Nat} {j : Json} (h : Fits depth j) :
    ∃ c t, write l j = c :: t ∧ isGap c = false := by
  cases j with
  | null => exact ⟨'n', Text.ofString "ull", by rw [write]; decide, by decide⟩
  | bool b =>
    cases b with
    | true => exact ⟨'t', Text.ofString "rue", by rw [write]; decide, by decide⟩
    | false => exact ⟨'f', Text.ofString "alse", by rw [write]; decide, by decide⟩
  | int n =>
    cases n with
    | ofNat n =>
      obtain ⟨d, t, hn, hd⟩ := exists_cons_ofNat n
      exact ⟨d, t, by rw [write, Digits.ofInt, hn], isGap_of_isDigit hd⟩
    | negSucc n => exact ⟨'-', _, by rw [write, Digits.ofInt], by decide⟩
  | real x => simp [Fits] at h
  | text t =>
    have hq := quoted_append t []
    rw [List.append_nil] at hq
    exact ⟨_, _, by rw [write, hq], by decide⟩
  | list items =>
    have hb : Text.ofString "[" = [CodePoint.ofChar '['] := by decide
    exact ⟨_, _, by rw [write, hb]; rfl, by decide⟩
  | object members =>
    have hb : Text.ofString "\x7b" = [CodePoint.ofChar '\x7b'] := by decide
    exact ⟨_, _, by rw [write, hb]; rfl, by decide⟩

theorem skipGap_write (l : Layout) {depth : Nat} {j : Json} (h : Fits depth j) (t : Text) :
    skipGap (write l j ++ t) = write l j ++ t := by
  obtain ⟨c, u, hw, hc⟩ := write_eq_cons l h
  rw [hw, List.cons_append, skipGap_cons hc]

theorem skipGap_append_write (l : Layout) {depth : Nat} {j : Json} (h : Fits depth j)
    {gap : Text} (hgap : gap.all isGap = true) (t : Text) :
    skipGap (gap ++ (write l j ++ t)) = write l j ++ t := by
  obtain ⟨c, u, hw, hc⟩ := write_eq_cons l h
  rw [hw, List.cons_append, skipGap_append hgap hc]

end Heads

section Atoms

variable {depth : Nat} {rest : Text}

/-- Whatever the text, what stands between quotes is one text. -/
theorem quoted_readBack (t rest : Text) : Quoted (quoted t ++ rest) t.readBack rest := by
  rw [quoted_append]
  exact readText_iff.1 (readText_quoted t rest)

theorem document_int {n : Int} (h : n.natAbs < 10 ^ digitLimit) :
    Document digitLimit depth (Digits.ofInt n ++ rest) (.int n) rest := by
  have hvalue := Digits.valueOf_ofNat n.natAbs
  have hlength := Digits.length_ofNat_le (by decide) h
  cases n with
  | ofNat n =>
    rw [Int.ofNat_eq_natCast, Int.natAbs_natCast] at hvalue hlength
    have hn : Unsigned digitLimit false (Digits.ofNat n) _ :=
      .int (Digits.isWhole_ofNat n) hlength
    rw [hvalue] at hn
    exact .of_atom (.number .none hn)
  | negSucc n =>
    rw [Int.natAbs_negSucc] at hvalue hlength
    have hn : Unsigned digitLimit true (Digits.ofNat (n + 1)) _ :=
      .int (Digits.isWhole_ofNat (n + 1)) hlength
    rw [hvalue] at hn
    exact .of_atom (.number .minus hn)

theorem document_word {w : Text} {j : Json} (h : (w, j) ∈ words) :
    Document digitLimit depth (w ++ rest) j rest :=
  .of_atom (.word h)

end Atoms

section Documents

variable {l : Layout}

theorem write_list_append (items : List Json) (rest : Text) :
    write l (.list items) ++ rest =
      CodePoint.ofChar '[' :: (writeItems l items ++ CodePoint.ofChar ']' :: rest) := by
  have hopen : Text.ofString "[" = [CodePoint.ofChar '['] := by decide
  have hclose : Text.ofString "]" = [CodePoint.ofChar ']'] := by decide
  rw [write, hopen, hclose]
  simp only [List.append_assoc, List.cons_append, List.nil_append]

theorem write_object_append (ms : List (Text × Json)) (rest : Text) :
    write l (.object ms) ++ rest =
      CodePoint.ofChar '\x7b' :: (writeMembers l ms ++ CodePoint.ofChar '\x7d' :: rest) := by
  have hopen : Text.ofString "\x7b" = [CodePoint.ofChar '\x7b'] := by decide
  have hclose : Text.ofString "\x7d" = [CodePoint.ofChar '\x7d'] := by decide
  rw [write, hopen, hclose]
  simp only [List.append_assoc, List.cons_append, List.nil_append]

theorem writeItems_single (j : Json) : writeItems l [j] = write l j := by
  simp [writeItems, writeMoreItems]

theorem writeItems_cons_cons (j i : Json) (js : List Json) :
    writeItems l (j :: i :: js) = write l j ++ (l.item ++ writeItems l (i :: js)) := by
  simp only [writeItems, writeMoreItems, List.append_assoc]

theorem writeMembers_single (k : Text) (j : Json) :
    writeMembers l [(k, j)] = quoted k ++ (l.key ++ write l j) := by
  simp [writeMembers, writeMoreMembers]

theorem writeMembers_cons_cons (k : Text) (j : Json) (m : Text × Json) (ms : List (Text × Json)) :
    writeMembers l ((k, j) :: m :: ms) =
      quoted k ++ (l.key ++ (write l j ++ (l.item ++ writeMembers l (m :: ms)))) := by
  simp only [writeMembers, writeMoreMembers, List.append_assoc]

theorem skipGap_append_items {gap : Text} (hgap : gap.all isGap = true) {depth : Nat} {j : Json}
    {js : List Json} (h : FitItems depth (j :: js)) (t : Text) :
    skipGap (gap ++ (writeItems l (j :: js) ++ t)) = writeItems l (j :: js) ++ t := by
  rw [FitItems] at h
  rw [writeItems, List.append_assoc]
  exact skipGap_append_write l h.1 hgap _

theorem skipGap_append_members {gap : Text} (hgap : gap.all isGap = true) (m : Text × Json)
    (ms : List (Text × Json)) (t : Text) :
    skipGap (gap ++ (writeMembers l (m :: ms) ++ t)) = writeMembers l (m :: ms) ++ t := by
  obtain ⟨k, j⟩ := m
  rw [writeMembers, List.append_assoc, List.append_assoc, List.append_assoc, quoted_append]
  exact skipGap_append hgap (by decide) _

mutual

/-- What is written of a document that fits is a document, whatever stands behind it. -/
theorem document_write (hl : l.IsReadable) :
    ∀ (j : Json) (depth : Nat) (rest : Text), Fits depth j →
      Document digitLimit depth (write l j ++ rest) (readBack j) rest
  | .null, depth, rest, _ => by
    rw [write, readBack]
    exact document_word (by simp [words])
  | .bool true, depth, rest, _ => by
    rw [write, readBack, truth, if_pos rfl]
    exact document_word (by simp [words])
  | .bool false, depth, rest, _ => by
    rw [write, readBack, truth, if_neg Bool.false_ne_true]
    exact document_word (by simp [words])
  | .int n, depth, rest, h => by
    rw [Fits] at h
    rw [write, readBack]
    exact document_int h
  | .real _, _, _, h => by
    simp [Fits] at h
  | .text t, depth, rest, _ => by
    rw [write, readBack]
    exact .of_atom (.text (quoted_readBack t rest))
  | .list _, 0, _, h => by
    simp [Fits] at h
  | .list [], depth + 1, rest, _ => by
    rw [write_list_append, writeItems, readBack, readBackItems]
    exact Or.inr (.emptyList (skipGap_cons (by decide) rest))
  | .list (j :: js), depth + 1, rest, h => by
    rw [Fits] at h
    have hitems := items_write hl (j :: js) depth rest (by simp) h
    have hgap : skipGap (writeItems l (j :: js) ++ CodePoint.ofChar ']' :: rest) = _ :=
      skipGap_append_items isGap_nil h (CodePoint.ofChar ']' :: rest)
    rw [write_list_append, readBack]
    exact Or.inr (.list (hgap.symm ▸ hitems))
  | .object _, 0, _, h => by
    simp [Fits] at h
  | .object [], depth + 1, rest, _ => by
    rw [write_object_append, writeMembers, readBack, readBackMembers]
    exact Or.inr (.emptyObject (skipGap_cons (by decide) rest))
  | .object (m :: ms), depth + 1, rest, h => by
    rw [Fits] at h
    have hmembers := members_write hl (m :: ms) depth rest (by simp) h
    have hgap : skipGap (writeMembers l (m :: ms) ++ CodePoint.ofChar '\x7d' :: rest) = _ :=
      skipGap_append_members isGap_nil m ms (CodePoint.ofChar '\x7d' :: rest)
    rw [write_object_append, readBack]
    exact Or.inr (.object (hgap.symm ▸ hmembers))

theorem items_write (hl : l.IsReadable) :
    ∀ (js : List Json) (depth : Nat) (rest : Text), js ≠ [] → FitItems depth js →
      Items (Document digitLimit depth) (writeItems l js ++ CodePoint.ofChar ']' :: rest)
        (readBackItems js) rest
  | [], _, _, h, _ => absurd rfl h
  | [j], depth, rest, _, h => by
    simp only [FitItems] at h
    rw [writeItems_single]
    exact .last (document_write hl j depth _ h.1) (skipGap_cons (by decide) rest)
  | j :: i :: js, depth, rest, _, h => by
    rw [FitItems] at h
    obtain ⟨gap, hitem, hgap⟩ := hl.item
    have hj := document_write hl j depth
      (l.item ++ (writeItems l (i :: js) ++ CodePoint.ofChar ']' :: rest)) h.1
    have hmore := items_write hl (i :: js) depth rest (by simp) h.2
    rw [writeItems_cons_cons, List.append_assoc, List.append_assoc, readBackItems]
    rw [hitem, List.cons_append] at hj ⊢
    refine .next hj (skipGap_cons (by decide) _) ?_
    rw [skipGap_append_items hgap h.2]
    exact hmore

theorem members_write (hl : l.IsReadable) :
    ∀ (ms : List (Text × Json)) (depth : Nat) (rest : Text), ms ≠ [] → FitMembers depth ms →
      Members (Document digitLimit depth) (writeMembers l ms ++ CodePoint.ofChar '\x7d' :: rest)
        (readBackMembers ms) rest
  | [], _, _, h, _ => absurd rfl h
  | [(k, j)], depth, rest, _, h => by
    simp only [FitMembers] at h
    obtain ⟨gap, hkey, hgap⟩ := hl.key
    have hj := document_write hl j depth (CodePoint.ofChar '\x7d' :: rest) h.1
    have hk := quoted_readBack k (l.key ++ (write l j ++ CodePoint.ofChar '\x7d' :: rest))
    rw [writeMembers_single, List.append_assoc, List.append_assoc]
    rw [hkey, List.cons_append] at hk ⊢
    refine .last hk (skipGap_cons (by decide) _) ?_ (skipGap_cons (by decide) rest)
    rw [skipGap_append_write l h.1 hgap]
    exact hj
  | (k, j) :: m :: ms, depth, rest, _, h => by
    rw [FitMembers] at h
    obtain ⟨gap, hkey, hgap⟩ := hl.key
    obtain ⟨gap', hitem, hgap'⟩ := hl.item
    have hj := document_write hl j depth
      (l.item ++ (writeMembers l (m :: ms) ++ CodePoint.ofChar '\x7d' :: rest)) h.1
    have hk := quoted_readBack k
      (l.key ++ (write l j ++ (l.item ++ (writeMembers l (m :: ms) ++
        CodePoint.ofChar '\x7d' :: rest))))
    have hmore := members_write hl (m :: ms) depth rest (by simp) h.2
    rw [writeMembers_cons_cons, List.append_assoc, List.append_assoc, List.append_assoc,
      List.append_assoc, readBackMembers]
    rw [hkey, List.cons_append] at hk ⊢
    rw [hitem, List.cons_append] at hj hk ⊢
    rw [← skipGap_append_write l h.1 hgap] at hj
    refine .next hk (skipGap_cons (by decide) _) hj (skipGap_cons (by decide) _) ?_
    rw [skipGap_append_members hgap']
    exact hmore

end

/-- A document that fits is read back, its texts with their pairs joined. -/
theorem read_write_of_fits [Nesting] (hl : l.IsReadable) {j : Json}
    (h : Fits Nesting.levels j) :
    read (write l j) = .ok (readBack j) := by
  have hdocument := document_write hl j Nesting.levels [] h
  have hgap := skipGap_write l h []
  rw [List.append_nil] at hgap
  rw [List.append_nil] at hdocument
  exact read_eq_ok_iff.2 ⟨[], hgap.symm ▸ hdocument, rfl⟩

end Documents

section Legible

mutual

/-- Documents that read back as they are if `depth` levels may be opened. -/
def IsLegible : Nat → Json → Prop
  | _, .null => True
  | _, .bool _ => True
  | _, .int n => n.natAbs < 10 ^ digitLimit
  | _, .real _ => False
  | _, .text t => t.isUnpaired = true
  | 0, .list _ => False
  | depth + 1, .list items => AreLegible depth items
  | 0, .object _ => False
  | depth + 1, .object members =>
    (members.map Prod.fst).Nodup ∧ AreLegibleMembers depth members

/-- Lists of such documents. -/
def AreLegible : Nat → List Json → Prop
  | _, [] => True
  | depth, j :: js => IsLegible depth j ∧ AreLegible depth js

/-- Members with unpaired keys and such documents. -/
def AreLegibleMembers : Nat → List (Text × Json) → Prop
  | _, [] => True
  | depth, (k, j) :: ms =>
    k.isUnpaired = true ∧ IsLegible depth j ∧ AreLegibleMembers depth ms

end

mutual

/-- A legible document fits and is read as itself. -/
theorem fits_of_isLegible :
    ∀ (j : Json) (depth : Nat), IsLegible depth j → Fits depth j ∧ readBack j = j
  | .null, _, _ => by simp [Fits, readBack]
  | .bool _, _, _ => by simp [Fits, readBack]
  | .int n, _, h => by
    rw [IsLegible] at h
    exact ⟨by rwa [Fits], by rw [readBack]⟩
  | .real _, _, h => by simp [IsLegible] at h
  | .text t, _, h => by
    rw [IsLegible] at h
    exact ⟨by simp [Fits], by rw [readBack, Text.readBack_of_isUnpaired h]⟩
  | .list _, 0, h => by simp [IsLegible] at h
  | .list items, depth + 1, h => by
    rw [IsLegible] at h
    obtain ⟨hfit, hback⟩ := fitItems_of_areLegible items depth h
    exact ⟨by rwa [Fits], by rw [readBack, hback]⟩
  | .object _, 0, h => by simp [IsLegible] at h
  | .object members, depth + 1, h => by
    rw [IsLegible] at h
    obtain ⟨hfit, hback⟩ := fitMembers_of_areLegibleMembers members depth h.2
    exact ⟨by rwa [Fits], by rw [readBack, hback, Table.entries_ofList h.1]⟩

theorem fitItems_of_areLegible :
    ∀ (js : List Json) (depth : Nat), AreLegible depth js →
      FitItems depth js ∧ readBackItems js = js
  | [], _, _ => by simp [FitItems, readBackItems]
  | j :: js, depth, h => by
    rw [AreLegible] at h
    obtain ⟨hfit, hback⟩ := fits_of_isLegible j depth h.1
    obtain ⟨hfits, hbacks⟩ := fitItems_of_areLegible js depth h.2
    exact ⟨by rw [FitItems]; exact ⟨hfit, hfits⟩, by rw [readBackItems, hback, hbacks]⟩

theorem fitMembers_of_areLegibleMembers :
    ∀ (ms : List (Text × Json)) (depth : Nat), AreLegibleMembers depth ms →
      FitMembers depth ms ∧ readBackMembers ms = ms
  | [], _, _ => by simp [FitMembers, readBackMembers]
  | (k, j) :: ms, depth, h => by
    rw [AreLegibleMembers] at h
    obtain ⟨hfit, hback⟩ := fits_of_isLegible j depth h.2.1
    obtain ⟨hfits, hbacks⟩ := fitMembers_of_areLegibleMembers ms depth h.2.2
    refine ⟨by rw [FitMembers]; exact ⟨hfit, hfits⟩, ?_⟩
    rw [readBackMembers, hback, hbacks, Text.readBack_of_isUnpaired h.1]

end

/-- A text that holds nothing but a legible document is read as it. -/
theorem read_write [Nesting] {l : Layout} (hl : l.IsReadable) {j : Json}
    (h : IsLegible Nesting.levels j) :
    read (write l j) = .ok j := by
  obtain ⟨hfit, hback⟩ := fits_of_isLegible j Nesting.levels h
  rw [read_write_of_fits hl hfit, hback]

end Legible

end Json
end CrossClusterKeys
