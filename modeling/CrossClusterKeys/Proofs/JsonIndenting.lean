import CrossClusterKeys.Proofs.JsonWriting

/-!
# Indented documents read back

A document that was written over several lines differs from the one on a single line only by blanks
where the grammar allows them, so it is read as the same document.

**Proof shape.**  As for documents on one line, what is written is compared with the grammar, and
the inductions follow the document.  The statement about items and members leaves open which blanks
stand in front of the closing sign, since these belong to the level outside.

**Results.**
* `document_indented`: what is written of a document that fits is a document of the grammar.
* `isDocumentWithin_indented`: a legible document is the document of its indented text.
-/

namespace CrossClusterKeys
namespace Json

section Lines

theorem isGap_lineAt (level : Nat) : (lineAt level).all isGap = true := by
  have hbreak : Text.ofString "\n" = [CodePoint.ofChar '\n'] := by decide
  have hblank : isGap ' ' = true := by decide
  have hline : isGap '\n' = true := by decide
  rw [lineAt, Text.padRight, hbreak, List.all_append, List.all_replicate, hblank]
  simp only [List.all_cons, List.all_nil, hline, ite_self, Bool.and_self]

/-- The items of a list, the first one without the line break in front of it. -/
def itemLines (level : Nat) : List Json → Text
  | [] => []
  | j :: js => indented level j ++ indentedItems level js

/-- The members of an object, the first one without the line break in front of it. -/
def memberLines (level : Nat) : List (Text × Json) → Text
  | [] => []
  | (k, j) :: ms => quoted k ++ (": " ++ (indented level j ++ indentedMembers level ms))

variable (level : Nat)

theorem indented_list_append (j : Json) (js : List Json) (rest : Text) :
    indented level (.list (j :: js)) ++ rest =
      CodePoint.ofChar '[' :: (lineAt (level + 1) ++ (itemLines (level + 1) (j :: js) ++
        (lineAt level ++ CodePoint.ofChar ']' :: rest))) := by
  have hopen : Text.ofString "[" = [CodePoint.ofChar '['] := by decide
  have hclose : Text.ofString "]" = [CodePoint.ofChar ']'] := by decide
  rw [indented, itemLines, hopen, hclose]
  simp only [List.append_assoc, List.cons_append, List.nil_append]

theorem indented_object_append (m : Text × Json) (ms : List (Text × Json)) (rest : Text) :
    indented level (.object (m :: ms)) ++ rest =
      CodePoint.ofChar '\x7b' :: (lineAt (level + 1) ++ (memberLines (level + 1) (m :: ms) ++
        (lineAt level ++ CodePoint.ofChar '\x7d' :: rest))) := by
  have hopen : Text.ofString "\x7b" = [CodePoint.ofChar '\x7b'] := by decide
  have hclose : Text.ofString "\x7d" = [CodePoint.ofChar '\x7d'] := by decide
  rw [indented, memberLines, hopen, hclose]
  simp only [List.append_assoc, List.cons_append, List.nil_append]

theorem itemLines_single (j : Json) : itemLines level [j] = indented level j := by
  rw [itemLines, indentedItems, List.append_nil]

theorem itemLines_cons_cons (j i : Json) (js : List Json) :
    itemLines level (j :: i :: js) =
      indented level j ++ CodePoint.ofChar ',' :: (lineAt level ++ itemLines level (i :: js)) := by
  have hcomma : Text.ofString "," = [CodePoint.ofChar ','] := by decide
  rw [itemLines, indentedItems, itemLines, hcomma]
  simp only [List.append_assoc, List.cons_append, List.nil_append]

theorem memberLines_single (k : Text) (j : Json) :
    memberLines level [(k, j)] =
      quoted k ++ CodePoint.ofChar ':' :: (Text.ofString " " ++ indented level j) := by
  have hcolon : Text.ofString ": " = CodePoint.ofChar ':' :: Text.ofString " " := by decide
  rw [memberLines, indentedMembers, List.append_nil, hcolon]
  rfl

theorem memberLines_cons_cons (k : Text) (j : Json) (m : Text × Json) (ms : List (Text × Json)) :
    memberLines level ((k, j) :: m :: ms) =
      quoted k ++ CodePoint.ofChar ':' :: (Text.ofString " " ++ (indented level j ++
        CodePoint.ofChar ',' :: (lineAt level ++ memberLines level (m :: ms)))) := by
  have hcolon : Text.ofString ": " = CodePoint.ofChar ':' :: Text.ofString " " := by decide
  have hcomma : Text.ofString "," = [CodePoint.ofChar ','] := by decide
  rw [memberLines, indentedMembers, memberLines, hcolon, hcomma]
  simp only [List.append_assoc, List.cons_append, List.nil_append]

end Lines

section Heads

variable {depth : Nat} (level : Nat)

/-- An indented document starts like the one on one line. -/
theorem indented_eq_cons {j : Json} (h : Fits depth j) :
    ∃ c t, indented level j = c :: t ∧ isGap c = false := by
  obtain ⟨c, t, hw, hc⟩ := write_eq_cons compact h
  cases j with
  | list items =>
    cases items with
    | nil => exact ⟨'[', Text.ofString "]", by rw [indented]; decide, by decide⟩
    | cons j js =>
      have happend := indented_list_append level j js []
      rw [List.append_nil] at happend
      exact ⟨_, _, happend, by decide⟩
  | object members =>
    cases members with
    | nil => exact ⟨'\x7b', Text.ofString "\x7d", by rw [indented]; decide, by decide⟩
    | cons m ms =>
      have happend := indented_object_append level m ms []
      rw [List.append_nil] at happend
      exact ⟨_, _, happend, by decide⟩
  | _ => exact ⟨c, t, by simpa only [indented, write] using hw, hc⟩

theorem skipGap_append_indented {j : Json} (h : Fits depth j) {gap : Text}
    (hgap : gap.all isGap = true) (t : Text) :
    skipGap (gap ++ (indented level j ++ t)) = indented level j ++ t := by
  obtain ⟨c, u, hw, hc⟩ := indented_eq_cons level h
  rw [hw, List.cons_append, skipGap_append hgap hc]

theorem skipGap_append_itemLines {j : Json} {js : List Json} (h : FitItems depth (j :: js))
    {gap : Text} (hgap : gap.all isGap = true) (t : Text) :
    skipGap (gap ++ (itemLines level (j :: js) ++ t)) = itemLines level (j :: js) ++ t := by
  rw [FitItems] at h
  rw [itemLines, List.append_assoc]
  exact skipGap_append_indented level h.1 hgap _

theorem skipGap_append_memberLines (m : Text × Json) (ms : List (Text × Json)) {gap : Text}
    (hgap : gap.all isGap = true) (t : Text) :
    skipGap (gap ++ (memberLines level (m :: ms) ++ t)) = memberLines level (m :: ms) ++ t := by
  obtain ⟨k, j⟩ := m
  rw [memberLines, List.append_assoc, quoted_append]
  exact skipGap_append hgap (by decide) _

end Heads

section Documents


mutual

/-- What is written of a document that fits is a document, at every level and whatever stands behind
it. -/
theorem document_indented :
    ∀ (j : Json) (depth level : Nat) (rest : Text), Fits depth j →
      Document digitLimit depth (indented level j ++ rest) (readBack j) rest
  | .null, depth, level, rest, _ => by
    rw [indented, readBack]
    exact document_word (by simp [words])
  | .bool true, depth, level, rest, _ => by
    rw [indented, readBack, truth, if_pos rfl]
    exact document_word (by simp [words])
  | .bool false, depth, level, rest, _ => by
    rw [indented, readBack, truth, if_neg Bool.false_ne_true]
    exact document_word (by simp [words])
  | .int n, depth, level, rest, h => by
    rw [Fits] at h
    rw [indented, readBack]
    exact document_int h
  | .real _, _, _, _, h => by
    simp [Fits] at h
  | .text t, depth, level, rest, _ => by
    rw [indented, readBack]
    exact .of_atom (.text (quoted_readBack t rest))
  | .list _, 0, _, _, h => by
    simp [Fits] at h
  | .list [], depth + 1, level, rest, _ => by
    have hsigns : Text.ofString "[]" = [CodePoint.ofChar '[', CodePoint.ofChar ']'] := by decide
    rw [indented, readBack, readBackItems, hsigns]
    exact Or.inr (.emptyList (skipGap_cons (by decide) rest))
  | .list (j :: js), depth + 1, level, rest, h => by
    rw [Fits] at h
    have hitems := items_indented (j :: js) depth (level + 1) (lineAt level) rest (by simp)
      (isGap_lineAt level) h
    rw [indented_list_append, readBack]
    refine Or.inr (.list ?_)
    rw [skipGap_append_itemLines (level + 1) h (isGap_lineAt (level + 1))]
    exact hitems
  | .object _, 0, _, _, h => by
    simp [Fits] at h
  | .object [], depth + 1, level, rest, _ => by
    have hsigns : Text.ofString "\x7b\x7d" =
        [CodePoint.ofChar '\x7b', CodePoint.ofChar '\x7d'] := by
      decide
    rw [indented, readBack, readBackMembers, hsigns]
    exact Or.inr (.emptyObject (skipGap_cons (by decide) rest))
  | .object (m :: ms), depth + 1, level, rest, h => by
    rw [Fits] at h
    have hmembers := members_indented (m :: ms) depth (level + 1) (lineAt level) rest (by simp)
      (isGap_lineAt level) h
    rw [indented_object_append, readBack]
    refine Or.inr (.object ?_)
    rw [skipGap_append_memberLines (level + 1) m ms (isGap_lineAt (level + 1))]
    exact hmembers

theorem items_indented :
    ∀ (js : List Json) (depth level : Nat) (gap rest : Text), js ≠ [] → gap.all isGap = true →
      FitItems depth js →
      Items (Document digitLimit depth)
        (itemLines level js ++ (gap ++ CodePoint.ofChar ']' :: rest)) (readBackItems js) rest
  | [], _, _, _, _, h, _, _ => absurd rfl h
  | [j], depth, level, gap, rest, _, hgap, h => by
    simp only [FitItems] at h
    rw [itemLines_single]
    exact .last (document_indented j depth level _ h.1) (skipGap_append hgap (by decide) rest)
  | j :: i :: js, depth, level, gap, rest, _, hgap, h => by
    rw [FitItems] at h
    have hmore := items_indented (i :: js) depth level gap rest (by simp) hgap h.2
    rw [itemLines_cons_cons, List.append_assoc, List.cons_append, List.append_assoc,
      readBackItems]
    refine .next (document_indented j depth level _ h.1) (skipGap_cons (by decide) _) ?_
    rw [skipGap_append_itemLines level h.2 (isGap_lineAt level)]
    exact hmore

theorem members_indented :
    ∀ (ms : List (Text × Json)) (depth level : Nat) (gap rest : Text), ms ≠ [] →
      gap.all isGap = true → FitMembers depth ms →
      Members (Document digitLimit depth)
        (memberLines level ms ++ (gap ++ CodePoint.ofChar '\x7d' :: rest)) (readBackMembers ms) rest
  | [], _, _, _, _, h, _, _ => absurd rfl h
  | [(k, j)], depth, level, gap, rest, _, hgap, h => by
    simp only [FitMembers] at h
    have hj := document_indented j depth level (gap ++ CodePoint.ofChar '\x7d' :: rest) h.1
    rw [memberLines_single, List.append_assoc, List.cons_append, List.append_assoc]
    refine .last (quoted_readBack k _) (skipGap_cons (by decide) _) ?_
      (skipGap_append hgap (by decide) rest)
    rw [skipGap_append_indented level h.1 (by decide)]
    exact hj
  | (k, j) :: m :: ms, depth, level, gap, rest, _, hgap, h => by
    rw [FitMembers] at h
    have hmore := members_indented (m :: ms) depth level gap rest (by simp) hgap h.2
    rw [memberLines_cons_cons, List.append_assoc, List.cons_append, List.append_assoc,
      List.append_assoc, List.cons_append, List.append_assoc, readBackMembers]
    have hj := document_indented j depth level (CodePoint.ofChar ',' :: (lineAt level ++
      (memberLines level (m :: ms) ++ (gap ++ CodePoint.ofChar '\x7d' :: rest)))) h.1
    have hblank : (Text.ofString " ").all isGap = true := by decide
    rw [← skipGap_append_indented level h.1 hblank] at hj
    refine .next (quoted_readBack k _) (skipGap_cons (by decide) _) hj
      (skipGap_cons (by decide) _) ?_
    rw [skipGap_append_memberLines level m ms (isGap_lineAt level)]
    exact hmore

end

/-- A legible document is the document of its indented text. -/
theorem isDocumentWithin_indented {depth : Nat} (level : Nat) {j : Json} (h : IsLegible depth j) :
    IsDocumentWithin digitLimit depth (indented level j) j := by
  obtain ⟨hfit, hback⟩ := fits_of_isLegible j depth h
  have hgap := skipGap_append_indented level hfit isGap_nil []
  have hdocument := document_indented j depth level [] hfit
  rw [List.nil_append, List.append_nil] at hgap
  rw [List.append_nil, hback] at hdocument
  exact ⟨[], hgap.symm ▸ hdocument, rfl⟩

end Documents

end Json
end CrossClusterKeys
