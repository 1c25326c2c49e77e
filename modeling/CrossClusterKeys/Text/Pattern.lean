import CrossClusterKeys.Text.Basic

/-!
# Patterns of texts

A pattern is a regular expression as far as the names of settings need one: anchors, fixed texts,
runs of code points from a bracket, groups and sequences.

**Meaning.**  A pattern matches a part of a text, and whether it does depends on what stands before
and after that part: the anchor at the start wants nothing before it, the anchor at the end nothing
behind it but a final line feed.  `Matches` says which parts a pattern can match and what its groups
capture; a full match leaves nothing before and nothing behind.

**Results.**
* `matches_start`, `matches_stop`, `matches_literal`, `matches_oneOrMore`, `matches_group`,
  `matches_seq`: what each kind of pattern matches.
-/

namespace CrossClusterKeys

/-- What may stand in a bracket. -/
inductive BracketItem
  /-- Letters, digits and the underscore, of ASCII only. -/
  | word
  | point (c : CodePoint)

/-- Whether a code point is among those an item stands for. -/
def BracketItem.Admits : BracketItem → CodePoint → Prop
  | word, c => ∃ ch : Char, c = CodePoint.ofChar ch ∧ (ch.isAlphanum = true ∨ ch = '_')
  | point d, c => c = d

/-- A regular expression. -/
inductive Pattern
  | start
  | stop
  | literal (t : Text)
  /-- One code point of the bracket or more. -/
  | oneOrMore (bracket : List BracketItem)
  | group (p : Pattern)
  | seq (p q : Pattern)

namespace Pattern

/-- Between `before` and `after` the pattern can match a part of a text, and these are the parts its
groups capture. -/
inductive Matches : Pattern → Text → Text → Text → List Text → Prop
  | start {after : Text} : Matches start [] [] after []
  | stop {before : Text} : Matches stop before [] [] []
  | stopBeforeLineFeed {before : Text} : Matches stop before [] [CodePoint.ofChar '\n'] []
  | literal {t before after : Text} : Matches (literal t) before t after []
  | oneOrMore {bracket : List BracketItem} {before t after : Text} (hne : t ≠ [])
      (hall : ∀ c ∈ t, ∃ i ∈ bracket, i.Admits c) : Matches (oneOrMore bracket) before t after []
  | group {p : Pattern} {before t after : Text} {captures : List Text}
      (h : Matches p before t after captures) : Matches (group p) before t after (t :: captures)
  | seq {p q : Pattern} {before s t after : Text} {captures captures' : List Text}
      (hp : Matches p before s (t ++ after) captures)
      (hq : Matches q (before ++ s) t after captures') :
      Matches (seq p q) before (s ++ t) after (captures ++ captures')

/-- The pattern matches the whole text. -/
def FullMatch (p : Pattern) (t : Text) (captures : List Text) : Prop :=
  p.Matches [] t [] captures

variable {p q : Pattern} {before t after : Text} {captures : List Text}

theorem matches_start :
    Matches start before t after captures ↔ before = [] ∧ t = [] ∧ captures = [] := by
  constructor
  · intro h
    cases h
    exact ⟨rfl, rfl, rfl⟩
  · rintro ⟨rfl, rfl, rfl⟩
    exact .start

theorem matches_stop :
    Matches stop before t after captures ↔
      t = [] ∧ (after = [] ∨ after = [CodePoint.ofChar '\n']) ∧ captures = [] := by
  constructor
  · intro h
    cases h with
    | stop => exact ⟨rfl, Or.inl rfl, rfl⟩
    | stopBeforeLineFeed => exact ⟨rfl, Or.inr rfl, rfl⟩
  · rintro ⟨rfl, rfl | rfl, rfl⟩
    · exact .stop
    · exact .stopBeforeLineFeed

theorem matches_literal {u : Text} :
    Matches (literal u) before t after captures ↔ t = u ∧ captures = [] := by
  constructor
  · intro h
    cases h
    exact ⟨rfl, rfl⟩
  · rintro ⟨rfl, rfl⟩
    exact .literal

theorem matches_oneOrMore {bracket : List BracketItem} :
    Matches (oneOrMore bracket) before t after captures ↔
      t ≠ [] ∧ (∀ c ∈ t, ∃ i ∈ bracket, i.Admits c) ∧ captures = [] := by
  constructor
  · intro h
    cases h with
    | oneOrMore hne hall => exact ⟨hne, hall, rfl⟩
  · rintro ⟨hne, hall, rfl⟩
    exact .oneOrMore hne hall

theorem matches_group :
    Matches (group p) before t after captures ↔
      ∃ inner, captures = t :: inner ∧ Matches p before t after inner := by
  constructor
  · intro h
    cases h with
    | group h => exact ⟨_, rfl, h⟩
  · rintro ⟨inner, rfl, h⟩
    exact .group h

theorem matches_seq :
    Matches (seq p q) before t after captures ↔
      ∃ s u cs cs', t = s ++ u ∧ captures = cs ++ cs' ∧ Matches p before s (u ++ after) cs ∧
        Matches q (before ++ s) u after cs' := by
  constructor
  · intro h
    cases h with
    | seq hp hq => exact ⟨_, _, _, _, rfl, rfl, hp, hq⟩
  · rintro ⟨s, u, cs, cs', rfl, rfl, hp, hq⟩
    exact .seq hp hq

/-- A fixed text in front is taken off the text. -/
theorem matches_literal_seq {u : Text} :
    Matches (seq (literal u) q) before t after captures ↔
      ∃ v, t = u ++ v ∧ Matches q (before ++ u) v after captures := by
  rw [matches_seq]
  constructor
  · rintro ⟨s, v, cs, cs', rfl, rfl, hp, hq⟩
    obtain ⟨rfl, rfl⟩ := matches_literal.1 hp
    exact ⟨v, rfl, hq⟩
  · rintro ⟨v, rfl, hq⟩
    exact ⟨u, v, [], captures, rfl, rfl, .literal, hq⟩

end Pattern
end CrossClusterKeys
