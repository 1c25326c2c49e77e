/-!
# Text as a list of code points

A text is a list of code points, and every code point may occur in it, the
surrogates `U+D800` to `U+DFFF` included.  Key IDs, aliases and credentials are
such texts: a credential that is not valid UTF-8 is kept as lone surrogates.

**Order.**  Texts are ordered by their code points, first difference first, and a
text comes before its extensions.  Sorted output always means this order.

**Results.**
* `Text.le_total`, `Text.le_trans`, `Text.le_antisymm`: the order is linear.
-/

namespace CrossClusterKeys

/-- A code point, surrogate or not. -/
@[ext]
structure CodePoint where
  /-- The number of the code point. -/
  val : Nat
  /-- Code points end at `U+10FFFF`. -/
  isLt : val < 0x110000
  deriving DecidableEq, Repr

namespace CodePoint

/-- The code point of a character. -/
def ofChar (c : Char) : CodePoint :=
  ⟨c.toNat, by
    rcases c.valid with h | ⟨_, h⟩
    · exact Nat.lt_trans h (by decide)
    · exact h⟩

instance : Coe Char CodePoint := ⟨ofChar⟩

/-- The code point with the number `n`, and `U+0000` for a number out of range. -/
def ofNat (n : Nat) : CodePoint :=
  if h : n < 0x110000 then ⟨n, h⟩ else ⟨0, by decide⟩

instance : Inhabited CodePoint := ⟨ofNat 0⟩

/-- High surrogates open a pair of UTF-16 units. -/
def isHighSurrogate (c : CodePoint) : Bool := 0xD800 ≤ c.val && c.val < 0xDC00

/-- Low surrogates close a pair of UTF-16 units. -/
def isLowSurrogate (c : CodePoint) : Bool := 0xDC00 ≤ c.val && c.val < 0xE000

/-- Surrogates are no characters. -/
def isSurrogate (c : CodePoint) : Bool := 0xD800 ≤ c.val && c.val < 0xE000

/-- The character of a code point, none for a surrogate. -/
def toChar? (c : CodePoint) : Option Char :=
  if c.isSurrogate then none else some (Char.ofNat c.val)

/-- The value of an ASCII decimal digit. -/
def digit? (c : CodePoint) : Option Nat :=
  if 48 ≤ c.val && c.val ≤ 57 then some (c.val - 48) else none

/-- ASCII decimal digits. -/
def isDigit (c : CodePoint) : Bool := 48 ≤ c.val && c.val ≤ 57

/-- The value of an ASCII hexadecimal digit of either case. -/
def hexDigit? (c : CodePoint) : Option Nat :=
  if 48 ≤ c.val && c.val ≤ 57 then some (c.val - 48)
  else if 97 ≤ c.val && c.val ≤ 102 then some (c.val - 87)
  else if 65 ≤ c.val && c.val ≤ 70 then some (c.val - 55)
  else none

/-- Code points of the ASCII block. -/
def isAscii (c : CodePoint) : Bool := c.val < 128

end CodePoint

/-- A text: any list of code points. -/
abbrev Text := List CodePoint

namespace Text

/-- The text of a string. -/
def ofString (s : String) : Text := s.toList.map CodePoint.ofChar

instance : Coe String Text := ⟨ofString⟩

/-- The string of a text without surrogates. -/
def toString? (t : Text) : Option String :=
  (t.mapM CodePoint.toChar?).map String.ofList

/-- Whether `s` is a text without surrogates. -/
def isWellFormed (t : Text) : Bool := t.all fun c => !c.isSurrogate

/-- The order of texts: code point by code point, shorter first. -/
def le : Text → Text → Bool
  | [], _ => true
  | _ :: _, [] => false
  | a :: s, b :: t => a.val < b.val || (a.val == b.val && le s t)

theorem le_refl (t : Text) : le t t = true := by
  induction t with
  | nil => rfl
  | cons c t ih => simp [le, ih]

theorem le_cons_cons (a b : CodePoint) (s t : Text) :
    le (a :: s) (b :: t) = true ↔ a.val < b.val ∨ (a.val = b.val ∧ le s t = true) := by
  simp [le]

theorem le_total (s t : Text) : le s t = true ∨ le t s = true := by
  induction s generalizing t with
  | nil => simp [le]
  | cons a s ih =>
    cases t with
    | nil => simp [le]
    | cons b t => rcases ih t with h | h <;> grind [le_cons_cons]

theorem le_trans {s t u : Text} (hst : le s t = true) (htu : le t u = true) : le s u = true := by
  induction s generalizing t u with
  | nil => simp [le]
  | cons a s ih =>
    cases t with
    | nil => simp [le] at hst
    | cons b t =>
      cases u with
      | nil => simp [le] at htu
      | cons c u =>
        have := @ih t u
        grind [le_cons_cons]

theorem le_antisymm {s t : Text} (hst : le s t = true) (hts : le t s = true) : s = t := by
  induction s generalizing t with
  | nil => cases t with
    | nil => rfl
    | cons => simp [le] at hts
  | cons a s ih =>
    cases t with
    | nil => simp [le] at hst
    | cons b t =>
      have := @ih t
      have : a.val = b.val → a = b := CodePoint.ext
      grind [le_cons_cons]

/-- The texts in order. -/
def sort (ts : List Text) : List Text := ts.mergeSort le

/-- What follows `start` at the head of the text. -/
def after? (start : Text) : Text → Option Text
  | t => if start.isPrefixOf t then some (t.drop start.length) else none

/-- What precedes `stop` at the end of the text. -/
def before? (stop : Text) : Text → Option Text
  | t => if stop.isSuffixOf t then some (t.take (t.length - stop.length)) else none

/-- The parts joined with `separator` between them. -/
def join (separator : Text) : List Text → Text
  | [] => []
  | [t] => t
  | t :: u :: ts => t ++ separator ++ join separator (u :: ts)

/-- The text cut at its first occurrence of `c`, which belongs to neither half. -/
def cut? (c : CodePoint) : Text → Option (Text × Text)
  | [] => none
  | d :: t => if d = c then some ([], t) else (cut? c t).map fun p => (d :: p.1, p.2)

/-- The lines of a text: what stands between its line feeds. -/
def lines : Text → List Text
  | [] => [[]]
  | c :: t =>
    if c = '\n' then [] :: lines t
    else match lines t with
      | [] => [[c]]
      | l :: ls => (c :: l) :: ls

/-- Copies of `c` before the text, up to the width `n`. -/
def padLeft (c : CodePoint) (n : Nat) (t : Text) : Text :=
  List.replicate (n - t.length) c ++ t

/-- Copies of `c` after the text, up to the width `n`. -/
def padRight (c : CodePoint) (n : Nat) (t : Text) : Text :=
  t ++ List.replicate (n - t.length) c

end Text
end CrossClusterKeys
