import CrossClusterKeys.Failure
import CrossClusterKeys.Number.Decimal
import CrossClusterKeys.Text.Blank

/-!
# Values of settings

A setting is a text that stands for a choice, a truth value or a number.

**Rules.**
* Truth values are told by one of twelve words, in capital or small letters.
* Numbers may have blanks around them and single underscores between digits.
* A whole number may have a plus sign, zeros in front and a fraction of zeros; it has no more than
  4300 digits.
* A bound is checked from above before it is checked from below.  `nan` is within no bound.

**Results.**
* `positive_eq_ok_iff`, `bounded_eq_ok_iff`: what passes the bounds.
-/

namespace CrossClusterKeys
namespace Settings

/-- Why the text of a setting is refused. -/
inductive Refusal
  /-- It is none of the choices. -/
  | choice
  | truth
  | number
  | whole
  | digits
  /-- It has surrogates. -/
  | text
  | most (bound : Nat)
  | moreThan (bound : Nat)
  | least (bound : Nat)
  deriving DecidableEq, Repr

namespace Refusal

/-- The name of a refusal. -/
def kind : Refusal → Text
  | .choice => "literal_error"
  | .truth => "bool_parsing"
  | .number => "float_parsing"
  | .whole => "int_parsing"
  | .digits => "int_parsing_size"
  | .text => "string_unicode"
  | .most _ => "less_than_equal"
  | .moreThan _ => "greater_than"
  | .least _ => "greater_than_equal"

/-- The text of a refusal. -/
def message : Refusal → Text
  | .choice => "Input should be 'kubernetes' or 'memory'"
  | .truth => "Input should be a valid boolean, unable to interpret input"
  | .number => "Input should be a valid number, unable to parse string as a number"
  | .whole => "Input should be a valid integer, unable to parse string as an integer"
  | .digits => "Unable to parse input string as an integer, exceeded maximum size"
  | .text => "Input should be a valid string, unable to parse raw data as a unicode string"
  | .most n => "Input should be less than or equal to " ++ Digits.ofNat n
  | .moreThan n => "Input should be greater than " ++ Digits.ofNat n
  | .least n => "Input should be greater than or equal to " ++ Digits.ofNat n

end Refusal

/-- A text without surrogates. -/
def wellFormed (t : Text) : Except Refusal Text :=
  if t.isWellFormed then .ok t else .error .text

/-- The text with small letters for the capital ones of ASCII. -/
def small (t : Text) : Text :=
  t.map fun c => if 65 ≤ c.val && c.val ≤ 90 then .ofNat (c.val + 32) else c

/-- The words for truth values. -/
def truthWords : List (Text × Bool) :=
  [("0", false), ("f", false), ("n", false), ("no", false), ("off", false), ("false", false),
    ("1", true), ("t", true), ("y", true), ("on", true), ("yes", true), ("true", true)]

/-- The truth value of a text. -/
def truth (t : Text) : Except Refusal Bool := do
  match truthWords.lookup (small (← wellFormed t)) with
  | some b => return b
  | none => throw .truth

/-- Whether underscores stand next to each other. -/
def hasDoubleUnderscore : Text → Bool
  | c :: d :: t => (c = '_' && d = '_') || hasDoubleUnderscore (d :: t)
  | _ => false

/-- The text without underscores; none if there are none, or one stands at an end or next to
another. -/
def withoutUnderscores? (t : Text) : Option Text :=
  let isMark (c : CodePoint) : Bool := c = '_'
  if !t.any isMark || t.head?.any isMark || t.getLast?.any isMark || hasDoubleUnderscore t then
    none
  else some (t.filter fun c => !isMark c)

/-- The number of a text. -/
def number (t : Text) : Except Refusal Binary64 := do
  let t ← wellFormed t
  match Decimal.read? (t.trim CodePoint.isWhiteSpace) with
  | some x => return x
  | none =>
    match (withoutUnderscores? t).bind Decimal.read? with
    | some x => return x
    | none => throw .number

/-- The whole number of digits without zeros in front, with a minus sign below zero. -/
def plainWhole (t : Text) : Except Refusal Int :=
  let (negative, ds) : Bool × Text := match t with
    | c :: u => if c = '-' then (true, u) else (false, t)
    | [] => (false, [])
  if ds.isEmpty || !ds.all CodePoint.isDigit || (1 < ds.length && ds.head? = some ↑ '0') then
    .error .whole
  else if 4300 < ds.length then .error .digits
  else
    let n : Int := Decimal.valueOf ds
    .ok (if negative then -n else n)

/-- The text from its first digit that is no zero, one zero being kept in front of a point or at
the end; none if something other than zeros and underscores stands before that. -/
def afterZeros? (before : CodePoint) : Text → Option Text
  | [] => some [before]
  | c :: t =>
    if c = '0' || c = '_' then afterZeros? c t
    else if c.isDigit then some (c :: t)
    else if c = '.' then some (before :: c :: t)
    else none

/-- The text without zeros in front. -/
def withoutZeros? : Text → Option Text
  | [] => none
  | c :: t =>
    if c = '0' then afterZeros? c t
    else if c.isDigit || c = '-' then some (c :: t)
    else none

/-- The text without a fraction of zeros at its end. -/
def withoutFraction (t : Text) : Text :=
  match Text.cut? '.' t with
  | some (whole, part) =>
    if !part.isEmpty && part.all fun c => c = CodePoint.ofChar '0' then whole else t
  | none => t

/-- The text without a plus sign in front; none if a minus sign follows it. -/
def withoutPlus? (t : Text) : Option Text :=
  match Text.after? "+" t with
  | some u => if u.head? = some ↑ '-' then none else some u
  | none => some t

/-- The text of a whole number as it is read, without what may stand around its digits. -/
def cleaned? (t : Text) : Option Text := do
  let t ← withoutPlus? (t.trim CodePoint.isWhiteSpace)
  let t := withoutFraction (← withoutZeros? t)
  return (withoutUnderscores? t).getD t

/-- The whole number of a text. -/
def whole (t : Text) : Except Refusal Int := do
  let t ← wellFormed t
  match plainWhole t with
  | .error .whole =>
    match cleaned? t with
    | some u => plainWhole u
    | none => throw .whole
  | outcome => outcome

/-- A number above zero and not above `most`. -/
def positive (most : Nat) (x : Binary64) : Except Refusal Binary64 :=
  if !x.le (.ofInt most) then .error (.most most)
  else if !(Binary64.ofInt 0).lt x then .error (.moreThan 0)
  else .ok x

/-- A whole number from `least` to `most`. -/
def bounded (least most : Nat) (n : Int) : Except Refusal Int :=
  if most < n then .error (.most most)
  else if n < least then .error (.least least)
  else .ok n

theorem positive_eq_ok_iff {most : Nat} {x y : Binary64} :
    positive most x = .ok y ↔
      y = x ∧ x.le (.ofInt most) = true ∧ (Binary64.ofInt 0).lt x = true := by
  unfold positive
  generalize x.le (.ofInt most) = atMost
  generalize (Binary64.ofInt 0).lt x = above
  cases atMost with
  | false => simp
  | true =>
    cases above with
    | false => simp
    | true => simp [eq_comm]

theorem bounded_eq_ok_iff (least most : Nat) (n m : Int) :
    bounded least most n = .ok m ↔ m = n ∧ least ≤ n ∧ n ≤ most := by
  unfold bounded
  split
  · simp; omega
  · split
    · simp; omega
    · simp only [Except.ok.injEq]
      omega

end Settings
end CrossClusterKeys
