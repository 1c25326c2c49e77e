import CrossClusterKeys.Number.Binary64
import CrossClusterKeys.Text.Digits

/-!
# Decimal texts of binary64 numbers

**Writing.**  A finite number is written with the fewest significant digits that read back as the
same number; of two such texts the nearer one is taken.  The point is placed positionally for
numbers from `1e-4` to below `1e16` and by an exponent of at least two digits otherwise; a whole
number keeps `.0`.

**Rounded writing.**  `fixed`, `scientific` and `general` write a given number of digits, the
exact value being rounded with ties to even.

**Reading.**  A sign, digits with at most one point, an exponent; or `inf`, `infinity` and `nan`
in any case.
-/

namespace CrossClusterKeys
namespace Decimal

/-- Digits and a power of ten: the number `digits * 10 ^ power`. -/
structure Scaled where
  digits : Nat
  power : Int
  deriving DecidableEq, Repr

/-- The ratio `num / den` in units of `10 ^ u`. -/
def inUnits (num den : Nat) (u : Int) : Nat × Nat :=
  if 0 ≤ u then (num, den * Nat.pow 10 u.toNat) else (num * Nat.pow 10 (-u).toNat, den)

/-- Whether `10 ^ p ≤ num / den`. -/
def reaches (num den : Nat) (p : Int) : Bool :=
  let (n, d) := inUnits num den p
  d ≤ n

/-- The greatest power of ten that does not exceed the positive ratio `num / den`. -/
def leadingPower (num den : Nat) : Int :=
  let guess : Int := (((num.log2 : Int) - den.log2) * 30103) / 100000
  if reaches num den (guess + 1) then
    if reaches num den (guess + 2) then guess + 2 else guess + 1
  else if reaches num den guess then guess
  else guess - 1

/-- Digits without trailing zeros; `fuel` bounds their number. -/
def dropZeros : Nat → Scaled → Scaled
  | 0, s => s
  | fuel + 1, s =>
    if s.digits ≠ 0 && s.digits % 10 = 0 then dropZeros fuel ⟨s.digits / 10, s.power + 1⟩ else s

/-- The neighbour of `num / den` on the grid of `10 ^ u` that reads back as `x`, the nearer one
if both do. -/
def onGrid? (x : Binary64) (num den : Nat) (u : Int) : Option Scaled :=
  let (n, d) := inUnits num den u
  let low : Scaled := ⟨n / d, u⟩
  let high : Scaled := ⟨n / d + 1, u⟩
  let reads (s : Scaled) : Bool := Binary64.ofDecimal false s.digits s.power = x
  let nearLow := 2 * (n % d) < d || (2 * (n % d) = d && n / d % 2 = 0)
  match reads low, reads high with
  | true, true => some (if nearLow then low else high)
  | true, false => some low
  | false, true => some high
  | false, false => none

/-- The shortest digits of the positive ratio `num / den`, which rounds to `x`: the first of the
grids of `count`, `count + 1`, … digits that has a point reading back. -/
def shortestFrom (x : Binary64) (num den : Nat) (p : Int) : Nat → Nat → Scaled
  | 0, count =>
    let (n, d) := inUnits num den (p - count + 1)
    ⟨n / d, p - count + 1⟩
  | fuel + 1, count =>
    match onGrid? x num den (p - count + 1) with
    | some s => s
    | none => shortestFrom x num den p fuel (count + 1)

/-- The fewest digits that read back as `m * 2 ^ e`. -/
def shortest (m : Nat) (e : Int) : Scaled :=
  if m = 0 then ⟨0, 0⟩
  else
    let (n, d) := Binary64.fraction false m e
    let x := Binary64.ofRatio false n.natAbs d
    dropZeros 20 (shortestFrom x n.natAbs d (leadingPower n.natAbs d) 17 1)

/-- How a decimal text is laid out. -/
structure Style where
  /-- Positional from `10 ^ positionalFrom` on. -/
  positionalFrom : Int
  /-- Positional below `10 ^ positionalBelow`. -/
  positionalBelow : Int
  /-- The least number of digits of an exponent. -/
  exponentWidth : Nat
  /-- The text of no number. -/
  nan : Text
  /-- The text of positive infinity. -/
  infinity : Text

/-- Numbers shown in messages. -/
def shown : Style := ⟨-4, 16, 2, "nan", "inf"⟩

/-- Numbers written in JSON documents. -/
def written : Style := ⟨-4, 16, 2, "NaN", "Infinity"⟩

/-- An exponent with its sign. -/
def exponentText (width : Nat) (e : Int) : Text :=
  let sign : Text := if e < 0 then "-" else "+"
  sign ++ Text.padLeft '0' width (Digits.ofNat e.natAbs)

/-- Digits with the point after the first `before` of them. -/
def pointed (ds : Text) (before : Int) : Text :=
  if before ≤ 0 then "0." ++ List.replicate (-before).toNat (↑ '0' : CodePoint) ++ ds
  else
    let k := before.toNat
    if ds.length ≤ k then Text.padRight '0' k ds ++ ".0"
    else ds.take k ++ "." ++ ds.drop k

/-- The digits behind the point, and the point if there are any. -/
def fraction (ds : Text) : Text := if ds.isEmpty then [] else "." ++ ds

/-- The digits laid out in a style. -/
def layOut (style : Style) (s : Scaled) : Text :=
  let ds := Digits.ofNat s.digits
  let before : Int := ds.length + s.power
  if s.digits = 0 then "0.0"
  else if style.positionalFrom < before && before ≤ style.positionalBelow then pointed ds before
  else
    ds.take 1 ++ fraction (ds.drop 1) ++ "e" ++ exponentText style.exponentWidth (before - 1)

/-- A minus sign in front of a negative number. -/
def signed (negative : Bool) (t : Text) : Text := if negative then "-" ++ t else t

/-- The text of a number in a style. -/
def text (style : Style) : Binary64 → Text
  | .nan => style.nan
  | .infinite negative => signed negative style.infinity
  | .finite negative m e => signed negative (layOut style (shortest m e))

/-- The digits of `num / den` with `places` digits after the point. -/
def fixedDigits (num den places : Nat) : Text :=
  let q := Binary64.roundDiv (num * Nat.pow 10 places) den
  let ds := Text.padLeft '0' (places + 1) (Digits.ofNat q)
  let whole := ds.take (ds.length - places)
  if places = 0 then whole else whole ++ "." ++ ds.drop (ds.length - places)

/-- The significant digits of `num / den`, one more than `places` of them, and the power of ten of
the first. -/
def significant (num den places : Nat) : Text × Int :=
  if num = 0 then (List.replicate (places + 1) (↑ '0' : CodePoint), 0)
  else
    let p := leadingPower num den
    let (n, d) := inUnits num den (p - places)
    let ds := Digits.ofNat (Binary64.roundDiv n d)
    if places + 1 < ds.length then (ds.take (places + 1), p + 1) else (ds, p)

/-- The digits of `num / den` in scientific notation. -/
def scientificDigits (num den places : Nat) : Text :=
  let (ds, p) := significant num den places
  ds.take 1 ++ fraction (ds.drop 1) ++ "e" ++ exponentText 2 p

/-- A decimal text without zeros, and without a point, at the end of its fraction. -/
def trimFraction (t : Text) : Text :=
  if t.contains '.' then
    let u : Text := (t.reverse.dropWhile fun c : CodePoint => c = '0').reverse
    match Text.before? "." u with
    | some v => v
    | none => u
  else t

/-- The digits of `num / den` in the shorter of the two notations, with `digits` significant ones;
zeros at the end are kept if `full`. -/
def generalDigits (full : Bool) (num den digits : Nat) : Text :=
  let count := max 1 digits
  let p := (significant num den (count - 1)).2
  if -4 ≤ p && p < count then
    let t := fixedDigits num den ((count : Int) - 1 - p).toNat
    if full then t else trimFraction t
  else
    let (ds, q) := significant num den (count - 1)
    let mantissa := ds.take 1 ++ fraction (ds.drop 1)
    (if full then mantissa else trimFraction mantissa) ++ "e" ++ exponentText 2 q

/-- The digits at the head of a text, and the rest. -/
def spanDigits (t : Text) : Text × Text := t.span CodePoint.isDigit

/-- The number that digits stand for. -/
def valueOf (ds : Text) : Nat := Digits.value 10 (ds.map fun c => c.val - 48)

/-- The exponent of a decimal text, zero if there is none, which has to end the text. -/
def exponent? : Text → Option Int
  | [] => some 0
  | c :: t =>
    if c = 'e' || c = 'E' then
      let (negative, ds) : Bool × Text := match t with
        | s :: ds => if s = '-' then (true, ds) else if s = '+' then (false, ds) else (false, t)
        | [] => (false, [])
      if ds.isEmpty || !ds.all CodePoint.isDigit then none
      else some (if negative then -(valueOf ds : Int) else valueOf ds)
    else none

/-- The words for what is no finite number. -/
def word? (negative : Bool) (t : Text) : Option Binary64 :=
  let small : Text := t.map fun c => if 65 ≤ c.val && c.val ≤ 90 then .ofNat (c.val + 32) else c
  if small = "nan" then some .nan
  else if small = "inf" || small = "infinity" then some (.infinite negative)
  else none

/-- The number of a text without sign. -/
def unsigned? (negative : Bool) (t : Text) : Option Binary64 :=
  let (whole, rest) := spanDigits t
  let (part, rest) := match rest with
    | c :: more => if c = '.' then spanDigits more else ([], rest)
    | [] => ([], [])
  if whole.isEmpty && part.isEmpty then word? negative t
  else (exponent? rest).map fun e =>
    Binary64.ofDecimal negative (valueOf (whole ++ part)) (e - part.length)

/-- The number of a decimal text. -/
def read? : Text → Option Binary64
  | [] => none
  | c :: t =>
    if c = '-' then unsigned? true t
    else if c = '+' then unsigned? false t
    else unsigned? false (c :: t)

end Decimal
end CrossClusterKeys
