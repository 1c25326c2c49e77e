/-!
# Numbers of 64 binary digits, exactly

Time-outs, pauses and logged numbers are IEEE 754 binary64 numbers.  Here such a number is its
exact value: a sign, a natural significand and a power of two, or an infinity, or no number.

**Rule.**  A ratio is rounded to the nearest number of 53 significant bits, ties to the even
significand; below `2 ^ (-1022)` the steps keep their width `2 ^ (-1074)`, and from
`2 ^ 1024` on the result is infinite.

**Results.**
* `lt`, `le` compare exact values; a comparison with `nan` is false, in either direction.
-/

namespace CrossClusterKeys

/-- A binary64 number by its exact value. -/
inductive Binary64
  | nan
  | infinite (negative : Bool)
  /-- The number `significand * 2 ^ exponent`, negated if `negative`. -/
  | finite (negative : Bool) (significand : Nat) (exponent : Int)
  deriving DecidableEq, Repr

namespace Binary64

/-- The quotient rounded to the nearest natural number, ties to even. -/
def roundDiv (num den : Nat) : Nat :=
  let q := num / den
  let r := num % den
  if 2 * r < den then q
  else if den < 2 * r then q + 1
  else if q % 2 = 0 then q else q + 1

/-- The ratio `num / den`, scaled by `2 ^ (-e)`, as a ratio of naturals. -/
def scaled (num den : Nat) (e : Int) : Nat × Nat :=
  if 0 ≤ e then (num, den <<< e.toNat) else (num <<< (-e).toNat, den)

/-- The exponent with which `num / den` has a significand of 53 bits, but at least `-1074`. -/
def exponentFor (num den : Nat) : Int :=
  let guess : Int := num.log2 - den.log2 - 52
  let (n, d) := scaled num den guess
  let e := if n / d < Nat.pow 2 52 then guess - 1 else guess
  max e (-1074)

/-- The number nearest to `num / den`, negated if `negative`. -/
def ofRatio (negative : Bool) (num den : Nat) : Binary64 :=
  if num = 0 || den = 0 then .finite negative 0 0
  else
    let e := exponentFor num den
    let (n, d) := scaled num den e
    let m := roundDiv n d
    let (m, e) := if m = Nat.pow 2 53 then (Nat.pow 2 52, e + 1) else (m, e)
    if 971 < e then .infinite negative else .finite negative m e

/-- The number nearest to `digits * 10 ^ power`, negated if `negative`.  Powers far out of range
are settled by the number of digits, without computing them. -/
def ofDecimal (negative : Bool) (digits : Nat) (power : Int) : Binary64 :=
  if digits = 0 then .finite negative 0 0
  else
    let magnitude : Int := digits.log2 / 3 + 1 + power
    if 0 ≤ power && 400 < power then .infinite negative
    else if magnitude < -400 then .finite negative 0 0
    else if 0 ≤ power then ofRatio negative (digits * Nat.pow 10 power.toNat) 1
    else ofRatio negative digits (Nat.pow 10 (-power).toNat)

/-- The number nearest to an integer. -/
def ofInt (n : Int) : Binary64 := ofRatio (n < 0) n.natAbs 1

/-- The value of a finite number as a signed numerator over a denominator. -/
def fraction (negative : Bool) (m : Nat) (e : Int) : Int × Nat :=
  let n : Int := if 0 ≤ e then m <<< e.toNat else m
  let d : Nat := if 0 ≤ e then 1 else 1 <<< (-e).toNat
  (if negative then -n else n, d)

/-- Strictly less. -/
def lt : Binary64 → Binary64 → Bool
  | .nan, _ => false
  | _, .nan => false
  | .infinite s, .infinite t => s && !t
  | .infinite s, .finite .. => s
  | .finite .., .infinite t => !t
  | .finite s m e, .finite t k f =>
    let (a, b) := fraction s m e
    let (c, d) := fraction t k f
    a * d < c * b

/-- Less or equal. -/
def le : Binary64 → Binary64 → Bool
  | .nan, _ => false
  | _, .nan => false
  | .infinite s, .infinite t => s || !t
  | .infinite s, .finite .. => s
  | .finite .., .infinite t => !t
  | .finite s m e, .finite t k f =>
    let (a, b) := fraction s m e
    let (c, d) := fraction t k f
    a * d ≤ c * b

/-- Whether the number is zero, of either sign. -/
def isZero : Binary64 → Bool
  | .finite _ m _ => m = 0
  | _ => false

/-- The number times a power of two. -/
def shift (x : Binary64) (k : Nat) : Binary64 :=
  match x with
  | .finite negative m e =>
    let (n, d) := fraction false m (e + k)
    ofRatio negative n.natAbs d
  | y => y

/-- The number times a natural number, rounded. -/
def mulNat (x : Binary64) (k : Nat) : Binary64 :=
  match x with
  | .finite negative m e =>
    let (n, d) := fraction false m e
    ofRatio negative (n.natAbs * k) d
  | y => y

/-- The nearest integer, ties to even; none for `nan` and the infinities. -/
def round? : Binary64 → Option Int
  | .finite negative m e =>
    let (n, d) := fraction false m e
    let q : Int := roundDiv n.natAbs d
    some (if negative then -q else q)
  | _ => none

/-- The integer part, toward zero; none for `nan` and the infinities. -/
def truncate? : Binary64 → Option Int
  | .finite negative m e =>
    let (n, d) := fraction false m e
    let q : Int := n.natAbs / d
    some (if negative then -q else q)
  | _ => none

/-- The part behind the point, with the sign of the number. -/
def fractional : Binary64 → Binary64
  | .finite negative m e =>
    let (n, d) := fraction false m e
    ofRatio negative (n.natAbs % d) d
  | x => x

end Binary64
end CrossClusterKeys
