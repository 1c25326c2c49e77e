import CrossClusterKeys.Text.Digits

/-!
# Base64

Secret data travels as padded Base64.

**Writing.**  Three bytes become four digits; a last group of one or two bytes is filled up with
padding signs.

**Reading.**  Every code point that is neither a digit nor a padding sign is skipped.  A group of
two or three digits is closed by padding signs behind its last digit that fill it to four; a closed
group ends the data, whatever stands behind it.  Padding signs elsewhere are skipped.  Data that
end inside a group are refused, and so is a text with a code point beyond ASCII.

**Results.**
* `digitOf_glyph`: a digit is read back from its sign.
* `bytesOf_digitsOf`: the digits of a byte string stand for that byte string.
-/

namespace CrossClusterKeys
namespace Base64

/-- Why a text is no Base64. -/
inductive Flaw
  | notAscii
  /-- The data end one digit after a whole group; `count` is the number of digits read. -/
  | loneDigit (count : Nat)
  | unpadded
  deriving DecidableEq, Repr

/-- The sign of a digit below 64. -/
def glyph (d : Nat) : CodePoint :=
  if d < 26 then .ofNat (65 + d)
  else if d < 52 then .ofNat (71 + d)
  else if d < 62 then .ofNat (d - 4)
  else if d = 62 then '+'
  else '/'

/-- The digit of a sign. -/
def digitOf? (c : CodePoint) : Option Nat :=
  if 65 ≤ c.val && c.val ≤ 90 then some (c.val - 65)
  else if 97 ≤ c.val && c.val ≤ 122 then some (c.val - 71)
  else if 48 ≤ c.val && c.val ≤ 57 then some (c.val + 4)
  else if c = '+' then some 62
  else if c = '/' then some 63
  else none

theorem digitOf_glyph : ∀ d, d < 64 → digitOf? (glyph d) = some d := by decide

/-- The digits of a byte string; a last group has two or three of them. -/
def digitsOf : List UInt8 → List Nat
  | [] => []
  | [a] => [a.toNat / 4, a.toNat % 4 * 16]
  | [a, b] => [a.toNat / 4, a.toNat % 4 * 16 + b.toNat / 16, b.toNat % 16 * 4]
  | a :: b :: c :: rest =>
    a.toNat / 4 :: (a.toNat % 4 * 16 + b.toNat / 16) :: (b.toNat % 16 * 4 + c.toNat / 64) ::
      c.toNat % 64 :: digitsOf rest

/-- The bytes that digits stand for; a last group of one digit stands for none. -/
def bytesOf : List Nat → List UInt8
  | a :: b :: c :: d :: rest =>
    .ofNat (a * 4 + b / 16) :: .ofNat (b % 16 * 16 + c / 4) :: .ofNat (c % 4 * 64 + d) ::
      bytesOf rest
  | [a, b, c] => [.ofNat (a * 4 + b / 16), .ofNat (b % 16 * 16 + c / 4)]
  | [a, b] => [.ofNat (a * 4 + b / 16)]
  | _ => []

theorem bytesOf_digitsOf (bs : List UInt8) : bytesOf (digitsOf bs) = bs := by
  induction bs using digitsOf.induct with
  | case1 => rfl
  | case2 a =>
    have ha := a.toNat_lt
    simp only [digitsOf, bytesOf, List.cons.injEq, and_true]
    apply UInt8.toNat_inj.1
    rw [UInt8.toNat_ofNat']
    omega
  | case3 a b =>
    have ha := a.toNat_lt
    have hb := b.toNat_lt
    simp only [digitsOf, bytesOf, List.cons.injEq, and_true]
    refine ⟨UInt8.toNat_inj.1 ?_, UInt8.toNat_inj.1 ?_⟩ <;> rw [UInt8.toNat_ofNat'] <;> omega
  | case4 a b c rest ih =>
    have ha := a.toNat_lt
    have hb := b.toNat_lt
    have hc := c.toNat_lt
    simp only [digitsOf, bytesOf, List.cons.injEq, ih, and_true]
    refine ⟨UInt8.toNat_inj.1 ?_, UInt8.toNat_inj.1 ?_, UInt8.toNat_inj.1 ?_⟩ <;>
      rw [UInt8.toNat_ofNat'] <;> omega

/-- The padding signs that fill `count` digits to whole groups. -/
def padding (count : Nat) : Text :=
  match count % 4 with
  | 2 => "=="
  | 3 => "="
  | _ => []

/-- The Base64 text of a byte string. -/
def encode (bs : List UInt8) : Text :=
  (digitsOf bs).map glyph ++ padding (digitsOf bs).length

/-- The digits of a text up to its first closed group, with whether there is one; `count` digits
were read before, and `pads` padding signs since the last of them. -/
def scan (count pads : Nat) : Text → List Nat × Bool
  | [] => ([], false)
  | c :: rest =>
    if c = '=' then
      if 2 ≤ count % 4 then
        if 4 ≤ count % 4 + (pads + 1) then ([], true) else scan count (pads + 1) rest
      else scan count pads rest
    else match digitOf? c with
      | some d =>
        let (ds, closed) := scan (count + 1) 0 rest
        (d :: ds, closed)
      | none => scan count pads rest

/-- The byte string of a Base64 text. -/
def decode (t : Text) : Except Flaw (List UInt8) :=
  if t.all CodePoint.isAscii then
    let (ds, closed) := scan 0 0 t
    if closed || ds.length % 4 = 0 then .ok (bytesOf ds)
    else if ds.length % 4 = 1 then .error (.loneDigit ds.length)
    else .error .unpadded
  else .error .notAscii

/-- The text of a flaw. -/
def Flaw.message : Flaw → Text
  | .notAscii => "string argument should contain only ASCII characters"
  | .loneDigit count =>
    "Invalid base64-encoded string: number of data characters (" ++ Digits.ofNat count ++
      ") cannot be 1 more than a multiple of 4"
  | .unpadded => "Incorrect padding"

end Base64
end CrossClusterKeys
