import CrossClusterKeys.Text.Digits

/-!
# Random identifiers

An identifier of version 4 has 122 free bits, six fixed ones, and is written as 32 hexadecimal
digits in five groups.
-/

namespace CrossClusterKeys
namespace Uuid

/-- The number of an identifier's bits that are free. -/
def freeBits : Nat := 122

/-- The 32 digits of the identifier with the free bits of `n`. -/
def digits (n : Nat) : Text :=
  let low := n % Nat.pow 2 62
  let mid := n / Nat.pow 2 62 % Nat.pow 2 12
  let high := n / Nat.pow 2 74 % Nat.pow 2 48
  Digits.hex 12 high ++ Digits.hex 4 (0x4000 + mid) ++ Digits.hex 16 (0x8000000000000000 + low)

/-- The identifier with the free bits of `n`. -/
def text (n : Nat) : Text :=
  let d := digits n
  Text.join "-" [d.take 8, (d.drop 8).take 4, (d.drop 12).take 4, (d.drop 16).take 4, d.drop 20]

end Uuid
end CrossClusterKeys
