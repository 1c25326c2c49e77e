import CrossClusterKeys.Text.Casing.Table

/-!
# Capital and small letters

`Text.upper` and `Text.lower` are the full case mappings of Unicode, without language-dependent
rules: a letter may become several (`ß` to `SS`), and a capital sigma at the end of a word
becomes the final form.

**Rule for sigma.**  A capital sigma ends its word when, case-ignorable code points aside, a
cased one stands before it and none behind it.
-/

namespace CrossClusterKeys
namespace Casing

/-- The image of `n` under the first run that holds it. -/
def shifted (runs : List (Nat × Nat × Nat × Nat)) (n : Nat) : Option Nat :=
  (runs.find? fun r => r.1 ≤ n && n ≤ r.2.1 && (n - r.1) % r.2.2.1 == 0).map
    fun r => n + r.2.2.2 - shiftBase

/-- Membership in a list of ranges. -/
def within (ranges : List (Nat × Nat)) (n : Nat) : Bool :=
  ranges.any fun r => r.1 ≤ n && n ≤ r.2

/-- The capital form of one code point. -/
def upperOf (c : CodePoint) : Text :=
  if c.val < 128 then
    if 97 ≤ c.val && c.val ≤ 122 then [.ofNat (c.val - 32)] else [c]
  else match upperExpansions.lookup c.val with
    | some ns => ns.map .ofNat
    | none => match shifted upperRuns c.val with
      | some n => [.ofNat n]
      | none => [c]

/-- The small form of one code point, sigma's place in the word aside. -/
def lowerOf (c : CodePoint) : Text :=
  if c.val < 128 then
    if 65 ≤ c.val && c.val ≤ 90 then [.ofNat (c.val + 32)] else [c]
  else if c.val = 0x130 then ['i', .ofNat 0x307]
  else match shifted lowerRuns c.val with
    | some n => [.ofNat n]
    | none => [c]

/-- Whether the nearest code point that is not case-ignorable exists and is cased. -/
def meetsCased (neighbours : Text) : Bool :=
  match neighbours.dropWhile fun c => within caseIgnorableRanges c.val with
  | [] => false
  | c :: _ => within casedRanges c.val

/-- The small form of what follows `before`, which is given last code point first. -/
def lowerAfter (before : Text) : Text → Text
  | [] => []
  | c :: rest =>
    let small :=
      if c.val = 0x3A3 then
        if meetsCased before && !meetsCased rest then [.ofNat 0x3C2] else [.ofNat 0x3C3]
      else lowerOf c
    small ++ lowerAfter (c :: before) rest

end Casing

namespace Text

/-- The text in capital letters. -/
def upper (t : Text) : Text := t.flatMap Casing.upperOf

/-- The text in small letters. -/
def lower (t : Text) : Text := Casing.lowerAfter [] t

end Text
end CrossClusterKeys
