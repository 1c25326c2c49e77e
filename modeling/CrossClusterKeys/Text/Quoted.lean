import CrossClusterKeys.Text.Digits
import CrossClusterKeys.Text.Printable

/-!
# Quoted text

Messages show names between quotes, so that blanks, line breaks and invisible code points can
be told apart.

**Rules.**
* A text with a single quote and no double quote is put between double quotes, any other
  between single ones; inside, the quote in use and the backslash get a backslash.
* Tab, line feed and carriage return have the short escapes; every other code point that is not
  printable is written in hexadecimal with two, four or eight digits, whichever fits first.
* Byte strings follow the same rules after a leading `b`, with two digits for every byte outside
  printable ASCII.
-/

namespace CrossClusterKeys
namespace Quoted

/-- The quote for a text: single, unless the text holds a single and no double one. -/
def mark (t : Text) : CodePoint :=
  if t.contains '\'' && !t.contains '"' then '"' else '\''

/-- A code point by its number, with as few of two, four or eight digits as possible. -/
def escape (n : Nat) : Text :=
  if n < 0x100 then "\\x" ++ Digits.hex 2 n
  else if n < 0x10000 then "\\u" ++ Digits.hex 4 n
  else "\\U" ++ Digits.hex 8 n

/-- The escapes that both quoted texts and quoted bytes have. -/
def shortEscape? (quote : CodePoint) (c : CodePoint) : Option Text :=
  if c = quote || c = '\\' then some ['\\', c]
  else if c = '\t' then some "\\t"
  else if c = '\n' then some "\\n"
  else if c = '\r' then some "\\r"
  else none

/-- A code point between quotes. -/
def inside (quote c : CodePoint) : Text :=
  match shortEscape? quote c with
  | some t => t
  | none => if c.isPrintable then [c] else escape c.val

/-- The text between quotes. -/
def text (t : Text) : Text :=
  [mark t] ++ t.flatMap (inside (mark t)) ++ [mark t]

/-- A byte between quotes. -/
def byteInside (quote : CodePoint) (b : UInt8) : Text :=
  match shortEscape? quote (.ofNat b.toNat) with
  | some t => t
  | none => if 32 ≤ b.toNat && b.toNat ≤ 126 then [.ofNat b.toNat] else escape b.toNat

/-- A byte string between quotes. -/
def bytes (bs : List UInt8) : Text :=
  let quote := mark (bs.map fun b => .ofNat b.toNat)
  "b" ++ [quote] ++ bs.flatMap (byteInside quote) ++ [quote]

end Quoted
end CrossClusterKeys
