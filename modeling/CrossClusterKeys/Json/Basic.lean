import CrossClusterKeys.Number.Decimal

/-!
# JSON documents

A document is `null`, a truth value, a number, a text, a list or an object.  Whole numbers and
binary64 numbers are told apart by how they are written, and the members of an object keep their
order.

**Writing.**
* Everything outside printable ASCII is escaped, a code point above `U+FFFF` as a pair of
  surrogates, so that a document written without indentation is one line of printable ASCII.
* Items and members stand side by side with the separators of a `Layout`, or each on a line of its
  own, indented by two blanks for every level.
-/

namespace CrossClusterKeys

/-- A JSON document. -/
inductive Json
  | null
  | bool (b : Bool)
  | int (n : Int)
  | real (x : Binary64)
  | text (t : Text)
  | list (items : List Json)
  | object (members : List (Text × Json))

namespace Json

/-- What stands between items, and between a key and its value. -/
structure Layout where
  item : Text
  key : Text

/-- Nothing but the signs themselves. -/
def compact : Layout := ⟨",", ":"⟩

/-- A blank behind each sign. -/
def spaced : Layout := ⟨", ", ": "⟩

/-- A UTF-16 unit by its number. -/
def unit (n : Nat) : Text := "\\u" ++ Digits.hex 4 n

/-- A code point inside a quoted text. -/
def escape (c : CodePoint) : Text :=
  if c = '"' then "\\\""
  else if c = '\\' then "\\\\"
  else if 32 ≤ c.val && c.val ≤ 126 then [c]
  else if c = '\n' then "\\n"
  else if c = '\r' then "\\r"
  else if c = '\t' then "\\t"
  else if c.val = 8 then "\\b"
  else if c.val = 12 then "\\f"
  else if c.val < 0x10000 then unit c.val
  else unit (0xD800 + (c.val - 0x10000) / 1024) ++ unit (0xDC00 + (c.val - 0x10000) % 1024)

/-- A text between double quotes. -/
def quoted (t : Text) : Text := "\"" ++ t.flatMap escape ++ "\""

/-- A truth value. -/
def truth (b : Bool) : Text := if b then "true" else "false"

mutual

/-- The document on one line. -/
def write (layout : Layout) : Json → Text
  | .null => "null"
  | .bool b => truth b
  | .int n => Digits.ofInt n
  | .real x => Decimal.text Decimal.written x
  | .text t => quoted t
  | .list items => "[" ++ writeItems layout items ++ "]"
  | .object members => "\x7b" ++ writeMembers layout members ++ "\x7d"

/-- The items of a list with separators between them. -/
def writeItems (layout : Layout) : List Json → Text
  | [] => []
  | j :: js => write layout j ++ writeMoreItems layout js

/-- The items behind the first one, each after a separator. -/
def writeMoreItems (layout : Layout) : List Json → Text
  | [] => []
  | j :: js => layout.item ++ write layout j ++ writeMoreItems layout js

/-- The members of an object with separators between them. -/
def writeMembers (layout : Layout) : List (Text × Json) → Text
  | [] => []
  | (k, j) :: ms => quoted k ++ layout.key ++ write layout j ++ writeMoreMembers layout ms

/-- The members behind the first one, each after a separator. -/
def writeMoreMembers (layout : Layout) : List (Text × Json) → Text
  | [] => []
  | (k, j) :: ms =>
    layout.item ++ quoted k ++ layout.key ++ write layout j ++ writeMoreMembers layout ms

end

/-- A line break and the indentation of a level. -/
def lineAt (level : Nat) : Text := Text.padRight ' ' (2 * level + 1) "\n"

mutual

/-- The document with each item and member on a line of its own, indented to `level`. -/
def indented (level : Nat) : Json → Text
  | .list [] => "[]"
  | .list (j :: js) =>
    "[" ++ lineAt (level + 1) ++ indented (level + 1) j ++ indentedItems (level + 1) js ++
      lineAt level ++ "]"
  | .object [] => "\x7b\x7d"
  | .object ((k, j) :: ms) =>
    "\x7b" ++ lineAt (level + 1) ++ quoted k ++ ": " ++ indented (level + 1) j ++
      indentedMembers (level + 1) ms ++ lineAt level ++ "\x7d"
  | .null => "null"
  | .bool b => truth b
  | .int n => Digits.ofInt n
  | .real x => Decimal.text Decimal.written x
  | .text t => quoted t

/-- The items behind the first one, each on its line. -/
def indentedItems (level : Nat) : List Json → Text
  | [] => []
  | j :: js => "," ++ lineAt level ++ indented level j ++ indentedItems level js

/-- The members behind the first one, each on its line. -/
def indentedMembers (level : Nat) : List (Text × Json) → Text
  | [] => []
  | (k, j) :: ms =>
    "," ++ lineAt level ++ quoted k ++ ": " ++ indented level j ++ indentedMembers level ms

end

/-- The kind of a document, as error messages name it. -/
def kind : Json → Text
  | .null => "NoneType"
  | .bool _ => "bool"
  | .int _ => "int"
  | .real _ => "float"
  | .text _ => "str"
  | .list _ => "list"
  | .object _ => "dict"

end Json
end CrossClusterKeys
