import CrossClusterKeys.Json.Basic
import CrossClusterKeys.Table
import CrossClusterKeys.Text.Quoted

/-!
# Values without a fixed shape

Log records carry fields of any kind, an alias is checked before it is known to be a text, and
errors keep the values they were raised with.  All of these are a `Value`.

**Texts of a value.**
* `shown`: the form that tells values apart.  Texts and bytes are quoted, lists stand in brackets,
  tuples in parentheses (a tuple of one item with a comma behind it), maps in braces.
* `message`: the form for readers.  A text stands for itself, all else is shown.
* `toJson`: the form in a log line.  Tuples become lists, and what JSON has no form for becomes its
  message.
-/

namespace CrossClusterKeys

/-- A value of any kind. -/
inductive Value
  | null
  | bool (b : Bool)
  | int (n : Int)
  | real (x : Binary64)
  | text (t : Text)
  | bytes (bs : List UInt8)
  | list (items : List Value)
  | tuple (items : List Value)
  | map (entries : List (Text × Value))
  /-- A value that only its kind and its two texts are known of. -/
  | other (kind shown message : Text)

namespace Value

instance : Inhabited Value := ⟨.null⟩

/-- A truth value as it is shown. -/
def shownBool (b : Bool) : Text := if b then "True" else "False"

/-- Items in parentheses. -/
def shownTuple : List Text → Text
  | [t] => "(" ++ t ++ ",)"
  | ts => "(" ++ Text.join ", " ts ++ ")"

/-- Items in brackets. -/
def shownList (ts : List Text) : Text := "[" ++ Text.join ", " ts ++ "]"

/-- Entries in braces. -/
def shownMap (es : List (Text × Text)) : Text :=
  "\x7b" ++ Text.join ", " (es.map fun e => Quoted.text e.1 ++ ": " ++ e.2) ++ "\x7d"

/-- A value with named parts. -/
def shownRecord (name : Text) (parts : List (Text × Text)) : Text :=
  name ++ "(" ++ Text.join ", " (parts.map fun p => p.1 ++ "=" ++ p.2) ++ ")"

mutual

/-- The form that tells values apart. -/
def shown : Value → Text
  | .null => "None"
  | .bool b => shownBool b
  | .int n => Digits.ofInt n
  | .real x => Decimal.text Decimal.shown x
  | .text t => Quoted.text t
  | .bytes bs => Quoted.bytes bs
  | .list items => shownList (shownItems items)
  | .tuple items => shownTuple (shownItems items)
  | .map entries => shownMap (shownEntries entries)
  | .other _ shown _ => shown

/-- Every item as it is shown. -/
def shownItems : List Value → List Text
  | [] => []
  | v :: vs => shown v :: shownItems vs

/-- Every entry with its value as it is shown. -/
def shownEntries : List (Text × Value) → List (Text × Text)
  | [] => []
  | (k, v) :: es => (k, shown v) :: shownEntries es

end

/-- The form for readers. -/
def message : Value → Text
  | .text t => t
  | .other _ _ message => message
  | v => shown v

mutual

/-- The form in a log line. -/
def toJson : Value → Json
  | .null => .null
  | .bool b => .bool b
  | .int n => .int n
  | .real x => .real x
  | .text t => .text t
  | .bytes bs => .text (Quoted.bytes bs)
  | .list items => .list (toJsonItems items)
  | .tuple items => .list (toJsonItems items)
  | .map entries => .object (toJsonEntries entries)
  | .other _ _ message => .text message

/-- Every item in its form for a log line. -/
def toJsonItems : List Value → List Json
  | [] => []
  | v :: vs => toJson v :: toJsonItems vs

/-- Every entry with its value in the form for a log line. -/
def toJsonEntries : List (Text × Value) → List (Text × Json)
  | [] => []
  | (k, v) :: es => (k, toJson v) :: toJsonEntries es

end

/-- The kind of a value, as error messages name it. -/
def kind : Value → Text
  | .null => "NoneType"
  | .bool _ => "bool"
  | .int _ => "int"
  | .real _ => "float"
  | .text _ => "str"
  | .bytes _ => "bytes"
  | .list _ => "list"
  | .tuple _ => "tuple"
  | .map _ => "dict"
  | .other kind _ _ => kind

/-- Whether a value is as good as no value. -/
def isVoid : Value → Bool
  | .null => true
  | .bool b => !b
  | .int n => n = 0
  | .real x => x.isZero
  | .text t => t.isEmpty
  | .bytes bs => bs.isEmpty
  | .list vs => vs.isEmpty
  | .tuple vs => vs.isEmpty
  | .map es => es.isEmpty
  | .other .. => false

/-- A text, or nothing. -/
def ofText : Option Text → Value
  | some t => .text t
  | none => .null

/-- A list of texts. -/
def ofTexts (ts : List Text) : Value := .list (ts.map .text)

end Value

namespace KeyMap

/-- A map of texts as it is shown, in order of entry. -/
def shown (m : KeyMap Text) : Text :=
  Value.shownMap (m.entries.map fun e => (e.1, Quoted.text e.2))

end KeyMap
end CrossClusterKeys
