import CrossClusterKeys.Json.Basic
import CrossClusterKeys.Table

/-!
# Reading JSON documents

**Rules.**
* Blanks are the space, tab, line feed and carriage return; anything else behind the document is
  refused, and so is a byte order mark in front of it.
* A text may hold every code point from `U+0020` on.  The escape of a high surrogate is joined with
  the escape of a low one that follows it; any other surrogate stands for itself.
* `NaN`, `Infinity` and `-Infinity` are numbers.  A whole number may have `digitLimit` digits.
* Of two members with one key the first gives the place and the last the value.
* Lists and objects may be nested as many levels deep as the process that reads has room for.

**Errors.**  The document is read from left to right, and the first flaw is reported.
-/

namespace CrossClusterKeys
namespace Json

/-- Why a text is no document. -/
inductive Flaw
  | value
  | name
  | colon
  | comma
  | unterminated
  | controlCharacter
  | escape
  | unit
  | extraData
  | byteOrderMark
  deriving DecidableEq, Repr

/-- The text of a flaw. -/
def Flaw.message : Flaw → Text
  | .value => "Expecting value"
  | .name => "Expecting property name enclosed in double quotes"
  | .colon => "Expecting ':' delimiter"
  | .comma => "Expecting ',' delimiter"
  | .unterminated => "Unterminated string starting at"
  | .controlCharacter => "Invalid control character at"
  | .escape => "Invalid \\escape"
  | .unit => "Invalid \\uXXXX escape"
  | .extraData => "Extra data"
  | .byteOrderMark => "Unexpected UTF-8 BOM (decode using utf-8-sig)"

/-- What may be nested too deep. -/
inductive Nest
  | list
  | object
  deriving DecidableEq, Repr

/-- Why reading stops. -/
inductive Refusal
  | malformed (flaw : Flaw)
  | tooDeep (nest : Nest)
  /-- A whole number has too many digits. -/
  | tooLong (digits : Nat)
  deriving DecidableEq, Repr

/-- The number of digits a whole number may have. -/
def digitLimit : Nat := 4300

/-- A process that reads documents: it has room for so many levels of lists and objects, for one at
least.  Nothing depends on their number but what is refused as too deep. -/
class Nesting where
  levels : Nat
  positive : 0 < levels

/-- The room that the command line leaves where nothing else is said. -/
instance (priority := low) usualNesting : Nesting := ⟨990, by decide⟩

/-- The rest of a text with what was read in front of it. -/
abbrev Reading (α : Type) := Except Refusal (α × Text)

/-- Blanks between the parts of a document. -/
def isGap (c : CodePoint) : Bool := c = ' ' || c = '\t' || c = '\n' || c = '\r'

/-- The text without blanks in front. -/
def skipGap (t : Text) : Text := t.dropWhile isGap

/-- The number of four hexadecimal digits. -/
def unitOf? (a b c d : CodePoint) : Option Nat := do
  let a ← a.hexDigit?
  let b ← b.hexDigit?
  let c ← c.hexDigit?
  let d ← d.hexDigit?
  return ((a * 16 + b) * 16 + c) * 16 + d

/-- The code point of a pair of surrogates. -/
def joined (high low : Nat) : CodePoint :=
  .ofNat (0x10000 + (high - 0xD800) * 1024 + (low - 0xDC00))

/-- The code point of an escape sign other than `u`. -/
def unescape? (c : CodePoint) : Option CodePoint :=
  if c = '"' || c = '\\' || c = '/' then some c
  else if c = 'n' then some '\n'
  else if c = 't' then some '\t'
  else if c = 'r' then some '\r'
  else if c = 'b' then some (.ofNat 8)
  else if c = 'f' then some (.ofNat 12)
  else none

/-- A code point of a quoted text, with whether it was written by its number. -/
structure Sign where
  point : CodePoint
  numbered : Bool

/-- A sign in front of others; two surrogates by number that make a pair are joined. -/
def pair (s : Sign) : List Sign → List Sign
  | [] => [s]
  | r :: rs =>
    if s.numbered && r.numbered && s.point.isHighSurrogate && r.point.isLowSurrogate then
      ⟨joined s.point.val r.point.val, false⟩ :: rs
    else s :: r :: rs

/-- The signs up to the closing quote. -/
def readSigns : Text → Reading (List Sign)
  | [] => .error (.malformed .unterminated)
  | c :: rest =>
    if c = '"' then .ok ([], rest)
    else if c = '\\' then
      match rest with
      | [] => .error (.malformed .unterminated)
      | e :: rest =>
        if e = 'u' then
          match rest with
          | h1 :: h2 :: h3 :: h4 :: rest =>
            match rest.isEmpty, unitOf? h1 h2 h3 h4 with
            | false, some n => (readSigns rest).map fun p => (⟨.ofNat n, true⟩ :: p.1, p.2)
            | _, _ => .error (.malformed .unit)
          | _ => .error (.malformed .unit)
        else match unescape? e with
          | some c => (readSigns rest).map fun p => (⟨c, false⟩ :: p.1, p.2)
          | none => .error (.malformed .escape)
    else if c.val < 32 then .error (.malformed .controlCharacter)
    else (readSigns rest).map fun p => (⟨c, false⟩ :: p.1, p.2)

/-- The text up to its closing quote. -/
def readText (t : Text) : Reading Text :=
  (readSigns t).map fun p => ((p.1.foldr pair []).map Sign.point, p.2)

/-- The whole part of a number: `0`, or digits that do not start with it. -/
def wholePart : Text → Text × Text
  | [] => ([], [])
  | c :: rest =>
    if c = '0' then ([c], rest) else (c :: rest).span CodePoint.isDigit

/-- The digits behind a point; a point without digits is not read. -/
def fractionPart (t : Text) : Text × Text :=
  match t with
  | c :: rest =>
    if c = '.' then
      let (ds, more) := rest.span CodePoint.isDigit
      if ds.isEmpty then ([], t) else (ds, more)
    else ([], t)
  | [] => ([], t)

/-- A sign and the rest. -/
def signPart : Text → Bool × Text
  | c :: rest =>
    if c = '-' then (true, rest) else if c = '+' then (false, rest) else (false, c :: rest)
  | [] => (false, [])

/-- The exponent of a number; one without digits is not read. -/
def exponentPart (t : Text) : Option Int × Text :=
  match t with
  | c :: rest =>
    if c = 'e' || c = 'E' then
      let (negative, rest) := signPart rest
      let (ds, more) := rest.span CodePoint.isDigit
      if ds.isEmpty then (none, t)
      else (some (if negative then -(Decimal.valueOf ds : Int) else Decimal.valueOf ds), more)
    else (none, t)
  | [] => (none, t)

/-- An unsigned number and its sign. -/
def readUnsigned (negative : Bool) (t : Text) : Reading Json :=
  let (whole, rest) := wholePart t
  if whole.isEmpty then .error (.malformed .value)
  else
    let (part, rest) := fractionPart rest
    let (exponent, rest) := exponentPart rest
    if part.isEmpty && exponent.isNone then
      if digitLimit < whole.length then .error (.tooLong whole.length)
      else
        let n : Int := Decimal.valueOf whole
        .ok (.int (if negative then -n else n), rest)
    else
      let power : Int := exponent.getD 0 - part.length
      .ok (.real (Binary64.ofDecimal negative (Decimal.valueOf (whole ++ part)) power), rest)

/-- A number. -/
def readNumber : Text → Reading Json
  | c :: rest => if c = '-' then readUnsigned true rest else readUnsigned false (c :: rest)
  | [] => .error (.malformed .value)

/-- The words of the language. -/
def words : List (Text × Json) :=
  [("null", .null), ("true", .bool true), ("false", .bool false), ("NaN", .real .nan),
    ("Infinity", .real (.infinite false)), ("-Infinity", .real (.infinite true))]

/-- The word at the head of a text. -/
def readWord? (t : Text) : Option (Json × Text) :=
  words.findSome? fun w => (Text.after? w.1 t).map fun rest => (w.2, rest)

mutual

/-- A document; `depth` levels may be opened inside it, and `fuel` bounds the steps. -/
def readValue (fuel depth : Nat) (t : Text) : Reading Json :=
  match fuel with
  | 0 => .error (.malformed .value)
  | fuel + 1 =>
    match t with
    | [] => .error (.malformed .value)
    | c :: rest =>
      if c = '"' then (readText rest).map fun p => (.text p.1, p.2)
      else if c = '[' then
        match depth with
        | 0 => .error (.tooDeep .list)
        | depth + 1 => (readItems fuel depth (skipGap rest)).map fun p => (.list p.1, p.2)
      else if c = '\x7b' then
        match depth with
        | 0 => .error (.tooDeep .object)
        | depth + 1 =>
          (readMembers fuel depth (skipGap rest)).map fun p =>
            (.object (Table.ofList p.1).entries, p.2)
      else match readWord? (c :: rest) with
        | some p => .ok p
        | none => readNumber (c :: rest)

/-- The items of a list up to its closing bracket. -/
def readItems (fuel depth : Nat) (t : Text) : Except Refusal (List Json × Text) :=
  match fuel with
  | 0 => .error (.malformed .value)
  | fuel + 1 =>
    match Text.after? "]" t with
    | some rest => .ok ([], rest)
    | none => readMoreItems fuel depth t

/-- The items of a list that has at least one more. -/
def readMoreItems (fuel depth : Nat) (t : Text) : Except Refusal (List Json × Text) :=
  match fuel with
  | 0 => .error (.malformed .value)
  | fuel + 1 => do
    let (j, rest) ← readValue fuel depth t
    match skipGap rest with
    | [] => .error (.malformed .comma)
    | c :: rest =>
      if c = ']' then .ok ([j], rest)
      else if c = ',' then
        let (js, rest) ← readMoreItems fuel depth (skipGap rest)
        .ok (j :: js, rest)
      else .error (.malformed .comma)

/-- The members of an object up to its closing brace. -/
def readMembers (fuel depth : Nat) (t : Text) :
    Except Refusal (List (Text × Json) × Text) :=
  match fuel with
  | 0 => .error (.malformed .value)
  | fuel + 1 =>
    match Text.after? "\x7d" t with
    | some rest => .ok ([], rest)
    | none => readMoreMembers fuel depth t

/-- The members of an object that has at least one more. -/
def readMoreMembers (fuel depth : Nat) (t : Text) :
    Except Refusal (List (Text × Json) × Text) :=
  match fuel with
  | 0 => .error (.malformed .value)
  | fuel + 1 =>
    match t with
    | [] => .error (.malformed .name)
    | c :: rest =>
      if c = '"' then do
        let (k, rest) ← readText rest
        match skipGap rest with
        | [] => .error (.malformed .colon)
        | c :: rest =>
          if c = ':' then
            let (j, rest) ← readValue fuel depth (skipGap rest)
            match skipGap rest with
            | [] => .error (.malformed .comma)
            | c :: rest =>
              if c = '\x7d' then .ok ([(k, j)], rest)
              else if c = ',' then
                let (ms, rest) ← readMoreMembers fuel depth (skipGap rest)
                .ok ((k, j) :: ms, rest)
              else .error (.malformed .comma)
          else .error (.malformed .colon)
      else .error (.malformed .name)

end

/-- The document of a text. -/
def read [Nesting] (t : Text) : Except Refusal Json :=
  if (t.head?.map CodePoint.val) = some 0xFEFF then .error (.malformed .byteOrderMark)
  else
    match readValue (3 * t.length + 3) Nesting.levels (skipGap t) with
    | .error e => .error e
    | .ok (j, rest) => if (skipGap rest).isEmpty then .ok j else .error (.malformed .extraData)

end Json
end CrossClusterKeys
