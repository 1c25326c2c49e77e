import CrossClusterKeys.Failure

/-!
# Message templates

The message of a log record is a template with places for arguments.  A place is written
`%[(key)][flags][width][.precision]conversion`.

**Rules.**
* Conversions: `s` message, `r` shown, `a` shown in ASCII; `d`, `i`, `u` decimal, `x`, `X`, `o` in
  base 16 and 8; `e`, `f`, `g` and their capitals for real numbers; `c` one code point.
* `%%` stands for the sign itself.
* Flags: `-` fills on the right, `0` fills numbers with zeros, `+` and the blank put a sign before
  numbers that are not negative, `#` puts the base before a number.
* A `*` takes the width or the precision from the arguments.
* Arguments are a tuple whose items are used in order, or a map whose entries are used by key.  Any
  other value is the one argument there is.
* All arguments have to be used up, unless they come in a value whose parts can be chosen.
-/

namespace CrossClusterKeys
namespace Template

/-- A place for an argument. -/
structure Place where
  key : Option Text
  left : Bool
  plus : Bool
  blank : Bool
  alternate : Bool
  zero : Bool
  width : Nat
  precision : Option Nat
  conversion : CodePoint
  /-- The index of the conversion in the template. -/
  index : Nat

/-- The arguments that are left to use. -/
structure Arguments where
  /-- What a key chooses, if the arguments have parts to choose from. -/
  choose : Option (Text → Except Failure Value)
  /-- The items to use in order. -/
  items : List Value

/-- The next argument in order. -/
def Arguments.next (a : Arguments) : Except Failure (Value × Arguments) :=
  match a.items with
  | v :: vs => .ok (v, { a with items := vs })
  | [] => .error (.ofArgument "not enough arguments for format string")

/-- A text filled up to the width of its place; `marked` is its sign and base. -/
def fill (p : Place) (numeric : Bool) (marked body : Text) : Text :=
  let room := p.width - marked.length - body.length
  if p.left then marked ++ body ++ List.replicate room (↑ ' ' : CodePoint)
  else if p.zero && numeric then marked ++ List.replicate room (↑ '0' : CodePoint) ++ body
  else List.replicate room (↑ ' ' : CodePoint) ++ marked ++ body

/-- The sign of a number. -/
def sign (p : Place) (negative : Bool) : Text :=
  if negative then "-" else if p.plus then "+" else if p.blank then " " else []

/-- A text cut to the precision of its place. -/
def cut (p : Place) (t : Text) : Text :=
  match p.precision with
  | some n => t.take n
  | none => t

/-- A code point of a shown value in ASCII. -/
def inAscii (c : CodePoint) : Text := if c.isAscii then [c] else Quoted.escape c.val

/-- ASCII letters in capitals. -/
def capitals (t : Text) : Text :=
  t.map fun c => if 97 ≤ c.val && c.val ≤ 122 then .ofNat (c.val - 32) else c

/-- The integer that a value is, if it is one. -/
def integer? : Value → Option Int
  | .int n => some n
  | .bool b => some (if b then 1 else 0)
  | _ => none

/-- A value that is no number where one is needed. -/
def notNumeric (p : Place) (what : Text) (v : Value) : Failure :=
  .ofArgument ("%" ++ [p.conversion] ++ " format: " ++ what ++ " is required, not " ++ v.kind)

/-- The whole number of a value. -/
def whole (p : Place) (based : Bool) (v : Value) : Except Failure Int :=
  match integer? v, v with
  | some n, _ => .ok n
  | none, .real x =>
    if based then .error (notNumeric p "an integer" v)
    else match x with
      | .nan => .error (.ofValue "cannot convert float NaN to integer")
      | .infinite _ =>
        .error (.basic .overflow [.text "cannot convert float infinity to integer"])
      | .finite .. => .ok (x.truncate?.getD 0)
  | none, _ => .error (notNumeric p (if based then "an integer" else "a real number") v)

/-- A whole number in its place. -/
def fillWhole (p : Place) (base : Nat) (baseMark : Text) (n : Int) : Text :=
  let digits := Text.padLeft '0' (p.precision.getD 0) (Digits.text base n.natAbs)
  let mark := if p.alternate then baseMark else []
  fill p true (sign p (n < 0) ++ mark) digits

/-- The binary64 number of a value. -/
def realOf (v : Value) : Except Failure Binary64 :=
  match integer? v, v with
  | some n, _ =>
    match Binary64.ofInt n with
    | .infinite _ => .error (.basic .overflow [.text "int too large to convert to float"])
    | x => .ok x
  | none, .real x => .ok x
  | none, _ => .error (.ofArgument ("must be real number, not " ++ v.kind))

/-- A real number in its place; `layOut` writes the digits of a ratio. -/
def fillReal (p : Place) (layOut : Nat → Nat → Text) : Binary64 → Text
  | .nan => fill p true (sign p false) "nan"
  | .infinite negative => fill p true (sign p negative) "inf"
  | .finite negative m e =>
    let (n, d) := Binary64.fraction false m e
    fill p true (sign p negative) (layOut n.natAbs d)

/-- A point behind digits that have none, in front of an exponent. -/
def withPoint (t : Text) : Text :=
  if t.contains '.' then t
  else t.takeWhile (fun c => c.val ≠ 101) ++ "." ++ t.dropWhile (fun c => c.val ≠ 101)

/-- A number as one code point. -/
def pointOf (v : Value) : Except Failure Text :=
  match integer? v, v with
  | some n, _ =>
    if 0 ≤ n && n < 0x110000 then .ok [.ofNat n.toNat]
    else .error (.basic .overflow [.text "%c arg not in range(0x110000)"])
  | none, .text [c] => .ok [c]
  | none, _ => .error (.ofArgument "%c requires int or char")

/-- An argument in its place. -/
def convert (p : Place) (v : Value) : Except Failure Text :=
  let c := p.conversion
  let places := p.precision.getD 6
  let point (t : Text) : Text := if p.alternate then withPoint t else t
  if c = 's' then .ok (fill p false [] (cut p v.message))
  else if c = 'r' then .ok (fill p false [] (cut p v.shown))
  else if c = 'a' then .ok (fill p false [] (cut p (v.shown.flatMap inAscii)))
  else if c = 'd' || c = 'i' || c = 'u' then (whole p false v).map (fillWhole p 10 [])
  else if c = 'x' then (whole p true v).map (fillWhole p 16 "0x")
  else if c = 'X' then (whole p true v).map fun n => capitals (fillWhole p 16 "0x" n)
  else if c = 'o' then (whole p true v).map (fillWhole p 8 "0o")
  else if c = 'f' then (realOf v).map (fillReal p fun n d => point (Decimal.fixedDigits n d places))
  else if c = 'F' then
    (realOf v).map fun x =>
      capitals (fillReal p (fun n d => point (Decimal.fixedDigits n d places)) x)
  else if c = 'e' then
    (realOf v).map (fillReal p fun n d => point (Decimal.scientificDigits n d places))
  else if c = 'E' then
    (realOf v).map fun x =>
      capitals (fillReal p (fun n d => point (Decimal.scientificDigits n d places)) x)
  else if c = 'g' then
    (realOf v).map (fillReal p fun n d => point (Decimal.generalDigits p.alternate n d places))
  else if c = 'G' then
    (realOf v).map fun x =>
      capitals (fillReal p (fun n d => point (Decimal.generalDigits p.alternate n d places)) x)
  else if c = 'c' then (pointOf v).map (fill p false [])
  else
    let shown : Text := if 31 ≤ c.val && c.val ≤ 126 then [c] else "?"
    .error (.ofValue ("unsupported format character '" ++ shown ++ "' (0x" ++
      Digits.text 16 c.val ++ ") at index " ++ Digits.ofNat p.index))

/-- The key up to the parenthesis that closes it; `depth` parentheses are open inside. -/
def keyPart (depth : Nat) : Text → Option (Text × Text)
  | [] => none
  | c :: t =>
    if c = ')' then
      match depth with
      | 0 => some ([], t)
      | depth + 1 => (keyPart depth t).map fun p => (c :: p.1, p.2)
    else if c = '(' then (keyPart (depth + 1) t).map fun p => (c :: p.1, p.2)
    else (keyPart depth t).map fun p => (c :: p.1, p.2)

/-- A bound on a width or precision, with the texts that refuse an argument or digits beyond it. -/
structure Bound where
  limit : Nat
  argument : Text
  digits : Text

/-- The bound on a width. -/
def widthBound : Bound :=
  ⟨Nat.pow 2 63, "Python int too large to convert to C ssize_t", "width too big"⟩

/-- The bound on a precision. -/
def precisionBound : Bound :=
  ⟨Nat.pow 2 31, "Python int too large to convert to C int", "precision too big"⟩

/-- A width or precision: digits, or an argument. -/
def number (b : Bound) (a : Arguments) (t : Text) :
    Except Failure (Option Int × Arguments × Text) :=
  match t with
  | c :: rest =>
    if c = '*' then
      match a.next with
      | .error e => .error e
      | .ok (v, a) =>
        match integer? v with
        | some n =>
          if -b.limit ≤ n && n < b.limit then .ok (some n, a, rest)
          else .error (.basic .overflow [.text b.argument])
        | none => .error (.ofArgument "* wants int")
    else
      let (ds, rest) := t.span CodePoint.isDigit
      let n := Decimal.valueOf ds
      if b.limit ≤ n then .error (.ofValue b.digits)
      else .ok (if ds.isEmpty then none else some n, a, rest)
  | [] => .ok (none, a, t)

/-- The flags in front of a width. -/
def isFlag (c : CodePoint) : Bool := c = '-' || c = '+' || c = ' ' || c = '#' || c = '0'

/-- The place at the head of a text of the template, whose end has the index `total`.  An argument
that is chosen by key is the only one left. -/
def place (total : Nat) (a : Arguments) (t : Text) :
    Except Failure (Place × Arguments × Text) := do
  let (key, a, t) ← match t with
    | c :: rest =>
      if c = '(' then
        match a.choose with
        | none => .error (.ofArgument "format requires a mapping")
        | some choose =>
          match keyPart 0 rest with
          | none => .error (.ofValue "incomplete format key")
          | some (key, rest) => (choose key).map fun v => (some key, { a with items := [v] }, rest)
      else .ok (none, a, t)
    | [] => .ok (none, a, t)
  let (flags, t) := t.span isFlag
  let (width, a, t) ← number widthBound a t
  let (precision, a, t) ← match t with
    | c :: rest =>
      if c = '.' then
        (number precisionBound a rest).map fun p => (some (max 0 (p.1.getD 0)).toNat, p.2)
      else .ok (none, a, t)
    | [] => .ok (none, a, t)
  let t := match t with
    | c :: rest => if c = 'h' || c = 'l' || c = 'L' then rest else t
    | [] => t
  match t with
  | [] => .error (.ofValue "incomplete format")
  | c :: rest =>
    .ok ({ key := key
           left := flags.contains '-' || width.any (· < 0)
           plus := flags.contains '+'
           blank := flags.contains ' '
           alternate := flags.contains '#'
           zero := flags.contains '0'
           width := (width.getD 0).natAbs
           precision := precision
           conversion := c
           index := total - t.length }, a, rest)

/-- The text of a template, read from `t` on; `fuel` bounds the number of places. -/
def run (total : Nat) : Nat → Arguments → Text → Except Failure Text
  | 0, _, t => .ok t
  | fuel + 1, a, t =>
    let (plain, rest) := t.span fun c : CodePoint => c ≠ '%'
    match rest with
    | [] =>
      if a.choose.isNone && !a.items.isEmpty then
        .error (.ofArgument "not all arguments converted during string formatting")
      else .ok plain
    | _ :: rest =>
      match Text.after? "%" rest with
      | some rest => (run total fuel a rest).map (plain ++ "%" ++ ·)
      | none => do
        let (p, a, rest) ← place total a rest
        let (v, a) ← a.next
        let t ← convert p v
        let tail ← run total fuel a rest
        .ok (plain ++ t ++ tail)

/-- What a key chooses from a value, if the value has parts to choose from. -/
def chooser : Value → Option (Text → Except Failure Value)
  | .map entries => some fun key =>
    match entries.lookup key with
    | some v => .ok v
    | none => .error (.basic .key [.text key])
  | .list _ => some fun _ =>
    .error (.ofArgument "list indices must be integers or slices, not str")
  | .bytes _ => some fun _ =>
    .error (.ofArgument "byte indices must be integers or slices, not str")
  | _ => none

/-- The template with its places filled by the arguments. -/
def format (template : Text) (arguments : Value) : Except Failure Text :=
  let a : Arguments := match arguments with
    | .tuple items => ⟨none, items⟩
    | v => ⟨chooser v, [v]⟩
  run template.length (template.length + 1) a template

end Template
end CrossClusterKeys
