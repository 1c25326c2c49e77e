import CrossClusterKeys.Files
import CrossClusterKeys.Text.Blank

/-!
# Files of environment settings

Such a file has one statement in each line: a name, an equals sign and a value.  A value in quotes
may go on over several lines.

**Rules.**
* In front of a name the word `export` may stand; behind a value a comment, opened by `#`, may.
* A value without quotes ends at the end of its line or at a `#` behind a blank, and has no blanks
  at its end.  In double quotes the usual escapes count, in single quotes those of the backslash
  and of the quote.
* A name without an equals sign has no value.
* A line that is no statement is passed over.
* In a value `${name}` stands for an earlier value of the file or, if there is none, for one of
  the environment; `${name:-other}` says what stands there if there is neither.

**Results.**
* `expand_of_no_dollar`: a value without a dollar sign stands for itself.
-/

namespace CrossClusterKeys
namespace EnvFile

/-- A statement of the file. -/
structure Binding where
  name : Text
  value : Option Text
  deriving DecidableEq

/-- Blanks inside a line. -/
def isGap (c : CodePoint) : Bool := c.isBlank && c ≠ CodePoint.ofChar '\n'

/-- The text without the blanks of the line in front of it. -/
def skipGap (t : Text) : Text := t.dropWhile isGap

/-- The text without the line in front of it. -/
def skipLine (t : Text) : Text := (t.dropWhile fun c => c.val ≠ 10).drop 1

/-- The text behind the word `export` and the blanks that follow it. -/
def skipExport (t : Text) : Text :=
  match Text.after? "export" t with
  | some rest => if (skipGap rest).length < rest.length then skipGap rest else t
  | none => t

/-- What stands up to the closing quote, and the rest.  A quote behind a backslash closes only if
no other quote does. -/
def untilQuote (quote : CodePoint) (escaped : Bool) : Text → Option (Text × Text)
  | [] => none
  | c :: t =>
    if c = quote then
      if escaped then
        match untilQuote quote false t with
        | some (inside, rest) => some (c :: inside, rest)
        | none => some ([], t)
      else some ([], t)
    else (untilQuote quote (c = '\\') t).map fun p => (c :: p.1, p.2)

/-- The code point that a letter behind a backslash stands for. -/
def escapeOf? (double : Bool) (c : CodePoint) : Option CodePoint :=
  if c = '\\' || c = '\'' then some c
  else if !double then none
  else if c = '"' then some c
  else if c = 'a' then some (.ofNat 7)
  else if c = 'b' then some (.ofNat 8)
  else if c = 'f' then some (.ofNat 12)
  else if c = 'n' then some (.ofNat 10)
  else if c = 'r' then some (.ofNat 13)
  else if c = 't' then some (.ofNat 9)
  else if c = 'v' then some (.ofNat 11)
  else none

/-- The text with its escapes resolved. -/
def unescape (double : Bool) : Text → Text
  | [] => []
  | [c] => [c]
  | c :: d :: t =>
    if c = '\\' then
      match escapeOf? double d with
      | some e => e :: unescape double t
      | none => c :: unescape double (d :: t)
    else c :: unescape double (d :: t)

/-- The name in front of a text, none in front of a comment.  Like every part of a statement that
cannot be read it leaves the text where it failed. -/
def readName (t : Text) : Except Text (Option Text × Text) :=
  match t with
  | [] => .error t
  | c :: rest =>
    if c = '#' then .ok (none, t)
    else if c = '\'' then
      match Text.cut? '\'' rest with
      | some (name, after) => if name.isEmpty then .error t else .ok (some name, after)
      | none => .error t
    else
      let (name, after) := t.span fun c => c ≠ CodePoint.ofChar '=' && c ≠ CodePoint.ofChar '#' &&
        !c.isBlank
      if name.isEmpty then .error t else .ok (some name, after)

/-- A line up to the comment that a blank and a `#` open. -/
def beforeComment (afterBlank : Bool) : Text → Text
  | [] => []
  | c :: t => if afterBlank && c = '#' then [] else c :: beforeComment c.isBlank t

/-- The text without blanks at its end. -/
def stripEnd (t : Text) : Text := (t.reverse.dropWhile CodePoint.isBlank).reverse

/-- The value in front of a text. -/
def readValue (t : Text) : Except Text (Text × Text) :=
  match t with
  | [] => .ok ([], t)
  | c :: rest =>
    if c = '\'' || c = '"' then
      match untilQuote c false rest with
      | some (inside, after) => .ok (unescape (c = '"') inside, after)
      | none => .error t
    else
      let (line, after) := t.span fun c => c.val ≠ 10
      .ok (stripEnd (beforeComment false line), after)

/-- The text behind the end of the line, before which only a comment may stand. -/
def readEnd (t : Text) : Except Text (Unit × Text) :=
  let rest := match skipGap t with
    | c :: u => if c = '#' then u.dropWhile fun c => c.val ≠ 10 else c :: u
    | [] => []
  match skipGap rest with
  | [] => .ok ((), [])
  | c :: u => if c = '\n' then .ok ((), u) else .error rest

/-- The value behind an equals sign, if there is one. -/
def readAssigned (t : Text) : Except Text (Option Text × Text) :=
  match t with
  | c :: rest => if c = '=' then (readValue (skipGap rest)).map fun p => (some p.1, p.2)
    else .ok (none, t)
  | [] => .ok (none, t)

/-- The statement in front of a text, none for a comment. -/
def readStatement (t : Text) : Except Text (Option Binding × Text) := do
  let (name, t) ← readName (skipExport t)
  let (value, t) ← readAssigned (skipGap t)
  let (_, t) ← readEnd t
  return (name.map fun n => ⟨n, value⟩, t)

/-- The statements of a text that is not longer than `fuel`. -/
def statements : Nat → Text → List Binding
  | 0, _ => []
  | fuel + 1, t =>
    match t.dropWhile CodePoint.isBlank with
    | [] => []
    | c :: u =>
      match readStatement (c :: u) with
      | .ok (binding, rest) => binding.toList ++ statements fuel rest
      | .error rest => statements fuel (skipLine rest)

/-- A name with what stands for it if it has no value. -/
structure Placeholder where
  name : Text
  other : Text

/-- The placeholder behind a dollar sign and a brace, and the rest. -/
def placeholder? (t : Text) : Option (Placeholder × Text) :=
  let (name, after) := t.span fun c => c ≠ CodePoint.ofChar '\x7d' && c ≠ CodePoint.ofChar ':'
  match Text.after? "\x7d" after with
  | some rest => some (⟨name, []⟩, rest)
  | none =>
    match Text.after? ":-" after with
    | none => none
    | some more => (Text.cut? '\x7d' more).map fun p => (⟨name, p.1⟩, p.2)

/-- The value with its placeholders replaced; `fuel` is not less than its length. -/
def expandWithin (look : Text → Option Text) : Nat → Text → Text
  | 0, t => t
  | _, [] => []
  | fuel + 1, c :: t =>
    match (if c = '$' then Text.after? "\x7b" t else none).bind placeholder? with
    | some (p, rest) => (look p.name).getD p.other ++ expandWithin look fuel rest
    | none => c :: expandWithin look fuel t

/-- The value with its placeholders replaced. -/
def expand (look : Text → Option Text) (value : Text) : Text :=
  expandWithin look value.length value

theorem expand_of_no_dollar (look : Text → Option Text) (value : Text)
    (h : ∀ c ∈ value, c ≠ CodePoint.ofChar '$') : expand look value = value := by
  unfold expand
  induction value with
  | nil => rfl
  | cons c t ih =>
    have hc := h c (by simp)
    simp [expandWithin, hc, ih fun d hd => h d (by simp [hd])]

/-- The value of a name: an earlier one of the file, even if it is none, or one of the
environment. -/
def lookUp (environment : KeyMap Text) (earlier : KeyMap (Option Text)) (name : Text) :
    Option Text :=
  match earlier.get? name with
  | some value => some (value.getD [])
  | none => environment.get? name

/-- The values of the statements in turn. -/
def evaluate (environment : KeyMap Text) (bindings : List Binding) : KeyMap (Option Text) :=
  bindings.foldl
    (fun earlier b =>
      earlier.insert b.name (b.value.map (expand (lookUp environment earlier))))
    .empty

/-- The values that a file gives to names. -/
def read (environment : KeyMap Text) (t : Text) : KeyMap (Option Text) :=
  evaluate environment (statements t.length t)

end EnvFile
end CrossClusterKeys
