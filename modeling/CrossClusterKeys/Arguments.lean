import CrossClusterKeys.Text.Numeral
import CrossClusterKeys.Value

/-!
# Command-line arguments

A grammar says which options and which words a command line may have.  Reading sorts the arguments
into them, in one pass from left to right.

**Rules.**
* An argument that starts with `-` is an option if the grammar knows it, by one of its names or by
  the start of a long name that fits no other one, or if it is neither a negative number nor has a
  space in it.  Every other argument is a word, and so is every one behind the first `--`.
* The value of an option is joined to it by `=`, or is the next argument if that is a word.
* Words fill the slots of the grammar in turn.  A command takes all arguments behind it.
* What fits nowhere is left over.  Slots and options that are needed and missing are refused after
  all others.

**Results.**
* `mark_afterSeparator`: behind `--` there are only words.
-/

namespace CrossClusterKeys

/-- An option of a command line.  One without a value asks for help. -/
structure OptionRule where
  /-- All spellings of the option. -/
  names : List Text
  takesValue : Bool
  /-- The values it may have; any value if there are none. -/
  choices : List Text
  needed : Bool

/-- A place for words. -/
inductive Slot
  | word (name : Text)
  /-- One of several commands, with all arguments behind it. -/
  | command (name : Text) (choices : List Text)

/-- What a command line may have. -/
structure Grammar where
  program : Text
  options : List OptionRule
  slots : List Slot

/-- Why reading a command line ended early. -/
inductive Stop
  /-- The user asked for help. -/
  | help
  | refused (program message : Text)
  deriving DecidableEq

/-- The arguments that were sorted in. -/
structure Arguments where
  /-- The values of options, by the last one of their names. -/
  options : KeyMap Text
  /-- The words by the names of their slots. -/
  words : KeyMap Value
  /-- The command with the arguments behind it. -/
  command : Option (Text × List Text)
  /-- The arguments that fit nowhere. -/
  leftover : List Text
  /-- The slots that are still empty. -/
  unfilled : List Slot

namespace OptionRule

/-- The name under which the value of an option is kept. -/
def key (o : OptionRule) : Text := o.names.getLastD []

/-- The option as it is named in refusals. -/
def title (o : OptionRule) : Text := Text.join "/" o.names

end OptionRule

namespace Slot

/-- The name of a slot. -/
def name : Slot → Text
  | .word name => name
  | .command name _ => name

end Slot

namespace Grammar

/-- An option that an argument stands for. -/
structure Match where
  /-- The rule of the option, none if the grammar does not know it. -/
  rule : Option OptionRule
  /-- The spelling. -/
  name : Text
  /-- The value that is joined to it. -/
  value : Option Text
  /-- Whether the value is joined by an equals sign. -/
  joined : Bool

/-- What an argument is. -/
inductive Mark
  | word
  | separator
  | option (m : Match)

/-- An argument with what it is. -/
abbrev Token := Text × Mark

/-- All spellings of options, with their rules. -/
def spellings (g : Grammar) : List (Text × OptionRule) :=
  g.options.flatMap fun o => o.names.map fun n => (n, o)

/-- Whether a text starts like an option of one letter. -/
def isShort (t : Text) : Bool :=
  match t with
  | _ :: c :: _ => c ≠ CodePoint.ofChar '-'
  | _ => false

/-- A text cut at its first equals sign, with what stands behind it if there is one. -/
def cutAtSign (t : Text) : Text × Option Text :=
  match Text.cut? '=' t with
  | some (name, value) => (name, some value)
  | none => (t, none)

/-- The options that an argument may stand for by the start of its name. -/
def candidates (g : Grammar) (t : Text) : List Match :=
  if isShort t then
    g.spellings.filterMap fun s =>
      if s.1 = t.take 2 then some ⟨some s.2, s.1, some (t.drop 2), false⟩
      else if t.isPrefixOf s.1 then some ⟨some s.2, s.1, none, false⟩
      else none
  else
    let (start, value) := cutAtSign t
    g.spellings.filterMap fun s =>
      if start.isPrefixOf s.1 then some ⟨some s.2, s.1, value, value.isSome⟩ else none

/-- The text without a line feed at its end. -/
def withoutLineEnd (t : Text) : Text := (Text.before? "\n" t).getD t

/-- Whether a text is a negative number in plain notation. -/
def isNegativeNumber (t : Text) : Bool :=
  match withoutLineEnd t with
  | c :: ds =>
    c = '-' &&
      match Text.cut? '.' ds with
      | none => !ds.isEmpty && ds.all CodePoint.isNumeral
      | some (whole, part) =>
        whole.all CodePoint.isNumeral && !part.isEmpty && part.all CodePoint.isNumeral
  | [] => false

/-- What an argument that may be an option is; `none` stands for a word. -/
def optionOf (g : Grammar) (t : Text) : Except Text (Option Match) :=
  let (name, value) := cutAtSign t
  match g.spellings.lookup t, value.bind fun _ => g.spellings.lookup name with
  | some o, _ => .ok (some ⟨some o, t, none, false⟩)
  | none, some o => .ok (some ⟨some o, name, value, true⟩)
  | none, none =>
    match g.candidates t with
    | [m] => .ok (some m)
    | [] =>
      let isWord := isNegativeNumber t || t.any fun c => c = CodePoint.ofChar ' '
      .ok (if isWord then none else some ⟨none, t, none, false⟩)
    | ms =>
      .error ("ambiguous option: " ++ t ++ " could match " ++ Text.join ", " (ms.map Match.name))

/-- What an argument in front of `--` is. -/
def mark (g : Grammar) (t : Text) : Except Text Mark :=
  match t with
  | c :: _ :: _ =>
    if c = '-' then (g.optionOf t).map fun m => m.elim .word .option else .ok .word
  | _ => .ok .word

/-- What the arguments are. -/
def marks (g : Grammar) : List Text → Except Text (List Token)
  | [] => .ok []
  | t :: ts =>
    if t = Text.ofString "--" then .ok ((t, .separator) :: ts.map fun u => (u, .word))
    else do
      let m ← g.mark t
      return (t, m) :: (← g.marks ts)

theorem mark_afterSeparator (g : Grammar) (ts : List Text) :
    g.marks ("--" :: ts) = .ok (("--", .separator) :: ts.map fun u => (u, .word)) := by
  simp [marks]

/-- Whether a token is an option. -/
def isOption : Token → Bool
  | (_, .option _) => true
  | _ => false

/-- Whether a token is the separator `--`. -/
def isSeparator : Token → Bool
  | (_, .separator) => true
  | _ => false

/-- What fills a slot, and the tokens behind it; none if no word follows. -/
def fill? (s : Slot) (ts : List Token) : Option (List Text × List Token) :=
  let (separators, rest) := ts.span isSeparator
  match rest with
  | (word, .word) :: rest =>
    match s with
    | .command .. => some (ts.map Prod.fst, [])
    | .word _ =>
      let (more, rest) := rest.span isSeparator
      some (separators.map Prod.fst ++ word :: more.map Prod.fst, rest)
  | _ => none

/-- The value of a slot: its word without the first `--`.  Nothing is left if the word itself is
a `--` behind another one. -/
def wordOf (taken : List Text) : Value :=
  match taken.erase (Text.ofString "--") with
  | [t] => .text t
  | ts => .ofTexts ts

/-- The refusal of an argument. -/
def refuse (g : Grammar) (title reason : Text) : Stop :=
  .refused g.program ("argument " ++ title ++ ": " ++ reason)

/-- The refusal of a value that is none of the choices. -/
def refuseChoice (g : Grammar) (title value : Text) (choices : List Text) : Stop :=
  g.refuse title ("invalid choice: " ++ Quoted.text value ++ " (choose from " ++
    Text.join ", " (choices.map Quoted.text) ++ ")")

/-- The arguments with a slot filled. -/
def put (g : Grammar) (a : Arguments) (s : Slot) (taken : List Text) : Except Stop Arguments :=
  match s, taken with
  | .word name, _ => .ok { a with words := a.words.insert name (wordOf taken) }
  | .command name choices, [] => .error (g.refuseChoice name [] choices)
  | .command name choices, c :: rest =>
    if choices.contains c then .ok { a with command := some (c, rest) }
    else .error (g.refuseChoice name c choices)

/-- The arguments with as many slots filled as words follow, and the tokens behind them. -/
def fillSlots (g : Grammar) (a : Arguments) (ts : List Token) :
    List Slot → Except Stop (Arguments × List Token)
  | [] => .ok ({ a with unfilled := [] }, ts)
  | s :: ss =>
    match fill? s ts with
    | none => .ok ({ a with unfilled := s :: ss }, ts)
    | some (taken, rest) => do
      let a ← g.put a s taken
      g.fillSlots a rest ss

/-- The part of a joined value that an option without a value refuses; letters behind an option of
one letter may be further ones. -/
def refusedValue? (g : Grammar) (joined : Bool) : Text → Option Text
  | [] => some []
  | c :: t =>
    if joined || c = '-' then some (c :: t)
    else if (g.spellings.lookup [↑ '-', c]).isSome then
      match t with
      | [] => none
      | d :: u => if d = '=' then g.refusedValue? true u else g.refusedValue? false (d :: u)
    else none

/-- The arguments with the value of an option. -/
def choose (g : Grammar) (a : Arguments) (o : OptionRule) (value : Text) :
    Except Stop Arguments :=
  if o.choices.isEmpty || o.choices.contains value then
    .ok { a with options := a.options.insert o.key value }
  else .error (g.refuseChoice o.title value o.choices)

/-- How an option that asks for help ends. -/
def askForHelp (g : Grammar) (o : OptionRule) (m : Match) : Stop :=
  let refused := match m.value with
    | none => none
    | some t => if isShort m.name then g.refusedValue? m.joined t else some t
  match refused with
  | some t => g.refuse o.title ("ignored explicit argument " ++ Quoted.text t)
  | none => .help

/-- The arguments with an option that stands for `t`, and the tokens behind it. -/
def takeOption (g : Grammar) (a : Arguments) (t : Text) (m : Match) (rest : List Token) :
    Except Stop (Arguments × List Token) :=
  match m.rule with
  | none => .ok ({ a with leftover := a.leftover ++ [t] }, rest)
  | some o =>
    if !o.takesValue then .error (g.askForHelp o m)
    else match m.value, rest with
      | some value, _ => (g.choose a o value).map fun a => (a, rest)
      | none, (value, .word) :: rest => (g.choose a o value).map fun a => (a, rest)
      | none, _ => .error (g.refuse o.title "expected one argument")

/-- The arguments with tokens that fit nowhere. -/
def leave (a : Arguments) (ts : List Token) : Arguments :=
  { a with leftover := a.leftover ++ ts.map Prod.fst }

/-- The arguments with all tokens sorted in; `fuel` is greater than twice their number. -/
def sortIn (g : Grammar) : Nat → Arguments → List Token → Except Stop Arguments
  | 0, a, ts => .ok (leave a ts)
  | fuel + 1, a, ts =>
    if !ts.any isOption then do
      let (a, rest) ← g.fillSlots a ts a.unfilled
      return leave a rest
    else match ts with
      | [] => .ok a
      | (t, .option m) :: rest => do
        let (a, rest) ← g.takeOption a t m rest
        g.sortIn fuel a rest
      | ts => do
        let (b, rest) ← g.fillSlots a ts a.unfilled
        if rest.length < ts.length then g.sortIn fuel b rest
        else
          let (skipped, rest) := ts.span fun t => !isOption t
          g.sortIn fuel (leave b skipped) rest

/-- The slots and options that are needed and missing. -/
def missing (g : Grammar) (a : Arguments) : List Text :=
  a.unfilled.map Slot.name ++
    (g.options.filter fun o => o.needed && !a.options.contains o.key).map OptionRule.title

/-- The arguments of a command line, without a look at what is missing. -/
def sorted (g : Grammar) (ts : List Text) : Except Stop Arguments := do
  let tokens ← (g.marks ts).mapError fun message => .refused g.program message
  g.sortIn (2 * tokens.length + 1) ⟨.empty, .empty, none, [], g.slots⟩ tokens

/-- The arguments, refused if something is missing. -/
def complete (g : Grammar) (a : Arguments) : Except Stop Arguments :=
  if (g.missing a).isEmpty then .ok a
  else .error (.refused g.program
    ("the following arguments are required: " ++ Text.join ", " (g.missing a)))

/-- The arguments of a command line. -/
def read (g : Grammar) (ts : List Text) : Except Stop Arguments := do g.complete (← g.sorted ts)

/-- The refusal of arguments that fit nowhere. -/
def refuseLeftover (g : Grammar) (ts : List Text) : Stop :=
  .refused g.program ("unrecognized arguments: " ++ Text.join " " ts)

end Grammar
end CrossClusterKeys
