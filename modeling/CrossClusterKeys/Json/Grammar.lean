import CrossClusterKeys.Json.Reader

/-!
# The grammar of JSON documents

What a text has to be like to be a document, said without a reader.  `Document` relates a text to
the document at its head and to the rest behind it, so that one rule can be put behind another.

**Limits.**  The grammar is given for a number of digits that a whole number may have and for a
number of levels of lists and objects.  A level is a relation of its own, made from the one below.

**Overruns.**  A text overruns the limits if, read from left to right, it is without a flaw up to a
whole number with too many digits or up to a bracket that opens a level too many.  What comes
behind that place does not matter.
-/

namespace CrossClusterKeys
namespace Json

section Tokens

/-- The signs of a text up to its closing quote, and what follows. -/
inductive Signs : Text → List Sign → Text → Prop
  | close {rest} : Signs ('"' :: rest) [] rest
  | plain {c : CodePoint} {t ss rest} (hquote : c ≠ '"') (hslash : c ≠ '\\') (hlow : 32 ≤ c.val)
      (h : Signs t ss rest) : Signs (c :: t) (⟨c, false⟩ :: ss) rest
  | escaped {e c t ss rest} (he : unescape? e = some c) (h : Signs t ss rest) :
      Signs ('\\' :: e :: t) (⟨c, false⟩ :: ss) rest
  | unit {a b c d n t ss rest} (hn : unitOf? a b c d = some n) (h : Signs t ss rest) :
      Signs ('\\' :: 'u' :: a :: b :: c :: d :: t) (⟨.ofNat n, true⟩ :: ss) rest

/-- The text that signs stand for. -/
def textOf (ss : List Sign) : Text := (ss.foldr pair []).map Sign.point

/-- A text between quotes, and what follows. -/
inductive Quoted : Text → Text → Text → Prop
  | intro {t ss rest} (h : Signs t ss rest) : Quoted ('"' :: t) (textOf ss) rest

/-- One digit or more. -/
def IsDigits (ds : Text) : Prop := ds ≠ [] ∧ ∀ d ∈ ds, d.isDigit = true

/-- The whole part of a number: `0`, or digits that do not start with it. -/
def IsWhole (ds : Text) : Prop :=
  ds = [CodePoint.ofChar '0'] ∨ (IsDigits ds ∧ ds.head? ≠ some (CodePoint.ofChar '0'))

/-- The part of a number behind its point, with the digits there. -/
inductive Fraction : Text → Text → Prop
  | none : Fraction [] []
  | digits {ds} (h : IsDigits ds) : Fraction ('.' :: ds) ds

/-- The sign of an exponent, and whether it is negative. -/
inductive ExponentSign : Text → Bool → Prop
  | none : ExponentSign [] false
  | plus : ExponentSign ['+'] false
  | minus : ExponentSign ['-'] true

/-- The exponent of a number. -/
inductive Exponent : Text → Option Int → Prop
  | none : Exponent [] none
  | digits {e : CodePoint} {s negative ds} (he : e = 'e' ∨ e = 'E') (hs : ExponentSign s negative)
      (h : IsDigits ds) :
      Exponent (e :: (s ++ ds))
        (some (if negative then -(Decimal.valueOf ds : Int) else Decimal.valueOf ds))

/-- A number behind its sign. -/
inductive Unsigned (limit : Nat) (negative : Bool) : Text → Json → Prop
  | int {ds} (h : IsWhole ds) (hlimit : ds.length ≤ limit) :
      Unsigned limit negative ds
        (.int (if negative then -(Decimal.valueOf ds : Int) else Decimal.valueOf ds))
  | real {ds f part x exponent} (h : IsWhole ds) (hf : Fraction f part) (hx : Exponent x exponent)
      (hreal : part ≠ [] ∨ exponent ≠ none) :
      Unsigned limit negative (ds ++ (f ++ x))
        (.real (Binary64.ofDecimal negative (Decimal.valueOf (ds ++ part))
          (exponent.getD 0 - part.length)))

/-- What stands in front of an unsigned number, and whether the number is negative. -/
inductive NumberSign : Text → Bool → Prop
  | none : NumberSign [] false
  | minus : NumberSign ['-'] true

/-- The number goes on behind its whole part. -/
inductive Continues : Text → Prop
  | digit {c t} (h : c.isDigit = true) : Continues (c :: t)
  | fraction {ds t} (h : IsDigits ds) : Continues ('.' :: (ds ++ t))
  | exponent {e : CodePoint} {s negative ds t} (he : e = 'e' ∨ e = 'E')
      (hs : ExponentSign s negative) (h : IsDigits ds) : Continues (e :: (s ++ ds ++ t))

/-- A whole number at the head of a text has too many digits. -/
inductive LongNumber (limit : Nat) : Text → Refusal → Prop
  | intro {s negative ds rest} (hs : NumberSign s negative) (h : IsWhole ds)
      (hlimit : limit < ds.length) (hrest : ¬ Continues rest) :
      LongNumber limit (s ++ (ds ++ rest)) (.tooLong ds.length)

/-- A document without items and members, and what follows. -/
inductive Atom (limit : Nat) : Text → Json → Text → Prop
  | text {t k rest} (h : Quoted t k rest) : Atom limit t (.text k) rest
  | word {w j rest} (h : (w, j) ∈ words) : Atom limit (w ++ rest) j rest
  | number {s negative n j rest} (hs : NumberSign s negative) (h : Unsigned limit negative n j) :
      Atom limit (s ++ (n ++ rest)) j rest

end Tokens

section Levels

-- What may stand inside, and what overruns there.
variable (P : Text → Json → Text → Prop) (Q : Text → Refusal → Prop)

/-- The items of a list from one of them to the closing bracket, and what follows. -/
inductive Items : Text → List Json → Text → Prop
  | last {t j u rest} (h : P t j u) (hu : skipGap u = CodePoint.ofChar ']' :: rest) :
      Items t [j] rest
  | next {t j u v js rest} (h : P t j u) (hu : skipGap u = CodePoint.ofChar ',' :: v)
      (hmore : Items (skipGap v) js rest) : Items t (j :: js) rest

/-- The members of an object from one of them to the closing brace, and what follows. -/
inductive Members : Text → List (Text × Json) → Text → Prop
  | last {t k u v j w rest} (hk : Quoted t k u) (hu : skipGap u = CodePoint.ofChar ':' :: v)
      (h : P (skipGap v) j w) (hw : skipGap w = CodePoint.ofChar '\x7d' :: rest) :
      Members t [(k, j)] rest
  | next {t k u v j w x ms rest} (hk : Quoted t k u) (hu : skipGap u = CodePoint.ofChar ':' :: v)
      (h : P (skipGap v) j w) (hw : skipGap w = CodePoint.ofChar ',' :: x)
      (hmore : Members (skipGap x) ms rest) : Members t ((k, j) :: ms) rest

/-- A list or an object, and what follows.  Of two members with one key the first gives the place
and the last the value. -/
inductive Nested : Text → Json → Text → Prop
  | emptyList {t rest} (h : skipGap t = CodePoint.ofChar ']' :: rest) :
      Nested ('[' :: t) (.list []) rest
  | list {t js rest} (h : Items P (skipGap t) js rest) : Nested ('[' :: t) (.list js) rest
  | emptyObject {t rest} (h : skipGap t = CodePoint.ofChar '\x7d' :: rest) :
      Nested ('\x7b' :: t) (.object []) rest
  | object {t ms rest} (h : Members P (skipGap t) ms rest) :
      Nested ('\x7b' :: t) (.object (Table.ofList ms).entries) rest

/-- The items of a list are flawless up to one that overruns. -/
inductive ItemsOverrun : Text → Refusal → Prop
  | here {t r} (h : Q t r) : ItemsOverrun t r
  | later {t j u v r} (h : P t j u) (hu : skipGap u = CodePoint.ofChar ',' :: v)
      (hmore : ItemsOverrun (skipGap v) r) : ItemsOverrun t r

/-- The members of an object are flawless up to one whose value overruns. -/
inductive MembersOverrun : Text → Refusal → Prop
  | here {t k u v r} (hk : Quoted t k u) (hu : skipGap u = CodePoint.ofChar ':' :: v)
      (h : Q (skipGap v) r) : MembersOverrun t r
  | later {t k u v j w x r} (hk : Quoted t k u) (hu : skipGap u = CodePoint.ofChar ':' :: v)
      (h : P (skipGap v) j w) (hw : skipGap w = CodePoint.ofChar ',' :: x)
      (hmore : MembersOverrun (skipGap x) r) : MembersOverrun t r

/-- A list or an object overruns inside. -/
inductive NestedOverrun : Text → Refusal → Prop
  | list {t r} (h : ItemsOverrun P Q (skipGap t) r) : NestedOverrun ('[' :: t) r
  | object {t r} (h : MembersOverrun P Q (skipGap t) r) : NestedOverrun ('\x7b' :: t) r

/-- A list or an object is opened where none may be. -/
inductive Opens : Text → Refusal → Prop
  | list {t} : Opens ('[' :: t) (.tooDeep .list)
  | object {t} : Opens ('\x7b' :: t) (.tooDeep .object)

end Levels

/-- A document at the head of a text within the limits, and what follows. -/
def Document (limit : Nat) : Nat → Text → Json → Text → Prop
  | 0 => Atom limit
  | depth + 1 => fun t j rest => Atom limit t j rest ∨ Nested (Document limit depth) t j rest

/-- The head of a text overruns the limits. -/
def DocumentOverrun (limit : Nat) : Nat → Text → Refusal → Prop
  | 0 => fun t r => LongNumber limit t r ∨ Opens t r
  | depth + 1 => fun t r =>
    LongNumber limit t r ∨
      NestedOverrun (Document limit depth) (DocumentOverrun limit depth) t r

/-- The text is this document within the limits, with nothing but blanks around it. -/
def IsDocumentWithin (limit depth : Nat) (t : Text) (j : Json) : Prop :=
  ∃ rest, Document limit depth (skipGap t) j rest ∧ skipGap rest = []

/-- The text is this document, however large it is. -/
def IsDocument (t : Text) (j : Json) : Prop := ∃ limit depth, IsDocumentWithin limit depth t j

/-- The text overruns the limits of the process that reads it. -/
def Overruns [Nesting] (t : Text) (r : Refusal) : Prop :=
  DocumentOverrun digitLimit Nesting.levels (skipGap t) r

end Json
end CrossClusterKeys
