import CrossClusterKeys.Log.Record
import CrossClusterKeys.Proofs.PlainValues
import Mathlib.Tactic.SplitIfs

/-!
# Log lines read back

The line of a record is one line of printable ASCII, and what the record said can be read from it:
nothing in a message, a name or a context can break the line or stand for another part of it.

**Records.**  A record is made of attributes, set one after the other, as the record of an event is.
`contextOf` finds the context among them: the attribute `context` if it is a map with entries, and
otherwise the attributes that are not reserved.

**Assumptions.**  `Record.IsReadable` asks for a moment in the years 1 to 9999, for a message, and
for plain values and unpaired texts in everything that is to be read back.  The name of the service
may be any text.

**Results.**
* `Timestamp.ofValue_of_isDated`: those moments have timestamps.
* `Record.entries_made`: the context of a record is the one found among its attributes.
* `Record.toJson_eq`: the members of a record's line, as a `Line`.
* `Record.tells_lineOf`: what is read from these members.
* `Record.reads_back`: every record has a line, and the line says what the record said.
-/

namespace CrossClusterKeys

namespace Timestamp

section Moments

/-- The first second of the year 1. -/
def firstSecond : Int := -62135596800

/-- The last second of the year 9999. -/
def lastSecond : Int := 253402300799

theorem year_civil {day : Int} (hlow : -719162 ≤ day) (hhigh : day ≤ 2932896) :
    1 ≤ (civil day).1 ∧ (civil day).1 ≤ 9999 := by
  have hera : (day + 719468).fdiv 146097 = (day + 719468) / 146097 :=
    Int.fdiv_eq_ediv_of_nonneg _ (by decide)
  have hin : (day + 719468).fmod 146097 = (day + 719468) % 146097 :=
    Int.fmod_eq_emod_of_nonneg _ (by decide)
  unfold civil
  simp only [hera, hin]
  generalize hn : ((day + 719468) % 146097).toNat = n
  generalize he : (day + 719468) / 146097 = era
  have hday : day + 719468 = 146097 * era + n := by omega
  have hlt : n < 146097 := by omega
  -- The first and the last year of the range begin in March, so the month decides them.
  generalize hy : (n - n / 1460 + n / 36524 - n / 146096) / 365 = y
  have hyear : y ≤ 399 := by omega
  split_ifs <;> simp only <;> omega

theorem ofSeconds_isOk {n : Int} (hlow : firstSecond ≤ n) (hhigh : n ≤ lastSecond)
    (micros : Nat) : ∃ t, ofSeconds n micros = .ok t := by
  simp only [firstSecond, lastSecond] at hlow hhigh
  have hday : n.fdiv 86400 = n / 86400 := Int.fdiv_eq_ediv_of_nonneg _ (by decide)
  have hyear : 1 ≤ (civil (n / 86400)).1 ∧ (civil (n / 86400)).1 ≤ 9999 :=
    year_civil (by omega) (by omega)
  have hseconds : Int.pow 2 63 = 9223372036854775808 := by decide
  have hyears : Int.pow 2 31 = 2147483648 := by decide
  unfold ofSeconds
  rw [hday, hseconds, hyears]
  generalize civil (n / 86400) = date at hyear ⊢
  obtain ⟨year, month, day⟩ := date
  simp only at hyear ⊢
  rw [if_neg (by simp; omega), if_neg (by simp; omega), if_neg (by simp; omega)]
  exact ⟨_, rfl⟩

/-- A moment in the years 1 to 9999; of a number with a fraction the whole part lies strictly
inside. -/
def IsDated : Value → Prop
  | .int n => firstSecond ≤ n ∧ n ≤ lastSecond
  | .real x => ∃ n, x.truncate? = some n ∧ firstSecond < n ∧ n < lastSecond
  | _ => False

/-- A moment in the years 1 to 9999 has a timestamp. -/
theorem ofValue_of_isDated {v : Value} (h : IsDated v) : ∃ t, ofValue v = .ok t := by
  cases v with
  | int n => exact ofSeconds_isOk h.1 h.2 0
  | real x =>
    obtain ⟨n, hn, hlow, hhigh⟩ := h
    cases x with
    | nan => cases hn
    | infinite => cases hn
    | finite negative m e =>
      simp only [ofValue, ofReal, hn, Option.getD_some]
      split_ifs
      · exact ofSeconds_isOk (by omega) (by omega) _
      · exact ofSeconds_isOk (by omega) (by omega) _
      · exact ofSeconds_isOk (by omega) (by omega) _
  | null | bool | text | bytes | list | tuple | map | other => exact h.elim

end Moments

end Timestamp

namespace Log
namespace Record

section Attributes

/-- Attributes that no context shows unless they are put into a map of their own. -/
def reservedAttributes : List Text :=
  List.append
    ["name", "levelname", "reconcile_id", "pathname", "lineno", "funcName", "msg", "args",
      "created", "context", "exc_info"]
    hiddenAttributes

/-- The record `base` with attributes set one after the other, and no other context. -/
def made (base : Record) (attributes : List (Text × Value)) : Record :=
  attributes.foldl (fun r a => r.set a.1 a.2) { base with context := .null, extras := .empty }

/-- The attributes that are not reserved. -/
def unreserved (attributes : List (Text × Value)) : List (Text × Value) :=
  attributes.filter fun a => !reservedAttributes.contains a.1

/-- The context among attributes: the map `context` if it has entries, and otherwise the attributes
that are not reserved, if there are any. -/
def contextOf (attributes : List (Text × Value)) : Option (List (Text × Value)) :=
  let all : KeyMap Value := Table.ofList attributes
  match (all.get? "context").getD .null with
  | .map (e :: es) => some (e :: es)
  | _ =>
    match unreserved all.entries with
    | [] => none
    | e :: es => some (e :: es)

/-- The context that a line shows. -/
def shownContext (f : Format) (attributes : List (Text × Value)) :
    Option (List (Text × Value)) :=
  if f.includeContext then contextOf attributes else none

/-- The record of an event is made of its fields and of the current ID. -/
theorem toRecord_eq_made (e : Event) (created : Value) (id : Option Text) :
    e.toRecord created id =
      made (Event.toRecord { e with fields := [] } created none)
        (e.fields ++ [(Text.ofString "reconcile_id", Value.ofText id)]) := by
  rw [made, List.foldl_append, List.foldl_cons, List.foldl_nil]
  rfl

theorem context_set (r : Record) (k : Text) (v : Value) :
    (r.set k v).context = if k = "context" then v else r.context := by
  by_cases hk : k = "context"
  · subst hk
    rfl
  · simp only [set, apply_ite Record.context, ite_self, if_neg hk]

theorem extras_set (r : Record) (k : Text) (v : Value) :
    (r.set k v).extras =
      if reservedAttributes.contains k then r.extras else r.extras.insert k v := by
  simp only [set, apply_ite Record.extras, reservedAttributes, List.contains_iff_mem,
    List.append_eq, List.mem_append, List.mem_cons, List.not_mem_nil, or_false, ite_or]

theorem unreserved_cons (a : Text × Value) (es : List (Text × Value)) :
    unreserved (a :: es) =
      if reservedAttributes.contains a.1 then unreserved es else a :: unreserved es := by
  unfold unreserved
  rw [List.filter_cons]
  cases reservedAttributes.contains a.1 <;> rfl

theorem unreserved_put (k : Text) (v : Value) (es : List (Text × Value)) :
    unreserved (Table.put k v es) =
      if reservedAttributes.contains k then unreserved es else Table.put k v (unreserved es) := by
  induction es with
  | nil =>
    rw [Table.put, unreserved_cons]
    rfl
  | cons e es ih =>
    obtain ⟨k', w⟩ := e
    by_cases hk : k' = k
    · subst hk
      rw [Table.put, if_pos rfl, unreserved_cons, unreserved_cons]
      split
      · rfl
      · rw [Table.put, if_pos rfl]
    · rw [Table.put, if_neg hk, unreserved_cons, unreserved_cons, ih]
      cases reservedAttributes.contains k <;> cases reservedAttributes.contains k'
      · exact (if_neg hk).symm
      · rfl
      · rfl
      · rfl

/-- Setting attributes keeps what the record shows of them in step with the attributes. -/
theorem foldl_set (attributes : List (Text × Value)) (r : Record) (all : KeyMap Value)
    (hcontext : r.context = (all.get? "context").getD .null)
    (hextras : r.extras.entries = unreserved all.entries) :
    let r' := attributes.foldl (fun r a => r.set a.1 a.2) r
    r'.context = ((all.insertMany attributes).get? "context").getD .null ∧
      r'.extras.entries = unreserved (all.insertMany attributes).entries := by
  induction attributes generalizing r all with
  | nil => exact ⟨hcontext, hextras⟩
  | cons a attributes ih =>
    refine ih (r.set a.1 a.2) (all.insert a.1 a.2) ?_ ?_
    · rw [context_set, Table.get?_insert, hcontext]
      split <;> rfl
    · have hput := unreserved_put a.1 a.2 all.entries
      rw [← hextras] at hput
      refine Eq.trans ?_ hput.symm
      rw [extras_set]
      split <;> rfl

/-- The context of a record is the one found among its attributes. -/
theorem entries_made (base : Record) (attributes : List (Text × Value)) :
    (made base attributes).contextEntries = (contextOf attributes).getD [] := by
  obtain ⟨hcontext, hextras⟩ := foldl_set attributes
    { base with context := .null, extras := .empty } .empty rfl rfl
  rw [contextEntries, made, hcontext, hextras, contextOf, Table.ofList]
  generalize ((Table.insertMany Table.empty attributes).get? "context").getD .null = context
  generalize unreserved (Table.insertMany Table.empty attributes).entries = flat
  cases flat <;> rcases context with _ | _ | _ | _ | _ | _ | _ | _ | (_ | _) | _ <;> rfl

/-- Where attributes have a context, it has entries. -/
theorem ne_nil_of_contextOf {attributes es : List (Text × Value)}
    (h : contextOf attributes = some es) : es ≠ [] := by
  rw [contextOf] at h
  split at h
  · cases h
    exact List.cons_ne_nil _ _
  · split at h
    · cases h
    · cases h
      exact List.cons_ne_nil _ _

theorem contextMember_made (f : Format) (base : Record) (attributes : List (Text × Value)) :
    (made base attributes).contextMember f =
      ((shownContext f attributes).map fun es =>
        (Text.ofString "context", Json.object (Value.toJsonEntries es))).toList := by
  rw [contextMember, entries_made, shownContext]
  cases f.includeContext
  · rfl
  · cases h : contextOf attributes with
    | none => rfl
    | some es =>
      cases es with
      | nil => exact absurd rfl (ne_nil_of_contextOf h)
      | cons e es => rfl

end Attributes

end Record

/-- The members of a line by name. -/
structure Line where
  timestamp : Json
  level : Json
  service : Json
  logger : Json
  reconcileId : Json
  message : Json
  context : Option Json
  exception : Option Json
  source : Json

namespace Line

/-- The members of a line in order. -/
def members (x : Line) : List (Text × Json) :=
  let head : List (Text × Json) :=
    [("timestamp", x.timestamp), ("level", x.level), ("service", x.service), ("logger", x.logger),
      ("reconcile_id", x.reconcileId), ("message", x.message)]
  let context := x.context.map fun j => (Text.ofString "context", j)
  let exception := x.exception.map fun j => (Text.ofString "exception", j)
  head ++ context.toList ++ exception.toList ++ [(Text.ofString "source", x.source)]

/-- The member of a line at a key. -/
def at? (x : Line) (key : Text) : Option Json := Table.find key x.members

theorem at?_eq (x : Line) :
    x.at? "level" = some x.level ∧ x.at? "service" = some x.service ∧
      x.at? "logger" = some x.logger ∧ x.at? "reconcile_id" = some x.reconcileId ∧
      x.at? "message" = some x.message ∧ x.at? "context" = x.context ∧
      x.at? "exception" = x.exception ∧ x.at? "source" = some x.source := by
  obtain ⟨t, l, s, g, i, m, c, e, src⟩ := x
  cases c <;> cases e <;> exact ⟨rfl, rfl, rfl, rfl, rfl, rfl, rfl, rfl⟩

/-- The keys of a line are distinct and unpaired. -/
theorem keys_members (x : Line) :
    (x.members.map Prod.fst).Nodup ∧ ∀ k ∈ x.members.map Prod.fst, k.isUnpaired = true := by
  obtain ⟨t, l, s, g, i, m, c, e, src⟩ := x
  cases c <;> cases e <;>
    simp only [members, Option.map_none, Option.map_some, Option.toList_none, Option.toList_some,
      List.map_append, List.map_cons, List.map_nil, List.append_nil] <;> decide

/-- What stands in a line is read as if it had been written alone. -/
theorem at?_readBack (x : Line) (key : Text) :
    (Value.ofJson (Json.readBack (.object x.members))).at? key =
      (x.at? key).map fun j => Value.ofJson (Json.readBack j) :=
  Value.at?_readBack x.keys_members.1 x.keys_members.2 key

/-- The members of a line fit if each of them does. -/
theorem fitMembers {x : Line} {depth : Nat} (ht : x.timestamp.Fits depth)
    (hl : x.level.Fits depth) (hs : x.service.Fits depth) (hg : x.logger.Fits depth)
    (hi : x.reconcileId.Fits depth) (hm : x.message.Fits depth)
    (hc : ∀ j, x.context = some j → j.Fits depth) (he : ∀ j, x.exception = some j → j.Fits depth)
    (hsrc : x.source.Fits depth) : Json.FitMembers depth x.members := by
  obtain ⟨t, l, s, g, i, m, c, e, src⟩ := x
  cases c <;> cases e <;> simp_all [members, Json.FitMembers]

end Line

namespace Occurrence

/-- An exception that a line shows, or a value that is no exception at all. -/
def IsReadable : Occurrence → Prop
  | .raised e => e.failure.message.isUnpaired = true
  | .missing => True
  | .value v => v.isVoid = true

/-- The kind, the message and the trace of an exception, if a line shows it. -/
def shown : Occurrence → Option (Value × Value × Text)
  | .raised e => some (.text e.failure.kind, .text e.failure.message, e.trace)
  | .missing => some (.null, .null, "NoneType: None\n")
  | .value _ => none

/-- The members that show an exception. -/
def members (x : Value × Value × Text) : List (Text × Json) :=
  [("type", x.1.toJson), ("message", x.2.1.toJson), ("traceback", .text x.2.2)]

theorem isUnpaired_kind (f : Failure) : f.kind.isUnpaired = true := by
  unfold Failure.kind
  repeat' split
  all_goals decide

/-- What a line shows of an exception is plain. -/
theorem isPlain_shown {o : Occurrence} (h : o.IsReadable) {kind message : Value} {trace : Text}
    (hshown : o.shown = some (kind, message, trace)) (depth : Nat) :
    kind.IsPlain depth ∧ message.IsPlain depth := by
  cases o with
  | raised e =>
    cases hshown
    rw [Value.IsPlain, Value.IsPlain]
    exact ⟨isUnpaired_kind e.failure, h⟩
  | missing =>
    cases hshown
    rw [Value.IsPlain]
    exact ⟨trivial, trivial⟩
  | value v => cases hshown

end Occurrence

namespace Record

section Lines

variable {f : Format} {r : Record} {timestamp said : Text}
  {context : Option (List (Text × Value))}

theorem exceptionMember_eq (h : ∀ v, r.exception = some (.value v) → v.isVoid = true) :
    r.exceptionMember = .ok ((r.exception.bind Occurrence.shown).map fun x =>
      (Text.ofString "exception", Json.object (Occurrence.members x))).toList := by
  unfold exceptionMember
  cases hr : r.exception with
  | none => rfl
  | some o =>
    cases o with
    | raised e => rfl
    | missing => rfl
    | value v =>
      simp only [h v hr, if_true]
      rfl

/-- The members of a record's line. -/
def lineOf (f : Format) (r : Record) (timestamp said : Text)
    (context : Option (List (Text × Value))) : Line where
  timestamp := .text timestamp
  level := r.level.toJson
  service := .text f.service
  logger := r.logger.toJson
  reconcileId := r.reconcileId.toJson
  message := .text said
  context := context.map fun es => .object (Value.toJsonEntries es)
  exception := (r.exception.bind Occurrence.shown).map fun x => .object (Occurrence.members x)
  source := .object
    [("file", r.file.toJson), ("line", r.line.toJson), ("function", r.function.toJson)]

/-- A record that has a line: its moment has a timestamp, its places are filled, and no value stands
where an exception belongs. -/
structure HasLine (r : Record) (said : Text) : Prop where
  created : Timestamp.IsDated r.created
  message : r.message = .ok said
  exception : ∀ v, r.exception = some (.value v) → v.isVoid = true

/-- The line of a record by its members. -/
theorem toJson_eq (h : r.HasLine said)
    (hcontext : r.contextMember f =
      (context.map fun es => (Text.ofString "context", Json.object (Value.toJsonEntries es))).toList) :
    ∃ timestamp, r.toJson f = .ok (.object (lineOf f r timestamp said context).members) := by
  obtain ⟨timestamp, htimestamp⟩ := Timestamp.ofValue_of_isDated h.created
  refine ⟨timestamp, ?_⟩
  simp only [toJson, htimestamp, h.message, exceptionMember_eq h.exception, hcontext, bind,
    Except.bind, pure, Except.pure, lineOf, Line.members, Option.map_map, Function.comp_def]

theorem contextMember_shape (f : Format) (r : Record) :
    ∃ context : Option (List (Text × Value)), r.contextMember f =
      (context.map fun es =>
        (Text.ofString "context", Json.object (Value.toJsonEntries es))).toList := by
  unfold contextMember
  split
  · exact ⟨some r.contextEntries, rfl⟩
  · exact ⟨none, rfl⟩

theorem exists_toJson (h : r.HasLine said) (f : Format) :
    ∃ timestamp context,
      r.toJson f = .ok (.object (lineOf f r timestamp said context).members) := by
  obtain ⟨context, hcontext⟩ := contextMember_shape f r
  obtain ⟨timestamp, hjson⟩ := toJson_eq h hcontext
  exact ⟨timestamp, context, hjson⟩

theorem exceptionMember_shape {ms : List (Text × Json)} (h : r.exceptionMember = .ok ms) :
    ∃ e : Option Json, ms = (e.map fun j => (Text.ofString "exception", j)).toList := by
  unfold exceptionMember at h
  split at h
  · exact ⟨none, (Except.ok.inj h).symm⟩
  · exact ⟨some _, (Except.ok.inj h).symm⟩
  · exact ⟨some _, (Except.ok.inj h).symm⟩
  · next v _ =>
    split at h
    · exact ⟨none, (Except.ok.inj h).symm⟩
    · obtain ⟨kind, -, hkind⟩ := exists_of_bind_eq_ok h
      split at hkind
      · exact ⟨some _, (Except.ok.inj hkind).symm⟩
      · cases hkind

/-- Whatever a record is made of, its line shows the service and its reconcile ID. -/
theorem at?_of_toJson {j : Json} (h : r.toJson f = .ok j) :
    ∃ line : Line, j = .object line.members ∧ line.at? "service" = some (.text f.service) ∧
      line.at? "reconcile_id" = some r.reconcileId.toJson := by
  obtain ⟨context, hcontext⟩ := contextMember_shape f r
  obtain ⟨timestamp, -, h⟩ := exists_of_bind_eq_ok h
  obtain ⟨said, -, h⟩ := exists_of_bind_eq_ok h
  obtain ⟨ms, hexception, h⟩ := exists_of_bind_eq_ok h
  obtain ⟨e, rfl⟩ := exceptionMember_shape hexception
  let line : Line := { lineOf f r timestamp said context with exception := e }
  refine ⟨line, ?_, line.at?_eq.2.1, line.at?_eq.2.2.2.1⟩
  rw [hcontext] at h
  simp only [← Except.ok.inj h, line, lineOf, Line.members, Option.map_map, Function.comp_def]

/-- The exception of a record is read back. -/
theorem at?_exception {o : Occurrence} (h : o.IsReadable) {kind reason : Value} {trace : Text}
    (hshown : o.shown = some (kind, reason, trace)) :
    let e := Value.ofJson (Json.readBack (.object (Occurrence.members (kind, reason, trace))))
    e.at? "type" = some kind ∧ e.at? "message" = some reason := by
  obtain ⟨hkind, hreason⟩ := Occurrence.isPlain_shown h hshown 0
  have hread : ∀ key, (Value.ofJson (Json.readBack
      (.object (Occurrence.members (kind, reason, trace))))).at? key = _ :=
    Value.at?_readBack (show List.Nodup [Text.ofString "type", "message", "traceback"] by decide)
      (show ∀ k ∈ [Text.ofString "type", "message", "traceback"], k.isUnpaired = true by decide)
  refine ⟨(hread _).trans ?_, (hread _).trans ?_⟩
  · exact congrArg some (Value.fits_toJson hkind).2
  · exact congrArg some (Value.fits_toJson hreason).2

variable [Json.Nesting]

/-- A record whose line can be read: it has a moment with a timestamp and a message, and what is to
be read back is plain.  The values behind `source` stand a level deeper than the others. -/
structure IsReadable (r : Record) (said : Text)
    (context : Option (List (Text × Value))) : Prop where
  room : 2 ≤ Json.Nesting.levels
  created : Timestamp.IsDated r.created
  message : r.message = .ok said
  unpaired : said.isUnpaired = true
  level : r.level.IsPlain (Json.Nesting.levels - 1)
  logger : r.logger.IsPlain (Json.Nesting.levels - 1)
  reconcileId : r.reconcileId.IsPlain (Json.Nesting.levels - 1)
  file : r.file.IsPlain (Json.Nesting.levels - 2)
  line : r.line.IsPlain (Json.Nesting.levels - 2)
  function : r.function.IsPlain (Json.Nesting.levels - 2)
  exception : ∀ o, r.exception = some o → o.IsReadable
  context : ∀ es, context = some es → (Value.map es).IsPlain (Json.Nesting.levels - 1)

theorem IsReadable.hasLine (h : r.IsReadable said context) : r.HasLine said :=
  ⟨h.created, h.message, fun v hv => h.exception (.value v) hv⟩

/-- A line says what the record said. -/
structure Tells (f : Format) (r : Record) (said : Text) (context : Option (List (Text × Value)))
    (line : Value) : Prop where
  level : line.at? "level" = some r.level
  service : ∃ s, line.at? "service" = some (.text s) ∧
    (f.service.isUnpaired = true → s = f.service)
  logger : line.at? "logger" = some r.logger
  reconcileId : line.at? "reconcile_id" = some r.reconcileId
  message : line.at? "message" = some (.text said)
  source : ∃ source, line.at? "source" = some source ∧ source.at? "file" = some r.file ∧
    source.at? "line" = some r.line ∧ source.at? "function" = some r.function
  exception : ∀ kind reason trace,
    r.exception.bind Occurrence.shown = some (kind, reason, trace) →
      ∃ e, line.at? "exception" = some e ∧ e.at? "type" = some kind ∧
        e.at? "message" = some reason
  noException : r.exception.bind Occurrence.shown = none → line.at? "exception" = none
  context : line.at? "context" = context.map Value.map

theorem fits_lineOf (f : Format) (timestamp : Text) (h : r.IsReadable said context) :
    Json.Fits Json.Nesting.levels (.object (lineOf f r timestamp said context).members) := by
  have htext : ∀ depth t, Json.Fits depth (.text t) := fun depth t => by simp [Json.Fits]
  obtain ⟨depth, hdepth⟩ : ∃ depth, Json.Nesting.levels = depth + 1 + 1 :=
    ⟨_, (Nat.sub_add_cancel h.room).symm⟩
  have hone : Json.Nesting.levels - 1 = depth + 1 := by omega
  have htwo : Json.Nesting.levels - 2 = depth := by omega
  obtain ⟨-, -, -, -, hlevel, hlogger, hid, hfile, hline, hfunction, hexception, hcontext⟩ := h
  rw [hone] at hlevel hlogger hid hcontext
  rw [htwo] at hfile hline hfunction
  rw [hdepth]
  refine Line.fitMembers (htext _ _) (Value.fits_toJson hlevel).1 (htext _ _)
    (Value.fits_toJson hlogger).1 (Value.fits_toJson hid).1 (htext _ _) ?_ ?_ ?_
  · intro j hj
    obtain ⟨es, hes, rfl⟩ := Option.map_eq_some_iff.1 hj
    have hfits := (Value.fits_toJson (hcontext es hes)).1
    rwa [Value.toJson] at hfits
  · intro j hj
    obtain ⟨⟨kind, reason, trace⟩, hx, rfl⟩ := Option.map_eq_some_iff.1 hj
    obtain ⟨o, ho, hshown⟩ := Option.bind_eq_some_iff.1 hx
    obtain ⟨hkind, hreason⟩ := Occurrence.isPlain_shown (hexception o ho) hshown depth
    exact ⟨(Value.fits_toJson hkind).1, (Value.fits_toJson hreason).1, htext _ _, trivial⟩
  · exact ⟨(Value.fits_toJson hfile).1, (Value.fits_toJson hline).1,
      (Value.fits_toJson hfunction).1, trivial⟩

/-- The source of a record is read back. -/
theorem at?_source (h : r.IsReadable said context) :
    let source := Value.ofJson (Json.readBack (lineOf f r timestamp said context).source)
    source.at? "file" = some r.file ∧ source.at? "line" = some r.line ∧
      source.at? "function" = some r.function := by
  have hread : ∀ key,
      (Value.ofJson (Json.readBack (lineOf f r timestamp said context).source)).at? key = _ :=
    Value.at?_readBack (show List.Nodup [Text.ofString "file", "line", "function"] by decide)
      (show ∀ k ∈ [Text.ofString "file", "line", "function"], k.isUnpaired = true by decide)
  refine ⟨(hread _).trans ?_, (hread _).trans ?_, (hread _).trans ?_⟩
  · exact congrArg some (Value.fits_toJson h.file).2
  · exact congrArg some (Value.fits_toJson h.line).2
  · exact congrArg some (Value.fits_toJson h.function).2

/-- What is read from the members of a record's line. -/
theorem tells_lineOf (f : Format) (timestamp : Text) (h : r.IsReadable said context) :
    Tells f r said context
      (Value.ofJson (Json.readBack (.object (lineOf f r timestamp said context).members))) := by
  have hread := (lineOf f r timestamp said context).at?_readBack
  obtain ⟨hlevel, hservice, hlogger, hid, hmessage, hcontext, hexception, hsource⟩ :=
    (lineOf f r timestamp said context).at?_eq
  constructor
  case level =>
    rw [hread, hlevel]
    exact congrArg some (Value.fits_toJson h.level).2
  case service =>
    refine ⟨f.service.readBack, ?_, Text.readBack_of_isUnpaired⟩
    rw [hread, hservice]
    rfl
  case logger =>
    rw [hread, hlogger]
    exact congrArg some (Value.fits_toJson h.logger).2
  case reconcileId =>
    rw [hread, hid]
    exact congrArg some (Value.fits_toJson h.reconcileId).2
  case message =>
    rw [hread, hmessage]
    exact congrArg (fun t => some (Value.text t)) (Text.readBack_of_isUnpaired h.unpaired)
  case source =>
    exact ⟨_, by rw [hread, hsource]; rfl, at?_source h⟩
  case exception =>
    intro kind reason trace hshown
    obtain ⟨o, ho, hshown'⟩ := Option.bind_eq_some_iff.1 hshown
    refine ⟨_, ?_, at?_exception (h.exception o ho) hshown'⟩
    rw [hread, hexception, lineOf, hshown]
    rfl
  case noException =>
    intro hshown
    rw [hread, hexception, lineOf, hshown]
    rfl
  case context =>
    rw [hread, hcontext, lineOf, Option.map_map]
    cases context with
    | none => rfl
    | some es =>
      have hes := (Value.fits_toJson (h.context es rfl)).2
      rw [Value.toJson] at hes
      exact congrArg some hes

end Lines

section Events

theorem set_of_not_fixed (r : Record) {k : Text} (h : fixedAttributes.contains k = false)
    (v : Value) :
    (r.set k v).created = r.created ∧ (r.set k v).template = r.template ∧
      (r.set k v).arguments = r.arguments ∧ (r.set k v).exception = r.exception := by
  have hne : ∀ name, fixedAttributes.contains name = true → k ≠ name := by
    rintro name hname rfl
    rw [h] at hname
    cases hname
  have hcreated := hne "created" (by decide)
  have htemplate := hne "msg" (by decide)
  have harguments := hne "args" (by decide)
  have hexception := hne "exc_info" (by decide)
  refine ⟨?_, ?_, ?_, ?_⟩
  · simp only [set, apply_ite Record.created, ite_self, if_neg hcreated]
  · simp only [set, apply_ite Record.template, ite_self, if_neg htemplate]
  · simp only [set, apply_ite Record.arguments, ite_self, if_neg harguments]
  · simp only [set, apply_ite Record.exception, ite_self, if_neg hexception]

theorem foldl_of_not_fixed (r : Record) {fields : List (Text × Value)}
    (h : ∀ k ∈ fields.map Prod.fst, fixedAttributes.contains k = false) :
    let r' := fields.foldl (fun r a => r.set a.1 a.2) r
    r'.created = r.created ∧ r'.template = r.template ∧ r'.arguments = r.arguments ∧
      r'.exception = r.exception := by
  induction fields generalizing r with
  | nil => exact ⟨rfl, rfl, rfl, rfl⟩
  | cons a fields ih =>
    obtain ⟨h1, h2, h3, h4⟩ := set_of_not_fixed r (h a.1 (List.mem_cons_self ..)) a.2
    obtain ⟨h1', h2', h3', h4'⟩ := ih (r.set a.1 a.2) fun k hk => h k (List.mem_cons_of_mem _ hk)
    exact ⟨h1'.trans h1, h2'.trans h2, h3'.trans h3, h4'.trans h4⟩

/-- An event without arguments has a line, whatever its fields hold. -/
theorem hasLine_toRecord {e : Event} {created : Value} (id : Option Text)
    (hcreated : Timestamp.IsDated created) (hclash : e.clash? = none) (harguments : e.arguments = [])
    (hexception : ∀ v, e.exception = some (.value v) → v.isVoid = true) :
    (e.toRecord created id).HasLine e.template := by
  have hfields : ∀ k ∈ (e.fields ++ [(Text.ofString "reconcile_id", Value.ofText id)]).map Prod.fst,
      fixedAttributes.contains k = false := by
    intro k hk
    rw [List.map_append, List.mem_append] at hk
    rcases hk with hk | hk
    · exact Bool.eq_false_iff.2 (List.find?_eq_none.1 hclash k hk)
    · rw [List.map_singleton, List.mem_singleton] at hk
      subst hk
      exact show fixedAttributes.contains (Text.ofString "reconcile_id") = false by decide
  obtain ⟨h1, h2, h3, h4⟩ := foldl_of_not_fixed
    { Event.toRecord { e with fields := [] } created none with context := .null, extras := .empty }
    hfields
  rw [toRecord_eq_made]
  refine ⟨?_, ?_, ?_⟩
  · rw [made, h1]
    exact hcreated
  · rw [message, made, h3, h2]
    simp only [Event.toRecord, harguments]
    rfl
  · intro v hv
    rw [made, h4] at hv
    exact hexception v hv

end Events

/-- A record is one line of printable ASCII, and the line says what the record said. -/
theorem reads_back [Json.Nesting] (f : Format) (base : Record) (attributes : List (Text × Value))
    (said : Text) (h : (made base attributes).IsReadable said (shownContext f attributes)) :
    ∃ line value, (made base attributes).text f = .ok line ∧ line.IsPrintableAscii ∧
      Value.parse line = .ok value ∧
      Tells f (made base attributes) said (shownContext f attributes) value := by
  obtain ⟨timestamp, hjson⟩ := toJson_eq h.hasLine (contextMember_made f base attributes)
  have hread := Json.read_write_of_fits Json.isReadable_spaced (fits_lineOf f timestamp h)
  refine ⟨_, _, by rw [text, hjson]; rfl, ?_, by rw [Value.parse, hread]; rfl,
    tells_lineOf f timestamp h⟩
  exact Json.isPrintableAscii_write (by decide) (by decide) _

/-- A text that looks like the end of a line and the start of another one. -/
def forged : Text := "done\"\x7d\n\x7b\"level\": \"CRITICAL\", \"x\": \"\\u000a\x7d"

/-- A record whose texts try to break its line. -/
def forgery : Record where
  created := .int 1700000000
  level := .text "INFO"
  logger := .text forged
  reconcileId := .text forged
  template := .text forged
  arguments := .tuple []
  context := .null
  extras := .empty
  exception := some (.raised ⟨.basic .value [.text forged], []⟩)
  file := .text "main.py"
  line := .int 7
  function := .text forged

/-- Fields that do so too, inside a list in a map. -/
def forgedFields : List (Text × Value) :=
  [("resource", .text forged), ("context", .map [(forged, .list [.null, .int (-7), .text forged])])]

theorem reads_back_forgery :
    (made forgery forgedFields).IsReadable forged (shownContext ⟨forged, true⟩ forgedFields) ∧
      ∃ line value, (made forgery forgedFields).text ⟨forged, true⟩ = .ok line ∧
        line.IsPrintableAscii ∧ Value.parse line = .ok value ∧
        Tells ⟨forged, true⟩ (made forgery forgedFields) forged
          (shownContext ⟨forged, true⟩ forgedFields) value := by
  have hforged : forged.isUnpaired = true := by decide
  have htext : ∀ depth t, t.isUnpaired = true → (Value.text t).IsPlain depth := by
    intro depth t ht
    rwa [Value.IsPlain]
  have hint : ∀ depth (n : Int), n.natAbs < 10 → (Value.int n).IsPlain depth := by
    intro depth n hn
    rw [Value.IsPlain]
    exact Nat.lt_of_lt_of_le hn (Nat.le_self_pow (by decide) 10)
  have hcontext : shownContext ⟨forged, true⟩ forgedFields =
      some [(forged, .list [.null, .int (-7), .text forged])] := by rfl
  have h : (made forgery forgedFields).IsReadable forged
      (shownContext ⟨forged, true⟩ forgedFields) :=
    { room := by decide
      created := ⟨by decide, by decide⟩
      message := rfl
      unpaired := hforged
      level := htext _ _ (by decide)
      logger := htext _ _ hforged
      reconcileId := htext _ _ hforged
      file := htext _ _ (by decide)
      line := hint _ _ (by decide)
      function := htext _ _ hforged
      exception := by
        intro o ho
        obtain rfl := Option.some.inj ho
        exact hforged
      context := by
        intro es hes
        rw [hcontext] at hes
        obtain rfl := Option.some.inj hes
        exact ⟨List.nodup_singleton _, hforged,
          ⟨trivial, hint _ _ (by decide), htext _ _ hforged, trivial⟩, trivial⟩ }
  exact ⟨h, reads_back _ _ _ _ h⟩

end Record

end Log
end CrossClusterKeys
