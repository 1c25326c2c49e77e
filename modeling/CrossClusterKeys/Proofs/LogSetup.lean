import CrossClusterKeys.Log.Session
import CrossClusterKeys.Proofs.LogLines

/-!
# The log while it is set up again and again

Set-ups of the log, accepted and refused, in between records of any level on any logger.

**Steps.**  `Session.step` is a set-up, which changes nothing if it is refused, or a record, which
changes nothing if it names an attribute that it must not name.

**Machine.**  All that the steps leave behind of the set-ups is the level and the format of the last
one that was accepted.  `lineFor?` and `linesFrom` say from these alone which lines are written.

**Assumptions.**  Only the loggers of the API client may have a level of their own.  No logger
passes on a record whose level is not above zero.

**Results.**
* `isSetUp_step`: one step keeps the session at the last accepted set-up.
* `written_emit`: one record is written once or not at all.
* `written_run`: the lines of a whole run.
* `setup_replaced`: what this means for set-ups, for records and for the API client.
-/

namespace CrossClusterKeys
namespace Log
namespace Session

section Steps

/-- What happens to a log. -/
inductive Step
  | configure (levelName : Text) (format : Format)
  | record (e : Event)

/-- The session after a step; what is refused changes nothing. -/
def step (s : Session) : Step → Session
  | .configure levelName format =>
    match s.configure levelName format with
    | .ok t => t
    | .error _ => s
  | .record e =>
    match s.emitChecked e with
    | .ok t => t
    | .error _ => s

/-- The session after one step after the other. -/
def run (s : Session) (steps : List Step) : Session := steps.foldl step s

/-- A session without any set-up, at any moment and under any ID. -/
def fresh (ids : Nat → Text) (clock : Value) (id : Option Text) : Session :=
  { initial ids with clock := clock, reconcileId := id }

end Steps

section Machine

/-- The level and the format of the last accepted set-up. -/
abbrev Setup := Option (Int × Format)

/-- The set-up after a step. -/
def Setup.after (setup : Setup) : Step → Setup
  | .configure levelName format =>
    match Level.ofName? levelName with
    | some level => some (level, format)
    | none => setup
  | .record _ => setup

/-- The set-up after one step after the other. -/
def Setup.afterAll (setup : Setup) (steps : List Step) : Setup := steps.foldl Setup.after setup

/-- The least level of a logger under a level of the log. -/
def floorOf (level : Int) (logger : Text) : Int :=
  if isClient logger then clientFloor level else level

/-- The line of an event under a set-up. -/
def lineFor? (setup : Setup) (clock : Value) (id : Option Text) (e : Event) : Option Json :=
  match setup with
  | some (level, format) =>
    if 0 < e.level ∧ floorOf level e.logger ≤ e.level then
      ((e.toRecord clock id).toJson format).toOption
    else none
  | none => none

/-- The lines of steps, one for each record that has a line under the set-up of its moment. -/
def linesFrom (clock : Value) (id : Option Text) : Setup → List Step → List Json
  | _, [] => []
  | setup, .configure levelName format :: steps =>
    linesFrom clock id (setup.after (.configure levelName format)) steps
  | setup, .record e :: steps =>
    if e.clash?.isSome then linesFrom clock id setup steps
    else (lineFor? setup clock id e).toList ++ linesFrom clock id setup steps

/-- A session is set up by the last accepted set-up, or as at the start. -/
def IsSetUp (s : Session) : Setup → Prop
  | some (level, format) =>
    s.rootLevel = level ∧ s.clientLevel = clientFloor level ∧ s.handlers = [⟨level, some format⟩]
  | none => s.rootLevel = Level.critical ∧ s.clientLevel = 0 ∧ s.handlers = [⟨Level.critical, none⟩]

theorem le_clientFloor (level : Int) : level ≤ clientFloor level ∧ Level.info ≤ clientFloor level :=
  ⟨le_max_left _ _, le_max_right _ _⟩

theorem levelOf_eq {s : Session} {level : Int} {format : Format}
    (h : s.IsSetUp (some (level, format))) (logger : Text) :
    s.levelOf logger = floorOf level logger := by
  have hfloor := (le_clientFloor level).2
  have hne : clientFloor level ≠ 0 := by
    rw [Level.info] at hfloor
    omega
  rw [levelOf, floorOf, h.1, h.2.1]
  simp only [hne, ne_eq, not_false_eq_true, decide_true, Bool.and_true]

end Machine

section OneStep

variable {s : Session} {setup : Setup}

theorem configure_refused {levelName : Text} (h : Level.ofName? levelName = none)
    (format : Format) :
    s.configure levelName format = .error (.ofValue ("Invalid log level: " ++ levelName)) := by
  rw [configure, h]

theorem configure_accepted {levelName : Text} {level : Int}
    (h : Level.ofName? levelName = some level) (format : Format) :
    s.configure levelName format =
      .ok { s with
        rootLevel := level
        clientLevel := clientFloor level
        handlers := [⟨level, some format⟩] } := by
  rw [configure, h]

theorem emit_eq (s : Session) (e : Event) : ∃ lines, s.emit e = { s with written := lines } := by
  unfold emit
  split
  · exact ⟨_, rfl⟩
  · exact ⟨s.written, rfl⟩

/-- The session after a record: one that must not be logged changes nothing. -/
theorem step_record (s : Session) (e : Event) :
    s.step (.record e) = if e.clash?.isSome then s else s.emit e := by
  cases hclash : e.clash? with
  | none =>
    simp only [step, emitChecked, hclash]
    rfl
  | some field =>
    simp only [step, emitChecked, hclash]
    by_cases hp : s.passes e = true
    · rw [if_pos hp]
      rfl
    · rw [if_neg hp]
      rfl

/-- A record changes what is written and nothing else. -/
theorem step_record_eq (s : Session) (e : Event) :
    ∃ lines, s.step (.record e) = { s with written := lines } := by
  rw [step_record]
  split
  · exact ⟨s.written, rfl⟩
  · exact s.emit_eq e

/-- One step keeps the session at the last accepted set-up. -/
theorem isSetUp_step (h : s.IsSetUp setup) (st : Step) : (s.step st).IsSetUp (setup.after st) := by
  cases st with
  | configure levelName format =>
    cases hlevel : Level.ofName? levelName with
    | none =>
      simp only [step, configure_refused hlevel, Setup.after, hlevel]
      exact h
    | some level =>
      simp only [step, configure_accepted hlevel, Setup.after, hlevel]
      exact ⟨rfl, rfl, rfl⟩
  | record e =>
    obtain ⟨lines, hlines⟩ := s.step_record_eq e
    rw [hlines]
    cases setup with
    | none => exact h
    | some setup => exact h

/-- One record is written once or not at all. -/
theorem written_emit (h : s.IsSetUp setup) (e : Event) :
    (s.emit e).written = s.written ++ (lineFor? setup s.clock s.reconcileId e).toList := by
  unfold emit
  cases setup with
  | none =>
    obtain ⟨-, -, hhandlers⟩ := h
    have hnone : s.handlers.filterMap (s.documentOf? e) = [] := by rw [hhandlers]; rfl
    rw [hnone]
    rw [lineFor?, Option.toList_none, List.append_nil]
    split <;> rfl
  | some setup =>
    obtain ⟨level, format⟩ := setup
    have hlevel := levelOf_eq h e.logger
    obtain ⟨-, -, hhandlers⟩ := h
    have hpasses : s.passes e = true ↔ 0 < e.level ∧ floorOf level e.logger ≤ e.level := by
      rw [passes, hlevel, Bool.and_eq_true, decide_eq_true_eq, decide_eq_true_eq]
    by_cases hp : 0 < e.level ∧ floorOf level e.logger ≤ e.level
    · -- What passes the level of its logger passes the handler, whose level is not above it.
      have hle : level ≤ e.level := by
        have hfloor := (le_clientFloor level).1
        have hreached := hp.2
        unfold floorOf at hreached
        split at hreached <;> omega
      have hdocument : s.documentOf? e ⟨level, some format⟩ =
          ((e.toRecord s.clock s.reconcileId).toJson format).toOption := if_pos hle
      rw [if_pos (hpasses.2 hp), lineFor?, if_pos hp, hhandlers, List.filterMap_cons, hdocument]
      cases ((e.toRecord s.clock s.reconcileId).toJson format).toOption <;> rfl
    · rw [if_neg fun hpass => hp (hpasses.1 hpass), lineFor?, if_neg hp]
      exact (List.append_nil _).symm

/-- A record that must not be logged, or that has no line under the set-up, writes nothing. -/
theorem written_step (h : s.IsSetUp setup) (e : Event) :
    (s.step (.record e)).written =
      s.written ++ (if e.clash?.isSome then none else
        lineFor? setup s.clock s.reconcileId e).toList := by
  rw [step_record]
  split
  · exact (List.append_nil _).symm
  · exact written_emit h e

end OneStep

section Runs

theorem isSetUp_fresh (ids : Nat → Text) (clock : Value) (id : Option Text) :
    (fresh ids clock id).IsSetUp none := ⟨rfl, rfl, rfl⟩

/-- A step keeps the moment and the ID that records are stamped with, and what IDs there are. -/
theorem stamps_step (s : Session) (st : Step) :
    (s.step st).clock = s.clock ∧ (s.step st).reconcileId = s.reconcileId ∧
      (s.step st).ids = s.ids := by
  cases st with
  | configure levelName format =>
    cases hlevel : Level.ofName? levelName with
    | none =>
      simp only [step, configure_refused hlevel, and_self]
    | some level =>
      simp only [step, configure_accepted hlevel, and_self]
  | record e =>
    obtain ⟨lines, hlines⟩ := s.step_record_eq e
    rw [hlines]
    exact ⟨rfl, rfl, rfl⟩

theorem written_configure (s : Session) (levelName : Text) (format : Format) :
    (s.step (.configure levelName format)).written = s.written := by
  cases hlevel : Level.ofName? levelName with
  | none => simp only [step, configure_refused hlevel]
  | some level => simp only [step, configure_accepted hlevel]

theorem stamps_run (s : Session) (steps : List Step) :
    (s.run steps).clock = s.clock ∧ (s.run steps).reconcileId = s.reconcileId := by
  induction steps generalizing s with
  | nil => exact ⟨rfl, rfl⟩
  | cons st steps ih =>
    obtain ⟨hclock, hid, -⟩ := s.stamps_step st
    exact ⟨(ih (s.step st)).1.trans hclock, (ih (s.step st)).2.trans hid⟩

/-- A run keeps the session at the last accepted set-up. -/
theorem isSetUp_run {s : Session} {setup : Setup} (h : s.IsSetUp setup) (steps : List Step) :
    (s.run steps).IsSetUp (setup.afterAll steps) := by
  induction steps generalizing s setup with
  | nil => exact h
  | cons st steps ih => exact ih (isSetUp_step h st)

/-- The lines of a run are those of its records, in order and each once. -/
theorem written_run {s : Session} {setup : Setup} (h : s.IsSetUp setup) (steps : List Step) :
    (s.run steps).written = s.written ++ linesFrom s.clock s.reconcileId setup steps := by
  induction steps generalizing s setup with
  | nil => exact (List.append_nil _).symm
  | cons st steps ih =>
    obtain ⟨hclock, hid, -⟩ := s.stamps_step st
    have hsteps := ih (isSetUp_step h st)
    rw [hclock, hid] at hsteps
    refine hsteps.trans ?_
    cases st with
    | configure levelName format =>
      rw [written_configure, linesFrom]
    | record e =>
      rw [written_step h, linesFrom, List.append_assoc]
      split <;> rfl

/-- No record of the API client below `INFO` has a line under any set-up. -/
theorem lineFor?_client {e : Event} (hclient : isClient e.logger = true)
    (hlevel : e.level < Level.info) (setup : Setup) (clock : Value) (id : Option Text) :
    lineFor? setup clock id e = none := by
  cases setup with
  | none => rfl
  | some setup =>
    obtain ⟨level, format⟩ := setup
    have hfloor := (le_clientFloor level).2
    refine if_neg fun h => ?_
    have hreached := h.2
    rw [floorOf, if_pos hclient] at hreached
    omega

/-- What passes both levels is written as the format has it. -/
theorem lineFor?_passing {level : Int} (format : Format) (clock : Value) (id : Option Text)
    {e : Event} (hpositive : 0 < e.level) (hlevel : floorOf level e.logger ≤ e.level) :
    lineFor? (some (level, format)) clock id e =
      ((e.toRecord clock id).toJson format).toOption :=
  if_pos ⟨hpositive, hlevel⟩

/-- Setting up the log replaces what was set up before, and the API client never says more than
`INFO`. -/
theorem setup_replaced (ids : Nat → Text) (clock : Value) (id : Option Text) (steps : List Step) :
    let s := (fresh ids clock id).run steps
    (∀ levelName format, Level.ofName? levelName = none →
      s.configure levelName format = .error (.ofValue ("Invalid log level: " ++ levelName)) ∧
      s.step (.configure levelName format) = s) ∧
    (∀ levelName format level, Level.ofName? levelName = some level →
      let t := s.step (.configure levelName format)
      s.configure levelName format = .ok t ∧ t.handlers = [⟨level, some format⟩] ∧
      t.rootLevel = level ∧ t.clientLevel = max level Level.info ∧ t.written = s.written) ∧
    (∀ level format, Setup.afterAll none steps = some (level, format) →
      s.handlers = [⟨level, some format⟩] ∧
      ∀ e, e.clash? = none → s.passes e = true →
        let line := (e.toRecord clock id).toJson format
        (∀ j, line = .ok j → (s.step (.record e)).written = s.written ++ [j] ∧
          ∃ members : Line, j = .object members.members ∧
            members.at? "service" = some (.text format.service)) ∧
        (∀ f, line = .error f → (s.step (.record e)).written = s.written) ∧
        ∀ said, (e.toRecord clock id).HasLine said → ∃ j, line = .ok j) ∧
    (∀ e, s.passes e = false → (s.step (.record e)).written = s.written) ∧
    (∀ e, isClient e.logger = true → e.level < Level.info →
      (s.step (.record e)).written = s.written) ∧
    s.written = linesFrom clock id none steps := by
  intro s
  have hsetup : s.IsSetUp (Setup.afterAll none steps) :=
    isSetUp_run (isSetUp_fresh ids clock id) steps
  obtain ⟨hclock, hid⟩ : s.clock = clock ∧ s.reconcileId = id :=
    stamps_run (fresh ids clock id) steps
  refine ⟨?_, ?_, ?_, ?_, ?_, ?_⟩
  · intro levelName format hlevel
    have hrefused : s.configure levelName format = _ := configure_refused hlevel format
    exact ⟨hrefused, by rw [step, hrefused]⟩
  · intro levelName format level hlevel
    have haccepted : s.configure levelName format = _ := configure_accepted hlevel format
    simp only [step, haccepted]
    exact ⟨trivial, trivial, trivial, rfl, trivial⟩
  · intro level format hlast
    rw [hlast] at hsetup
    refine ⟨hsetup.2.2, fun e hclash hpasses => ?_⟩
    rw [passes, levelOf_eq hsetup, Bool.and_eq_true, decide_eq_true_eq,
      decide_eq_true_eq] at hpasses
    have hwritten := written_step hsetup e
    rw [hclash, hclock, hid, lineFor?_passing format clock id hpasses.1 hpasses.2] at hwritten
    refine ⟨fun j hj => ⟨?_, ?_⟩, fun f hf => ?_, fun said hline => ?_⟩
    · rw [hj] at hwritten
      exact hwritten
    · obtain ⟨line, hmembers, hservice, -⟩ := Record.at?_of_toJson hj
      exact ⟨line, hmembers, hservice⟩
    · rw [hf] at hwritten
      exact hwritten.trans (List.append_nil _)
    · obtain ⟨timestamp, context, hjson⟩ := Record.exists_toJson hline format
      exact ⟨_, hjson⟩
  · intro e hpasses
    rw [step_record, emit, hpasses]
    split <;> rfl
  · intro e hclient hlevel
    rw [written_step hsetup, lineFor?_client hclient hlevel]
    split <;> exact List.append_nil _
  · exact written_run (isSetUp_fresh ids clock id) steps

/-- A set-up, a refused one, a request body of the API client and a second set-up that lets
everything pass. -/
def repeatedSetup : List Step :=
  [.configure "info" ⟨"first", true⟩, .configure "verbose" ⟨"lost", true⟩,
    .record (Event.plain "kubernetes.client.rest" Level.debug "body" []),
    .configure "notset" ⟨"second", true⟩]

theorem setup_replaced_twice :
    Level.ofName? "verbose" = none ∧
      Setup.afterAll none repeatedSetup = some (0, ⟨"second", true⟩) ∧
      let s := (fresh (fun _ => "id") (.int 0) none).run repeatedSetup
      s.handlers = [⟨0, some ⟨"second", true⟩⟩] ∧
      (∃ line : Line, (s.step (.record (Event.plain "libs" 1 "detail" []))).written =
        s.written ++ [.object line.members] ∧ line.at? "service" = some (.text "second")) ∧
      (s.step (.record (Event.plain "kubernetes" Level.debug "body" []))).written = s.written := by
  have hinfo : Level.ofName? "info" = some 20 := by decide +kernel
  have hverbose : Level.ofName? "verbose" = none := by decide +kernel
  have hnotset : Level.ofName? "notset" = some 0 := by decide +kernel
  have hlast : Setup.afterAll none repeatedSetup = some (0, ⟨"second", true⟩) := by
    simp only [Setup.afterAll, repeatedSetup, List.foldl_cons, List.foldl_nil, Setup.after, hinfo,
      hverbose, hnotset]
  have hline : (Event.toRecord (Event.plain "libs" 1 "detail" []) (.int 0) none).HasLine "detail" :=
    Record.hasLine_toRecord none ⟨by decide, by decide⟩ rfl rfl fun v hv => by cases hv
  obtain ⟨-, -, hrecords, -, hclient, -⟩ :=
    setup_replaced (fun _ => "id") (.int 0) none repeatedSetup
  obtain ⟨hhandlers, hone⟩ := hrecords 0 ⟨"second", true⟩ hlast
  refine ⟨hverbose, hlast, hhandlers, ?_, ?_⟩
  · obtain ⟨hwritten, -, hhas⟩ :=
      hone (Event.plain "libs" 1 "detail" []) rfl (by decide +kernel)
    obtain ⟨j, hj⟩ := hhas "detail" hline
    obtain ⟨hone, line, rfl, hservice⟩ := hwritten j hj
    exact ⟨line, hone, hservice⟩
  · exact hclient _ (by decide +kernel) (by decide)

end Runs

end Session
end Log
end CrossClusterKeys
