import Mathlib.Data.List.Induction
import CrossClusterKeys.Proofs.Backings

/-!
# Scopes of reconcile IDs as a stack

The current reconcile ID is one variable that everything may set or clear, and each open scope keeps
the ID to bring back.  In between, records are written, the log is set up, scopes are opened and
closed and whole passes run.

**Steps.**  `Scopes.step` is one such thing.  A pass runs over a backing and in a state of its own.
Leaving a scope by a failure is leaving it.

**Parts.**  In a closed part every scope that is entered is left again, and no other one is.  A
balanced part is a closed one that sets and clears IDs inside its scopes only.

**Results.**
* `step_pass`: a pass shows its ID on all of its lines and leaves the current one as it was.
* `run_of_closed`, `run_of_balanced`: closed parts keep the open scopes, balanced parts also the
  current ID.
* `areOpen_run`: every open scope was entered under the ID that it keeps, and a closed part
  followed.
* `isNamed_run`: no current or kept ID is empty.
* `scopes_restore`: the scopes are a stack.
-/

namespace CrossClusterKeys
namespace Log
namespace Scopes

section Steps

/-- Something that happens while scopes are open or none is. -/
inductive Step
  | set (id : Text)
  | clear
  /-- A record or a set-up of the log. -/
  | log (st : Session.Step)
  | enter (id : Option Text)
  /-- Leaves the innermost scope, by a failure if there is one. -/
  | leave (failure : Option Raised)
  | pass (B : Backing) (state : B.State) (cluster : Cluster) (expected : List IssuedKey)
      (attempts : Int) (id : Option Text)

/-- The scopes after a step.  An ID that is refused changes nothing. -/
def step [Json.Nesting] (x : Scopes) : Step → Scopes
  | .set id =>
    match x.session.setId id with
    | .ok s => { x with session := s }
    | .error _ => x
  | .clear => { x with session := x.session.clearId }
  | .log st => { x with session := x.session.step st }
  | .enter id => (x.enter id).2
  | .leave _ => x.leave
  | .pass B state cluster expected attempts id =>
    { x with
      session := (B.run (Pass.run cluster expected attempts id).run ⟨x.session, []⟩ state).2.1.session }

/-- The scopes after one step after the other. -/
def run [Json.Nesting] (x : Scopes) (steps : List Step) : Scopes := steps.foldl step x

theorem run_append [Json.Nesting] (x : Scopes) (steps more : List Step) :
    x.run (steps ++ more) = (x.run steps).run more := List.foldl_append

/-- The ID that the lines of a step show. -/
def idDuring (x : Scopes) : Step → Option Text
  | .pass _ _ _ _ _ id => some (idFor x.session id).1
  | _ => x.session.reconcileId

/-- A step that neither enters nor leaves a scope. -/
def Step.IsFlat : Step → Prop
  | .enter _ => False
  | .leave _ => False
  | _ => True

/-- A step that neither enters nor leaves a scope nor sets or clears the ID. -/
def Step.IsQuiet : Step → Prop
  | .log _ => True
  | .pass .. => True
  | _ => False

/-- Every scope that is entered is left again, and no other one is. -/
inductive Closed : List Step → Prop
  | nil : Closed []
  | flat {st : Step} {rest : List Step} : st.IsFlat → Closed rest → Closed (st :: rest)
  | scope {inner rest : List Step} (id : Option Text) (failure : Option Raised) :
    Closed inner → Closed rest → Closed (.enter id :: (inner ++ .leave failure :: rest))

/-- A closed part that sets and clears IDs inside its scopes only. -/
inductive Balanced : List Step → Prop
  | nil : Balanced []
  | quiet {st : Step} {rest : List Step} : st.IsQuiet → Balanced rest → Balanced (st :: rest)
  | scope {inner rest : List Step} (id : Option Text) (failure : Option Raised) :
    Closed inner → Balanced rest → Balanced (.enter id :: (inner ++ .leave failure :: rest))

theorem Closed.append {part more : List Step} (h : Closed part) (hmore : Closed more) :
    Closed (part ++ more) := by
  induction h with
  | nil => exact hmore
  | flat hst _ ih => exact .flat hst ih
  | scope id failure hinner _ _ ih =>
    rw [List.cons_append, List.append_assoc, List.cons_append]
    exact .scope id failure hinner ih

end Steps

section OneStep

variable (x : Scopes)

/-- Finding the ID of a scope draws one at most. -/
theorem idFor_snd (s : Session) (id : Option Text) :
    ∃ drawn, (idFor s id).2 = { s with drawn := drawn } := by
  cases id with
  | none => exact ⟨_, rfl⟩
  | some t =>
    cases t with
    | nil => exact ⟨_, rfl⟩
    | cons c t => exact ⟨s.drawn, rfl⟩

variable [Json.Nesting]

/-- A pass shows its ID on all of its lines and leaves the current one as it was. -/
theorem step_pass (B : Backing) (state : B.State) (cluster : Cluster) (expected : List IssuedKey)
    (attempts : Int) (id : Option Text) :
    let s := (x.step (.pass B state cluster expected attempts id)).session
    x.session.Adds (some (idFor x.session id).1) s ∧ s.reconcileId = x.session.reconcileId ∧
      s.ids = x.session.ids := by
  obtain ⟨drawn, hdrawn⟩ := idFor_snd x.session id
  have hrun := B.run_underId ⟨x.session, []⟩ state id (Pass.body cluster expected attempts)
  have hbody := B.run_of_sparesId
    ⟨{ (idFor x.session id).2 with reconcileId := some (idFor x.session id).1 }, []⟩ state
    (Pass.sparesId_body cluster expected attempts)
  have hids := B.ids_run
    ⟨{ (idFor x.session id).2 with reconcileId := some (idFor x.session id).1 }, []⟩ state
    (Pass.body cluster expected attempts).run
  simp only [step, Pass.run, hrun]
  rw [hdrawn] at hbody hids ⊢
  obtain ⟨lines, hwritten, hlines⟩ := hbody.1
  exact ⟨⟨lines, hwritten, hlines⟩, rfl, hids⟩

/-- The lines that a step adds show the ID of the step. -/
theorem adds_step (st : Step) : x.session.Adds (x.idDuring st) (x.step st).session := by
  cases st with
  | set id =>
    refine .refl _ ?_
    cases id <;> rfl
  | clear => exact .refl _ rfl
  | log st => exact (x.session.adds_step st).1
  | enter id =>
    obtain ⟨drawn, hdrawn⟩ := idFor_snd x.session id
    refine .refl _ ?_
    simp only [step, enter, hdrawn]
  | leave failure =>
    refine .refl _ ?_
    unfold step leave
    cases x.saved <;> rfl
  | pass B state cluster expected attempts id =>
    exact (x.step_pass B state cluster expected attempts id).1

theorem saved_step {st : Step} (h : st.IsFlat) : (x.step st).saved = x.saved := by
  cases st with
  | set id => cases id <;> rfl
  | enter id => exact h.elim
  | leave failure => exact h.elim
  | _ => rfl

theorem step_of_quiet {st : Step} (h : st.IsQuiet) :
    (x.step st).session.reconcileId = x.session.reconcileId ∧ (x.step st).saved = x.saved := by
  cases st with
  | log st => exact ⟨(x.session.adds_step st).2.1, rfl⟩
  | pass B state cluster expected attempts id =>
    exact ⟨(x.step_pass B state cluster expected attempts id).2.1, rfl⟩
  | _ => exact h.elim

/-- Leaving a scope brings back the ID that it keeps. -/
theorem step_leave {before : Option Text} {saved : List (Option Text)}
    (h : x.saved = before :: saved) (failure : Option Raised) :
    (x.step (.leave failure)).session.reconcileId = before ∧
      (x.step (.leave failure)).saved = saved := by
  simp only [step, leave, h]
  exact ⟨trivial, trivial⟩

end OneStep

section Parts

/-- A closed part keeps the open scopes, whatever is set or cleared. -/
theorem run_of_closed [Json.Nesting] {part : List Step} (h : Closed part) (x : Scopes) :
    (x.run part).saved = x.saved := by
  induction h generalizing x with
  | nil => rfl
  | flat hst _ ih => exact (ih _).trans (x.saved_step hst)
  | scope id failure _ _ ihinner ih =>
    change ((x.step (.enter id)).run _).saved = _
    rw [run_append]
    exact (ih _).trans (step_leave _ (ihinner _) failure).2

/-- A scope that is left brings back the ID under which it was entered. -/
theorem run_scope [Json.Nesting] {inner : List Step} (h : Closed inner) (x : Scopes)
    (id : Option Text) (failure : Option Raised) :
    let y := ((x.step (.enter id)).run inner).step (.leave failure)
    y.session.reconcileId = x.session.reconcileId ∧ y.saved = x.saved :=
  step_leave _ (run_of_closed h (x.step (.enter id))) failure

/-- A balanced part keeps the current ID and the open scopes. -/
theorem run_of_balanced [Json.Nesting] {part : List Step} (h : Balanced part) (x : Scopes) :
    (x.run part).session.reconcileId = x.session.reconcileId ∧ (x.run part).saved = x.saved := by
  induction h generalizing x with
  | nil => exact ⟨rfl, rfl⟩
  | @quiet st rest hst _ ih =>
    obtain ⟨hid, hsaved⟩ := x.step_of_quiet hst
    obtain ⟨hlater, hkept⟩ := ih (x.step st)
    exact ⟨hlater.trans hid, hkept.trans hsaved⟩
  | @scope inner rest id failure hinner _ ih =>
    obtain ⟨hid, hsaved⟩ := run_scope hinner x id failure
    obtain ⟨hlater, hkept⟩ := ih (((x.step (.enter id)).run inner).step (.leave failure))
    have hrun : x.run (.enter id :: (inner ++ .leave failure :: rest)) =
        (((x.step (.enter id)).run inner).step (.leave failure)).run rest :=
      (x.step (.enter id)).run_append inner _
    rw [hrun]
    exact ⟨hlater.trans hid, hkept.trans hsaved⟩

/-- The open scopes after some steps: each was entered under the ID that it keeps, and a closed part
followed until the next one was entered. -/
inductive AreOpen [Json.Nesting] (s : Session) : List Step → List (Option Text) → Prop
  | none (steps : List Step) : AreOpen s steps []
  | scope {earlier body : List Step} {saved : List (Option Text)} (id : Option Text) :
    AreOpen s earlier saved → Closed body →
    AreOpen s (earlier ++ .enter id :: body)
      (((none s).run earlier).session.reconcileId :: saved)

theorem AreOpen.append [Json.Nesting] {s : Session} {steps part : List Step}
    {saved : List (Option Text)}
    (h : AreOpen s steps saved) (hpart : Closed part) : AreOpen s (steps ++ part) saved := by
  cases h with
  | none => exact .none _
  | scope id hearlier hbody =>
    rw [List.append_assoc, List.cons_append]
    exact .scope id hearlier (hbody.append hpart)

theorem areOpen_run [Json.Nesting] (s : Session) (steps : List Step) :
    AreOpen s steps ((none s).run steps).saved := by
  -- By induction from the right: a scope that is left was followed by a closed part, and together
  -- with its two ends this is a closed part of the scope around it.
  induction steps using List.reverseRecOn with
  | nil => exact .none _
  | append_singleton steps st ih =>
    have hflat : st.IsFlat → AreOpen s (steps ++ [st]) ((none s).run (steps ++ [st])).saved := by
      intro hst
      rw [run_append]
      have hsaved := ((none s).run steps).saved_step hst
      exact hsaved ▸ ih.append (.flat hst .nil)
    cases st with
    | enter id =>
      rw [run_append]
      exact .scope id ih .nil
    | leave failure =>
      rw [run_append]
      change AreOpen s _ ((none s).run steps).leave.saved
      unfold leave
      cases hopen : ((none s).run steps).saved with
      | nil =>
        simp only [hopen]
        exact .none _
      | cons before saved =>
        rw [hopen] at ih
        cases ih with
        | scope id hearlier hbody =>
          rw [List.append_assoc]
          exact hearlier.append (.scope id failure hbody .nil)
    | _ => exact hflat trivial

end Parts

section Names

/-- No ID that is current or kept is empty, and none that can be drawn. -/
structure IsNamed (x : Scopes) : Prop where
  ids : ∀ n, x.session.ids n ≠ []
  current : x.session.reconcileId ≠ some []
  saved : ∀ before ∈ x.saved, before ≠ some []

/-- Brings back an ID, or that there was none. -/
def restore (s : Session) : Option Text → Except Failure Session
  | some t => s.setId t
  | Option.none => .ok s.clearId

theorem setId_of_ne {t : Text} (h : t ≠ []) (s : Session) :
    s.setId t = .ok { s with reconcileId := some t } := by
  cases t with
  | nil => exact absurd rfl h
  | cons c t => rfl

theorem restore_of_ne {before : Option Text} (h : before ≠ some []) (s : Session) :
    restore s before = .ok { s with reconcileId := before } := by
  cases before with
  | none => rfl
  | some t => exact setId_of_ne (fun ht => h (congrArg some ht)) s

theorem idFor_ne {s : Session} (h : ∀ n, s.ids n ≠ []) (id : Option Text) : (idFor s id).1 ≠ [] := by
  cases id with
  | none => exact h _
  | some t =>
    cases t with
    | nil => exact h _
    | cons c t => exact List.cons_ne_nil c t

theorem isNamed_step [Json.Nesting] {x : Scopes} (h : x.IsNamed) (st : Step) :
    (x.step st).IsNamed := by
  cases st with
  | set id =>
    cases id with
    | nil => exact h
    | cons c t => exact ⟨h.ids, (fun hid => by cases hid), h.saved⟩
  | clear => exact ⟨h.ids, (fun hid => by cases hid), h.saved⟩
  | log st =>
    obtain ⟨-, hid, hids⟩ := x.session.adds_step st
    exact ⟨fun n => (congrFun hids n).trans_ne (h.ids n), hid.trans_ne h.current, h.saved⟩
  | enter id =>
    obtain ⟨drawn, hdrawn⟩ := idFor_snd x.session id
    have hown := idFor_ne h.ids id
    refine ⟨fun n => ?_, fun hid => hown (Option.some.inj hid),
      List.forall_mem_cons.2 ⟨h.current, h.saved⟩⟩
    simp only [step, enter, hdrawn]
    exact h.ids n
  | leave failure =>
    simp only [step, leave]
    split
    · next before saved hopen =>
      obtain ⟨hbefore, hsaved⟩ := List.forall_mem_cons.1 (hopen ▸ h.saved)
      exact ⟨h.ids, hbefore, hsaved⟩
    · exact h
  | pass B state cluster expected attempts id =>
    obtain ⟨-, hid, hids⟩ := x.step_pass B state cluster expected attempts id
    exact ⟨fun n => (congrFun hids n).trans_ne (h.ids n), hid.trans_ne h.current, h.saved⟩

theorem isNamed_run [Json.Nesting] {x : Scopes} (h : x.IsNamed) (steps : List Step) :
    (x.run steps).IsNamed := by
  induction steps generalizing x with
  | nil => exact h
  | cons st steps ih => exact ih (isNamed_step h st)

end Names

/-- The scopes are a stack: leaving the innermost one brings back the ID under which it was entered,
so balanced parts keep the current ID, and every line shows the ID of its moment. -/
theorem scopes_restore [Json.Nesting] (s : Session) (steps : List Step) :
    let x := (none s).run steps
    (∀ failure, x.saved ≠ [] → ∃ earlier id body,
      steps = earlier ++ .enter id :: body ∧ Closed body ∧
      (x.step (.leave failure)).session.reconcileId =
        ((none s).run earlier).session.reconcileId ∧
      (x.step (.leave failure)).saved = ((none s).run earlier).saved) ∧
    (∀ part, Balanced part →
      (x.run part).session.reconcileId = x.session.reconcileId ∧ (x.run part).saved = x.saved) ∧
    (∀ id, (x.step (.enter id)).session.reconcileId = some (idFor x.session id).1) ∧
    (∀ st, x.session.Adds (x.idDuring st) (x.step st).session) ∧
    ((none s).IsNamed →
      (∀ id, (idFor x.session id).2.setId (idFor x.session id).1 = .ok (x.enter id).2.session) ∧
      ∀ before ∈ x.session.reconcileId :: x.saved, ∀ t : Session,
        restore t before = .ok { t with reconcileId := before }) := by
  intro x
  refine ⟨fun failure hopen => ?_, fun part hpart => run_of_balanced hpart x, fun id => rfl,
    x.adds_step, fun hnamed => ?_⟩
  · obtain ⟨before, saved, hsaved⟩ := List.exists_cons_of_ne_nil hopen
    have hscopes : AreOpen s steps (before :: saved) := hsaved ▸ areOpen_run s steps
    cases hscopes with
    | @scope earlier body _ id _ hbody =>
      refine ⟨earlier, id, body, rfl, hbody, ?_⟩
      have hleft := run_scope hbody ((none s).run earlier) id failure
      have hrun : x = (((none s).run earlier).step (.enter id)).run body :=
        (none s).run_append earlier (.enter id :: body)
      rw [hrun]
      exact hleft
  · have h : x.IsNamed := isNamed_run hnamed steps
    have hkept : ∀ before ∈ x.session.reconcileId :: x.saved, before ≠ some [] :=
      List.forall_mem_cons.2 ⟨h.current, h.saved⟩
    refine ⟨fun id => setId_of_ne (idFor_ne h.ids id) _, fun before hbefore => ?_⟩
    exact restore_of_ne (hkept before hbefore)

/-- A cleared ID, a scope that is left by a failure with another ID, and a pass. -/
def innerPart : List Step :=
  .clear :: .enter Option.none :: ([.set "c"] ++ .leave (some ⟨.ofValue "refused", []⟩) ::
    [.pass Backing.memory (SecretStore.empty fun _ => "uid", ())
      ⟨"es", "ns", "uid", [], "v1", "Elasticsearch"⟩ [⟨"b.c", "k", "x"⟩] 3 Option.none])

theorem balanced_innerPart :
    Balanced (.enter (some "b") :: (innerPart ++ .leave Option.none :: [])) := by
  have hset : Closed [.set "c"] := .flat trivial .nil
  have hscope : Closed innerPart := .flat trivial (.scope _ _ hset (.flat trivial .nil))
  exact .scope _ _ hscope .nil

theorem scopes_restore_nested :
    let start := none (Session.fresh (fun _ => "id") (.int 0) Option.none)
    let x := start.run [.set "a", .enter (some "s")]
    start.IsNamed ∧ x.saved ≠ [] ∧ (x.step (.leave Option.none)).session.reconcileId = some "a" ∧
      (x.run (.enter (some "b") :: (innerPart ++ .leave Option.none :: []))).session.reconcileId =
        some "s" ∧
      restore x.session (some "a") = .ok { x.session with reconcileId := some "a" } := by
  intro start x
  have hnamed : start.IsNamed :=
    ⟨fun _ => List.cons_ne_nil _ _, (fun hid => by cases hid), fun before hbefore => by cases hbefore⟩
  have hopen : x.saved ≠ [] := by decide
  obtain ⟨hleave, hbalanced, -, -, hkept⟩ :=
    scopes_restore (Session.fresh (fun _ => "id") (.int 0) Option.none) [.set "a", .enter (some "s")]
  obtain ⟨earlier, id, body, hsteps, -, hid, -⟩ := hleave Option.none hopen
  refine ⟨hnamed, hopen, ?_, (hbalanced _ balanced_innerPart).1, ?_⟩
  · -- The second of the two steps is the only one that enters a scope.
    match earlier with
    | [] => cases hsteps
    | [st] =>
      cases hsteps
      exact hid
    | st :: st' :: earlier =>
      have hlength := congrArg List.length hsteps
      simp only [List.length_cons, List.length_append, List.length_nil] at hlength
      omega
  · exact (hkept hnamed).2 (some "a") (List.mem_cons_of_mem _ List.mem_cons_self) _

end Scopes
end Log
end CrossClusterKeys
