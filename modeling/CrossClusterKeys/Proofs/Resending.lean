import CrossClusterKeys.ApiServer.Client
import CrossClusterKeys.ApiServer.Script
import CrossClusterKeys.Failure.Description
import Mathlib.Order.Bounds.Basic

/-!
# An operation and the attempts at it

The client sends an operation again while its failure may pass and attempts are left.  The last
failure is explained to the callers of the store.

**Input.**  Any responses of the server, one for each attempt: an object, a failure of the API with
or without a status and a reason, or any other failure.

**Shape.**  `deeds` are the calls and pauses of a run in their order.  `Concludes` lists what the
caller of the store can get for the last response, and `Explains` what a failure of the API becomes.

**Results.**
* `isTransient_iff`: after which failures an operation is sent again.
* `run_attempting`: attempts are made up to the first response that is none of these.
* `explains_explain`: every failure of the API can be explained, whatever it leaves out.
* `send_attempts`: the attempts at an operation, their number and their result.
* `Script.calls_send`: the calls that a script keeps of an operation.
-/

namespace CrossClusterKeys

namespace Program

variable {S : Service} {α β σ : Type}

/-- What a running program does with its service and with its time. -/
inductive Deed (S : Service)
  | call (c : S.Call)
  | pause (seconds : Binary64)

/-- The calls and pauses of a run, in their order. -/
def deeds (h : (c : S.Call) → σ → S.Answer c × σ) :
    Program S α → Surroundings → σ → List (Deed S)
  | .done _, _, _ => []
  | .ask r k, w, s =>
    match r, k with
    | .call c, k => .call c :: (k (h c s).1).deeds h w (h c s).2
    | .log e, k => (k ()).deeds h { w with session := w.session.emit e } s
    | .configureLog l f, k => (k (w.configureLog l f).1).deeds h (w.configureLog l f).2 s
    | .pause p, k => .pause p :: (k ()).deeds h { w with pauses := w.pauses ++ [p] } s
    | .currentId, k => (k w.session.reconcileId).deeds h w s
    | .setId id, k => (k ()).deeds h (w.withId id) s
    | .drawId, k => (k w.session.drawId.1).deeds h { w with session := w.session.drawId.2 } s

theorem deeds_bind (h : (c : S.Call) → σ → S.Answer c × σ) (p : Program S α)
    (f : α → Program S β) (w : Surroundings) (s : σ) :
    (p.bind f).deeds h w s =
      p.deeds h w s ++ (f (p.run h w s).1).deeds h (p.run h w s).2.1 (p.run h w s).2.2 := by
  induction p generalizing w s with
  | done a => rfl
  | ask r k ih =>
    cases r with
    | call c => exact congrArg _ (ih _ _ _)
    | log e => exact ih _ _ _
    | configureLog l f => exact ih _ _ _
    | pause x => exact congrArg _ (ih _ _ _)
    | currentId => exact ih _ _ _
    | setId id => exact ih _ _ _
    | drawId => exact ih _ _ _

end Program

namespace ApiServer

open Program (Deed)

/-- The responses of a server to attempts at operations, by the number of earlier attempts. -/
abbrev Responses := Nat → (o : Operation) → Except Raised o.Outcome

/-- The answer to a call, and the number of attempts after it. -/
def Responses.answer (responses : Responses) (c : Call) (n : Nat) : c.Answer × Nat :=
  match c with
  | .loadInCluster => ((.ok () : Except Failure Unit), n)
  | .loadFile .. => ((.ok () : Except Failure Unit), n)
  | .connect => ((), n)
  | .request o _ => (responses n o, n + 1)
  | .disconnect => ((), n)

/-- A failure that may pass: the server cannot be reached, asks to slow down, or fails itself. -/
inductive MayPass : Failure → Prop
  | unreachable (broken : Bool) (message : Text) : MayPass (.api (.transport broken message))
  | throttled (reason : Option Text) : MayPass (.api (.rejected (some 429) reason))
  | failing {status : Int} (h : 500 ≤ status) (reason : Option Text) :
      MayPass (.api (.rejected (some status) reason))

theorem isTransient_iff (f : Failure) : isTransient f = true ↔ MayPass f := by
  constructor
  · intro h
    unfold isTransient at h
    split at h
    · exact .unreachable _ _
    · next status reason =>
      rcases status with _ | status
      · cases h
      · simp only [isPassing, Option.getD_some, Bool.or_eq_true, decide_eq_true_eq] at h
        rcases h with rfl | h
        · exact .throttled reason
        · exact .failing h reason
    · cases h
  · rintro (⟨broken, message⟩ | reason | ⟨h, reason⟩)
    · rfl
    · rfl
    · simp [isTransient, isPassing, h]

section Attempts

variable (responses : Responses) (o : Operation)

/-- The response to an attempt after `n` others is a failure that may pass. -/
def Passes (n : Nat) : Prop := ∃ e, responses n o = .error e ∧ MayPass e.failure

/-- Of `more` further attempts after one that follows `start` others, the first `j` are made. -/
structure Stops (start more j : Nat) : Prop where
  le : j ≤ more
  before : ∀ i, i < j → Passes responses o (start + i)
  last : j < more → ¬ Passes responses o (start + j)

variable {responses o} {start more j : Nat}

theorem stops_at_once (h : more = 0 ∨ ¬ Passes responses o start) :
    Stops responses o start more 0 where
  le := Nat.zero_le more
  before i hi := absurd hi (Nat.not_lt_zero i)
  last hmore := h.resolve_left (Nat.ne_of_gt hmore)

theorem Stops.after_failure (h : Stops responses o (start + 1) more j)
    (hfirst : Passes responses o start) : Stops responses o start (more + 1) (j + 1) where
  le := Nat.succ_le_succ h.le
  before i hi := by
    cases i with
    | zero => exact hfirst
    | succ i =>
      have hpasses := h.before i (Nat.lt_of_succ_lt_succ hi)
      rwa [Nat.add_right_comm] at hpasses
  last hmore := by
    have hlast := h.last (Nat.lt_of_succ_lt_succ hmore)
    rwa [Nat.add_right_comm] at hlast

/-- The number of attempts is the smaller one of how many are allowed and of the position of the
first response that may not pass. -/
theorem Stops.isLeast {attempts : Int}
    (h : Stops responses o 0 (Action.furtherAttempts attempts) j) :
    IsLeast {k : Nat | (k : Int) = max 1 attempts ∨ ∃ i, k = i + 1 ∧ ¬ Passes responses o i}
      (j + 1) := by
  have hmore : (Action.furtherAttempts attempts : Int) + 1 = max 1 attempts := by
    unfold Action.furtherAttempts
    omega
  have hle := h.le
  constructor
  · rcases Nat.eq_or_lt_of_le hle with heq | hlt
    · exact Or.inl (by omega)
    · exact Or.inr ⟨j, rfl, by simpa using h.last hlt⟩
  · rintro k (hk | ⟨i, rfl, hi⟩)
    · omega
    · by_contra hlt
      exact hi (by simpa using h.before i (by omega))

end Attempts

section Running

variable (timeout : Binary64) (wait : Nat → Binary64) (o : Operation)

/-- What is done for an attempt, the `n`-th one, and for `j` further ones. -/
def attemptDeeds (n : Nat) : Nat → List (Deed ApiServer)
  | 0 => [.call (.request o timeout)]
  | j + 1 => .call (.request o timeout) :: .pause (wait n) :: attemptDeeds (n + 1) j

/-- An operation, sent for the `n`-th time and at most `more` further times. -/
def attempting (more n : Nat) : Program ApiServer (Except Raised o.Outcome) :=
  (Action.retrying (fun e => isTransient e.failure) wait (request o timeout) more n).run

/-- What is left of the attempts after the response to the first one. -/
def attemptingAfter (more n : Nat) :
    Except Raised o.Outcome → Program ApiServer (Except Raised o.Outcome)
  | .ok a => pure (.ok a)
  | .error e =>
    if isTransient e.failure then do
      Program.pause (wait n)
      attempting timeout wait o more (n + 1)
    else pure (.error e)

variable {timeout wait o} {responses : Responses} {start more n : Nat} {w : Surroundings}

theorem attempting_succ : attempting timeout wait o (more + 1) n =
    Program.bind (request o timeout).run (attemptingAfter timeout wait o more n) :=
  congrArg (Program.bind (request o timeout).run) (funext fun r => by cases r <;> rfl)

theorem run_attempting_succ :
    (attempting timeout wait o (more + 1) n).run responses.answer w start =
      (attemptingAfter timeout wait o more n (responses start o)).run responses.answer w
        (start + 1) := by
  rw [attempting_succ]
  rfl

theorem deeds_attempting_succ :
    (attempting timeout wait o (more + 1) n).deeds responses.answer w start =
      .call (.request o timeout) ::
        (attemptingAfter timeout wait o more n (responses start o)).deeds responses.answer w
          (start + 1) := by
  rw [attempting_succ]
  rfl

theorem attemptingAfter_of_passes {e : Raised} (he : MayPass e.failure) :
    attemptingAfter timeout wait o more n (.error e) =
      Program.bind (Program.pause (wait n)) fun _ => attempting timeout wait o more (n + 1) :=
  if_pos ((isTransient_iff _).2 he)

theorem attemptingAfter_of_not_passes (h : ¬ Passes responses o start) :
    attemptingAfter timeout wait o more n (responses start o) = .done (responses start o) := by
  cases hresponse : responses start o with
  | ok a => rfl
  | error e =>
    have hlasting : isTransient e.failure ≠ true :=
      fun htransient => h ⟨e, hresponse, (isTransient_iff _).1 htransient⟩
    exact if_neg hlasting

/-- Attempts are made up to the first response that may not pass, with a pause before each further
one. -/
theorem run_attempting (more n start : Nat) (w : Surroundings) :
    let out := (attempting timeout wait o more n).run responses.answer w start
    ∃ j, Stops responses o start more j ∧ out.1 = responses (start + j) o ∧
      out.2.1.session = w.session ∧ out.2.2 = start + j + 1 ∧
      (attempting timeout wait o more n).deeds responses.answer w start =
        attemptDeeds timeout wait o n j := by
  induction more generalizing n start w with
  | zero => exact ⟨0, stops_at_once (Or.inl rfl), rfl, rfl, rfl, rfl⟩
  | succ more ih =>
    rw [run_attempting_succ, deeds_attempting_succ]
    by_cases hpasses : Passes responses o start
    · obtain ⟨e, hresponse, he⟩ := hpasses
      obtain ⟨j, hstops, hresult, hsession, hcount, hdeeds⟩ :=
        ih (n + 1) (start + 1) { w with pauses := w.pauses ++ [wait n] }
      have hposition : start + 1 + j = start + (j + 1) := Nat.add_right_comm start 1 j
      rw [hposition] at hresult hcount
      rw [hresponse, attemptingAfter_of_passes he]
      refine ⟨j + 1, hstops.after_failure ⟨e, hresponse, he⟩, hresult, hsession, hcount, ?_⟩
      exact congrArg (fun ds => Deed.call _ :: Deed.pause (wait n) :: ds) hdeeds
    · rw [attemptingAfter_of_not_passes hpasses]
      exact ⟨0, stops_at_once (Or.inr hpasses), rfl, rfl, rfl, rfl⟩

end Running

section Explanations

/-- The status that the server answered with, if it answered with one. -/
def status? : ApiFailure → Option Int
  | .rejected status _ => status
  | .transport .. => none

/-- The server cannot be reached, denies the access, asks to slow down, or fails itself. -/
def DeniesAccess (f : ApiFailure) : Prop :=
  (∃ broken message, f = .transport broken message) ∨
    ∃ n, status? f = some n ∧ (n = 401 ∨ n = 403 ∨ n = 429 ∨ 500 ≤ n)

/-- `s` is what the callers of the store are told of the failure `f` of the server. -/
structure Explains (resource : Text) (f : ApiFailure) (s : StoreFailure) : Prop where
  resource : s.resource = some resource
  notFound : s.cause = .notFound ↔ status? f = some 404
  conflict : s.cause = .conflict ↔ status? f = some 409
  access : s.cause = .access ↔ DeniesAccess f
  general : s.cause = .general ↔ status? f ≠ some 404 ∧ status? f ≠ some 409 ∧ ¬ DeniesAccess f
  /-- All texts that the failure has to be told by are there. -/
  accepted : ∃ d : Failure.Description,
    d.kind = (Failure.store s).kind ∧ d.failure = .ok (.store s)

variable {resource : Text}

section Texts

open Failure (Description)

theorem accepted_notFound (h : resource ≠ []) :
    Description.failure ⟨"ResourceNotFoundError", [.text resource, .text backend], []⟩ =
      .ok (.store (.notFound resource backend [])) := by
  cases resource with
  | nil => exact absurd rfl h
  | cons c t => rfl

theorem accepted_with_reason (h : resource ≠ []) {reason : Text} (hreason : reason ≠ []) :
    Description.failure
        ⟨"ResourceConflictError", [.text resource, .text backend, .text reason], []⟩ =
      .ok (.store (.conflict resource backend reason)) ∧
    Description.failure
        ⟨"ResourceAccessError", [.text resource, .text backend, .text reason], []⟩ =
      .ok (.store (.access resource backend reason)) := by
  cases resource with
  | nil => exact absurd rfl h
  | cons c t =>
    cases reason with
    | nil => exact absurd rfl hreason
    | cons c t => exact ⟨rfl, rfl⟩

theorem accepted_general (message : Text) :
    Description.failure
        ⟨"ResourceStoreError", [.text message, .text resource, .text backend], []⟩ =
      .ok (.store ⟨.general, message, some resource, some backend⟩) := rfl

end Texts

theorem deniesAccess_iff {f : ApiFailure} {n : Int} (h : status? f = some n) :
    DeniesAccess f ↔ n = 401 ∨ n = 403 ∨ n = 429 ∨ 500 ≤ n := by
  cases f with
  | rejected status reason =>
    cases h
    simp [DeniesAccess, status?]
  | transport broken message => cases h

/-- What a failure of the server is explained by, with a reason even if the server gave none. -/
theorem explain_cases (resource : Text) (f : ApiFailure) :
    (status? f = some 404 ∧ explain resource f = .notFound resource backend []) ∨
    (status? f = some 409 ∧
      ∃ reason, explain resource f = .conflict resource backend reason ∧ reason ≠ []) ∨
    (DeniesAccess f ∧
      ∃ reason, explain resource f = .access resource backend reason ∧ reason ≠ []) ∨
    (status? f ≠ some 404 ∧ status? f ≠ some 409 ∧ ¬ DeniesAccess f ∧
      ∃ message, explain resource f = ⟨.general, message, some resource, some backend⟩) := by
  rcases f with ⟨_ | n, reason⟩ | ⟨broken, message⟩
  · exact Or.inr (Or.inr (Or.inr ⟨by simp [status?], by simp [status?],
      by simp [DeniesAccess, status?], _, rfl⟩))
  · have hpassing : isPassing n = true ↔ n = 429 ∨ 500 ≤ n := by simp [isPassing]
    simp only [explain, Option.getD_some, explainStatus, hpassing, status?, Option.some.injEq,
      deniesAccess_iff (f := .rejected (some n) reason) rfl, Bool.or_eq_true, decide_eq_true_eq]
    split_ifs with h404 h409 h h
    · exact Or.inl ⟨h404, rfl⟩
    · exact Or.inr (Or.inl ⟨h409, _, rfl, List.cons_ne_nil _ _⟩)
    · exact Or.inr (Or.inl ⟨h409, _, rfl, fun hnil => h (List.isEmpty_iff.2 hnil)⟩)
    · exact Or.inr (Or.inr (Or.inl ⟨by omega, _, rfl, List.cons_ne_nil _ _⟩))
    · exact Or.inr (Or.inr (Or.inl ⟨by omega, _, rfl, List.cons_ne_nil _ _⟩))
    · exact Or.inr (Or.inr (Or.inr ⟨by simpa using h404, by simpa using h409, by omega, _, rfl⟩))
  · exact Or.inr (Or.inr (Or.inl ⟨Or.inl ⟨_, _, rfl⟩, _, rfl, List.cons_ne_nil _ _⟩))

/-- Every failure of the server can be explained, whatever it leaves out. -/
theorem explains_explain (h : resource ≠ []) (f : ApiFailure) :
    Explains resource f (explain resource f) := by
  rcases explain_cases resource f with
    ⟨hstatus, hs⟩ | ⟨hstatus, reason, hs, hreason⟩ | ⟨hdenies, reason, hs, hreason⟩ |
      ⟨hnot404, hnot409, hallows, message, hs⟩
  · rw [hs]
    refine ⟨rfl, ?_, ?_, ?_, ?_, _, rfl, accepted_notFound h⟩ <;>
      simp [StoreFailure.notFound, hstatus, deniesAccess_iff hstatus]
  · rw [hs]
    refine ⟨rfl, ?_, ?_, ?_, ?_, _, rfl, (accepted_with_reason h hreason).1⟩ <;>
      simp [StoreFailure.conflict, hstatus, deniesAccess_iff hstatus]
  · rw [hs]
    have hnot404 : status? f ≠ some 404 :=
      fun hstatus => absurd ((deniesAccess_iff hstatus).1 hdenies) (by decide)
    have hnot409 : status? f ≠ some 409 :=
      fun hstatus => absurd ((deniesAccess_iff hstatus).1 hdenies) (by decide)
    refine ⟨rfl, ?_, ?_, ?_, ?_, _, rfl, (accepted_with_reason h hreason).2⟩ <;>
      simp [StoreFailure.access, hdenies, hnot404, hnot409]
  · rw [hs]
    refine ⟨rfl, ?_, ?_, ?_, ?_, _, rfl, accepted_general message⟩ <;>
      simp [hnot404, hnot409, hallows]

end Explanations

section Sending

/-- What the caller of the store gets for the last response to an operation. -/
inductive Concludes {α : Type} (resource : Text) : Except Raised α → Except Raised α → Prop
  | answered (a : α) : Concludes resource (.ok a) (.ok a)
  /-- The failure of the server is the nearest cause of the one that the caller gets. -/
  | explained {e : Raised} {f : ApiFailure} (hf : e.failure = .api f) {s : StoreFailure}
      (hs : Explains resource f s) :
      Concludes resource (.error e) (.error ⟨.store s, e.failure :: e.causes⟩)
  | escaped {e : Raised} (h : ∀ f, e.failure ≠ .api f) : Concludes resource (.error e) (.error e)

theorem concludes_mapError {α : Type} {resource : Text} (h : resource ≠ [])
    (response : Except Raised α) :
    Concludes resource response (response.mapError (raised resource)) := by
  cases response with
  | ok a => exact .answered a
  | error e =>
    obtain ⟨failure, causes⟩ := e
    cases failure with
    | api f =>
      simp only [mapError_error, raised, explainNamed_of_named h]
      exact .explained rfl (explains_explain h f)
    | _ => exact .escaped (by simp)

section Outcome

variable (c : Client) (resource : Text) (o : Operation) (responses : Responses) (w : Surroundings)

/-- The pause of a client after its `n`-th attempt. -/
def Client.wait (n : Nat) : Binary64 := Action.backoff c.firstPause longestPause n

/-- The attempts of a client at an operation. -/
def Client.attempting : Program ApiServer (Except Raised o.Outcome) :=
  ApiServer.attempting c.timeout c.wait o (Action.furtherAttempts c.attempts) 1

theorem run_send : (c.send resource o).run.run responses.answer w 0 =
    (((c.attempting o).run responses.answer w 0).1.mapError (raised resource),
      ((c.attempting o).run responses.answer w 0).2) :=
  Program.run_bind responses.answer (c.attempting o) _ w 0

theorem deeds_send : (c.send resource o).run.deeds responses.answer w 0 =
    (c.attempting o).deeds responses.answer w 0 :=
  (Program.deeds_bind responses.answer (c.attempting o) _ w 0).trans (List.append_nil _)

end Outcome

/-- Whatever the server responds, an operation is sent up to the first response that may not pass,
or as often as it is allowed, and the last response is what the caller gets. -/
theorem send_attempts (c : Client) («namespace» name : Text) (o : Operation)
    (responses : Responses) (w : Surroundings) :
    let p := (c.send (namespaced «namespace» name) o).run
    let out := p.run responses.answer w 0
    ∃ k, IsLeast {k : Nat | (k : Int) = max 1 c.attempts ∨
        ∃ i, k = i + 1 ∧ ¬ Passes responses o i} k ∧
      out.2.2 = k ∧
      p.deeds responses.answer w 0 = attemptDeeds c.timeout c.wait o 1 (k - 1) ∧
      Concludes (namespaced «namespace» name) (responses (k - 1) o) out.1 ∧
      out.2.1.session = w.session := by
  intro p out
  have hout : out = _ := run_send c _ o responses w
  obtain ⟨j, hstops, hresponse, hsession, hcount, hdeeds⟩ :=
    @run_attempting c.timeout c.wait o responses (Action.furtherAttempts c.attempts) 1 0 w
  rw [Nat.zero_add] at hresponse hcount
  have hresult : out.1 = (responses j o).mapError (raised (namespaced «namespace» name)) :=
    (congrArg Prod.fst hout).trans (congrArg (Except.mapError _) hresponse)
  refine ⟨j + 1, hstops.isLeast, ?_, (deeds_send c _ o responses w).trans hdeeds, ?_, ?_⟩
  · rw [hout]
    exact hcount
  · rw [hresult]
    exact concludes_mapError (namespaced_ne_nil _ _) _
  · rw [hout]
    exact hsession

end Sending

section Scripts

/-- The calls among what was done. -/
def callsOf : List (Deed ApiServer) → List Call
  | [] => []
  | .call c :: deeds => c :: callsOf deeds
  | .pause _ :: deeds => callsOf deeds

namespace Script

/-- The responses of a script to attempts at operations. -/
def responses (s : Script) : Responses := fun n o => answerTo o s.endings[n]?

/-- After `n` operations a script is what they have left of the one at the start. -/
structure IsLeft (start : Script) (n : Nat) (s : Script) : Prop where
  refusal : s.refusal = none
  endings : s.endings = start.endings.drop n

variable {start s : Script} {n : Nat} {α : Type}

/-- What is left of a script answers as its responses do. -/
theorem answer_of_isLeft (h : IsLeft start n s) (c : Call) :
    (answer c s).1 = (start.responses.answer c n).1 ∧
      IsLeft start (start.responses.answer c n).2 (answer c s).2 := by
  have hunrefused : s.configuration = .ok () := by rw [configuration, h.refusal]
  cases c with
  | loadInCluster => exact ⟨hunrefused, h.refusal, h.endings⟩
  | loadFile path context => exact ⟨hunrefused, h.refusal, h.endings⟩
  | connect => exact ⟨rfl, h.refusal, h.endings⟩
  | request o timeout =>
    have hhead : s.endings.head? = start.endings[n]? := by
      rw [h.endings, List.head?_drop]
    refine ⟨?_, h.refusal, ?_⟩
    · exact congrArg (answerTo o) hhead
    · exact (congrArg List.tail h.endings).trans List.tail_drop
  | disconnect => exact ⟨rfl, h.refusal, h.endings⟩

/-- A program that runs over a script does and gets what it does and gets from the responses. -/
theorem run_of_isLeft (p : Program ApiServer α) (w : Surroundings) (h : IsLeft start n s) :
    (p.run answer w s).1 = (p.run start.responses.answer w n).1 ∧
      p.deeds answer w s = p.deeds start.responses.answer w n := by
  induction p generalizing w s n with
  | done a => exact ⟨rfl, rfl⟩
  | ask r k ih =>
    cases r with
    | call c =>
      obtain ⟨hanswer, hleft⟩ := answer_of_isLeft h c
      obtain ⟨hrun, hdeeds⟩ := ih (answer c s).1 w hleft
      rw [hanswer] at hrun hdeeds
      simp only [Program.run, Program.deeds, hanswer]
      exact ⟨hrun, congrArg _ hdeeds⟩
    | log e => exact ih _ _ h
    | configureLog l f => exact ih _ _ h
    | pause x =>
      obtain ⟨hrun, hdeeds⟩ := ih () _ h
      exact ⟨hrun, congrArg _ hdeeds⟩
    | currentId => exact ih _ _ h
    | setId id => exact ih _ _ h
    | drawId => exact ih _ _ h

/-- The calls that a script keeps are the ones that were made. -/
theorem calls_run (p : Program ApiServer α) (w : Surroundings) (s : Script) :
    (p.run answer w s).2.2.calls = s.calls ++ callsOf (p.deeds answer w s) := by
  induction p generalizing w s with
  | done a => exact (List.append_nil _).symm
  | ask r k ih =>
    cases r with
    | call c =>
      refine (ih _ w _).trans ?_
      exact (congrArg (· ++ callsOf _) (calls_answer c s)).trans (List.append_assoc _ _ _)
    | log e => exact ih _ _ _
    | configureLog l f => exact ih _ _ _
    | pause x => exact ih _ _ _
    | currentId => exact ih _ _ _
    | setId id => exact ih _ _ _
    | drawId => exact ih _ _ _

theorem calls_attemptDeeds (timeout : Binary64) (wait : Nat → Binary64) (o : Operation)
    (n j : Nat) :
    callsOf (attemptDeeds timeout wait o n j) = List.replicate (j + 1) (.request o timeout) := by
  induction j generalizing n with
  | zero => rfl
  | succ j ih => exact congrArg (Call.request o timeout :: ·) (ih (n + 1))

/-- Over a script, an operation is sent up to the first ending that may not pass, or as often as it
is allowed, and that ending is what the caller gets. -/
theorem calls_send (c : Client) (resource : Text) (o : Operation) (s : Script)
    (h : s.refusal = none) (w : Surroundings) :
    let out := (c.send resource o).run.run answer w s
    ∃ j, Stops s.responses o 0 (Action.furtherAttempts c.attempts) j ∧
      out.1 = (s.responses j o).mapError (raised resource) ∧
      out.2.2.calls = s.calls ++ List.replicate (j + 1) (.request o c.timeout) := by
  intro out
  obtain ⟨j, hstops, hresponse, -, -, hdeeds⟩ :=
    @run_attempting c.timeout c.wait o s.responses (Action.furtherAttempts c.attempts) 1 0 w
  obtain ⟨hrun, hmade⟩ := run_of_isLeft (c.send resource o).run w (⟨h, rfl⟩ : IsLeft s 0 s)
  rw [run_send, Client.attempting, hresponse, Nat.zero_add] at hrun
  rw [deeds_send, Client.attempting, hdeeds] at hmade
  refine ⟨j, hstops, hrun, ?_⟩
  rw [calls_run, hmade, calls_attemptDeeds]

/-- The server is down twice, and the third attempt finds the object. -/
example (w : Surroundings) :
    let down : Ending := .failure ⟨.api (.rejected (some 503) none), []⟩
    let client : Client := ⟨.ofInt 30, 5, .ofInt 1, none, false⟩
    let script : Script := ⟨[down, down, .object (.ofSecret ⟨"s", "ns", .empty, .empty, .empty,
      [], [], []⟩), down], none, []⟩
    ((client.send "ns/s" (.read "s" "ns")).run.run answer w script).2.2.calls.length = 3 := rfl

end Script

end Scripts

end ApiServer
end CrossClusterKeys
