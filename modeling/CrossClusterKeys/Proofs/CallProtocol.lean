import CrossClusterKeys.ApiServer.Client
import CrossClusterKeys.Convergence
import CrossClusterKeys.Proofs.Execution
import Mathlib.Tactic.Linarith
import Mathlib.Tactic.Ring

/-!
# The calls by which a Secret is brought to an expected state behind the API server

Two loops work together.  The client sends an operation again after a failure that may pass, and the
convergence begins anew after a conflict.  What the server responds decides what is called next.

**Input.**  Any server: it responds to each operation with an object or with a failure of the API,
from a state of its own.  The exchanges with it are kept.

**Shape.**  A `Trial` is one operation with all the attempts at it.  `IsCycle` lists what a cycle
of convergence can be: a trial of the read, before a trial of the write that the last response to
the read calls for, and alone if it calls for none.  `FollowsProtocol` puts cycles in sequence.  All
three say both what may come next and when it has to come.

**Results.**
* `ensures_send`: what the client sends for one operation is a trial of it.
* `ensures_attempt_cycle`: what an attempt sends is a cycle, and a conflict is a status of its last
  response.
* `converge_followsProtocol`: the calls of a whole run, and how many they are at most.
-/

namespace CrossClusterKeys

namespace Program

variable {S T : Service} {α β τ : Type}

/-- Serving one program after the other is serving both in turn, with the state handed on. -/
theorem serveWith_bind (h : (c : S.Call) → τ → Program T (S.Answer c × τ)) (p : Program S α)
    (f : α → Program S β) (t : τ) :
    (p >>= f).serveWith h t = p.serveWith h t >>= fun out => (f out.1).serveWith h out.2 := by
  induction p generalizing t with
  | done a => rfl
  | ask r k ih =>
    cases r with
    | call c =>
      refine Eq.trans ?_ (bind_assoc _ _ _).symm
      exact congrArg (bind (h c t)) (funext fun reply => ih reply.1 reply.2)
    | log e => exact congrArg (ask (.log e)) (funext fun reply => ih reply t)
    | configureLog l f => exact congrArg (ask (.configureLog l f)) (funext fun reply => ih reply t)
    | pause p => exact congrArg (ask (.pause p)) (funext fun reply => ih reply t)
    | currentId => exact congrArg (ask .currentId) (funext fun reply => ih reply t)
    | setId id => exact congrArg (ask (.setId id)) (funext fun reply => ih reply t)
    | drawId => exact congrArg (ask .drawId) (funext fun reply => ih reply t)

section Serving

variable {σ : Type} {h : (c : T.Call) → σ → T.Answer c × σ}
  {g : (c : S.Call) → τ → Program T (S.Answer c × τ)} (t : τ) (x : σ) (Q : β × τ → σ → Prop)

theorem ensures_serveWith_bind (p : Program S α) (f : α → Program S β) :
    ((p >>= f).serveWith g t).Ensures h x Q ↔
      (p.serveWith g t).Ensures h x fun out x' => ((f out.1).serveWith g out.2).Ensures h x' Q := by
  rw [serveWith_bind, ensures_bind]

theorem ensures_serveWith_call (c : S.Call) (k : S.Answer c → Program S β) :
    ((Program.call c >>= k).serveWith g t).Ensures h x Q ↔
      (g c t).Ensures h x fun out x' => ((k out.1).serveWith g out.2).Ensures h x' Q :=
  ensures_bind _ _ _ _

end Serving

end Program

namespace ApiServer

section Exchanges

/-- A server: its response to an operation, and its state after that. -/
abbrev Server (σ : Type) := (o : Operation) → σ → Except ApiFailure o.Outcome × σ

/-- An operation that was sent, with the response to it. -/
structure Exchange where
  operation : Operation
  timeout : Binary64
  response : Except ApiFailure operation.Outcome

variable {σ : Type}

/-- A response as the client gets it. -/
def received {α : Type} (response : Except ApiFailure α) : Except Raised α :=
  response.mapError fun f => ⟨.api f, []⟩

/-- The answer of a server to a call, with the exchange kept behind the earlier ones. -/
def Server.answer (server : Server σ) (c : Call) (x : σ × List Exchange) :
    c.Answer × σ × List Exchange :=
  match c with
  | .loadInCluster => ((.ok () : Except Failure Unit), x)
  | .loadFile .. => ((.ok () : Except Failure Unit), x)
  | .connect => ((), x)
  | .request o timeout =>
    let out := server o x.1
    (received out.1, out.2, x.2 ++ [⟨o, timeout, out.1⟩])
  | .disconnect => ((), x)

/-- An operation with the failures after which it was sent again, and the last response. -/
structure Trial (o : Operation) where
  failures : List ApiFailure
  response : Except ApiFailure o.Outcome

namespace Trial

variable {o : Operation}

def exchanges (t : Trial o) (timeout : Binary64) : List Exchange :=
  t.failures.map (fun f => ⟨o, timeout, .error f⟩) ++ [⟨o, timeout, t.response⟩]

/-- An operation is sent again after a failure that may pass, and after nothing else, as long as
there are attempts left. -/
structure IsAllowed (t : Trial o) (attempts : Int) : Prop where
  transient : ∀ f ∈ t.failures, isTransient (.api f) = true
  length_le : (t.failures.length : Int) + 1 ≤ max 1 attempts
  spent : ∀ f, t.response = .error f → isTransient (.api f) = true →
    (t.failures.length : Int) + 1 = max 1 attempts

theorem length_exchanges (t : Trial o) (timeout : Binary64) :
    (t.exchanges timeout).length = t.failures.length + 1 := by
  simp [exchanges]

theorem getLast?_exchanges (t : Trial o) (timeout : Binary64) :
    (t.exchanges timeout).getLast? = some ⟨o, timeout, t.response⟩ :=
  List.getLast?_concat

end Trial

/-- What is sent in one cycle of convergence. -/
inductive IsCycle (desired : Secret) (c : Client) : List Exchange → Prop
  /-- Nothing is written only if the Secret is not missing and what was read is up to date. -/
  | reads {read : Trial (.read desired.name desired.namespace)}
      (hread : read.IsAllowed c.attempts)
      (hpresent : ∀ reason, read.response ≠ .error (.rejected (some 404) reason))
      (hcurrent : ∀ o stored, read.response = .ok o → o.toSecret = .ok stored →
        desired.outdated stored = false) :
      IsCycle desired c (read.exchanges c.timeout)
  | creates {read : Trial (.read desired.name desired.namespace)}
      (hread : read.IsAllowed c.attempts) {reason : Option Text}
      (hmissing : read.response = .error (.rejected (some 404) reason))
      {write : Trial (.create desired.namespace (.ofSecret desired) c.manager?)}
      (hwrite : write.IsAllowed c.attempts) :
      IsCycle desired c (read.exchanges c.timeout ++ write.exchanges c.timeout)
  /-- The body has the version that was read, none if there was none. -/
  | replaces {read : Trial (.read desired.name desired.namespace)}
      (hread : read.IsAllowed c.attempts) {o : Object} {stored : Secret}
      (hfound : read.response = .ok o) (hstored : o.toSecret = .ok stored)
      (hold : desired.outdated stored = true) {body : Object}
      (hbody : body = .ofSecret (desired.overlay stored))
      (hversion : body.version = o.version.filter fun v => !v.isEmpty)
      {write : Trial (.replace stored.name stored.namespace body c.manager?)}
      (hwrite : write.IsAllowed c.attempts) :
      IsCycle desired c (read.exchanges c.timeout ++ write.exchanges c.timeout)

/-- The last response was that there is a conflict. -/
def EndsInConflict (exchanges : List Exchange) : Prop :=
  ∃ o timeout reason,
    exchanges.getLast? = some ⟨o, timeout, .error (.rejected (some 409) reason)⟩

/-- What is sent in a whole run, cycle by cycle: a further one begins after a conflict, and after
nothing else, as long as there are cycles left. -/
inductive FollowsProtocol (desired : Secret) (c : Client) : Nat → List (List Exchange) → Prop
  | stop {left cycle} (h : IsCycle desired c cycle)
      (hend : left = 0 ∨ ¬ EndsInConflict cycle) : FollowsProtocol desired c left [cycle]
  | again {left cycle cycles} (h : IsCycle desired c cycle) (hconflict : EndsInConflict cycle)
      (rest : FollowsProtocol desired c left cycles) :
      FollowsProtocol desired c (left + 1) (cycle :: cycles)

end Exchanges

section Failures

variable (resource : Text) {f : ApiFailure}

theorem cause_eq_notFound_iff :
    (explain resource f).cause = .notFound ↔ ∃ reason, f = .rejected (some 404) reason := by
  constructor
  · intro h
    rcases f with ⟨_ | status, reason⟩ | ⟨broken, message⟩
    · cases h
    · rw [explain_cause] at h
      split at h
      · next hstatus => exact ⟨reason, by rw [hstatus]⟩
      · split at h
        · cases h
        · split at h <;> cases h
    · cases h
  · rintro ⟨reason, rfl⟩
    rw [explain_cause, if_pos rfl]

theorem cause_eq_conflict_iff :
    (explain resource f).cause = .conflict ↔ ∃ reason, f = .rejected (some 409) reason := by
  constructor
  · intro h
    rcases f with ⟨_ | status, reason⟩ | ⟨broken, message⟩
    · cases h
    · rw [explain_cause] at h
      split at h
      · cases h
      · split at h
        · next hstatus => exact ⟨reason, by rw [hstatus]⟩
        · split at h <;> cases h
    · cases h
  · rintro ⟨reason, rfl⟩
    rw [explain_cause, if_neg (by decide), if_pos rfl]

variable {resource}

/-- For an object with a name, the store is given the cause that explains the failure of the
server. -/
theorem storeCause?_raised (hne : resource ≠ []) :
    (raised resource ⟨.api f, []⟩).storeCause? = some (explain resource f).cause := by
  simp only [raised, explainNamed_of_named hne]
  rfl

/-- An object that is refused is neither missing nor in conflict. -/
theorem storeCause?_of_toSecret {o : Object} {e : Raised} (h : o.toSecret = .error e) :
    e.storeCause? = none := by
  unfold Object.toSecret at h
  split at h
  · cases h
    rfl
  · cases h

/-- What the store's caller gets for the response to an operation that answers an object, which has
a name. -/
def Settles (response : Except ApiFailure Object) (result : Except Raised Secret) : Prop :=
  ∃ resource, resource ≠ [] ∧
    result = (received response).mapError (raised resource) >>= Object.toSecret

variable {response : Except ApiFailure Object} {result : Except Raised Secret}

theorem Settles.ok {s : Secret} (h : Settles response (.ok s)) :
    ∃ o, response = .ok o ∧ o.toSecret = .ok s := by
  obtain ⟨resource, -, h⟩ := h
  cases response with
  | ok o => exact ⟨o, rfl, h.symm⟩
  | error f => cases h

theorem Settles.of_ok {o : Object} (h : Settles response result) (ho : response = .ok o) :
    result = o.toSecret := by
  obtain ⟨resource, -, rfl⟩ := h
  subst ho
  rfl

/-- A failure with a cause in the store is a failure that the server responded, and the other way
round. -/
theorem Settles.cause (h : Settles response result) : ∃ resource, ∀ cause,
    (∃ e, result = .error e ∧ e.storeCause? = some cause) ↔
      ∃ f, response = .error f ∧ (explain resource f).cause = cause := by
  obtain ⟨resource, hne, rfl⟩ := h
  refine ⟨resource, fun cause => ?_⟩
  cases response with
  | ok o =>
    constructor
    · rintro ⟨e, he, hcause⟩
      rw [storeCause?_of_toSecret he] at hcause
      cases hcause
    · rintro ⟨f, hf, -⟩
      cases hf
  | error f =>
    have hraised := storeCause?_raised (f := f) hne
    constructor
    · rintro ⟨e, he, hcause⟩
      cases he
      rw [hraised] at hcause
      exact ⟨f, rfl, Option.some.inj hcause⟩
    · rintro ⟨f', hf, hcause⟩
      cases hf
      exact ⟨_, rfl, hraised.trans (congrArg some hcause)⟩

/-- Where a status alone has a cause, the caller gets that cause exactly for that status. -/
theorem Settles.status_iff (h : Settles response result) {cause : StoreCause} {status : Int}
    (hstatus : ∀ resource f, (explain resource f).cause = cause ↔
      ∃ reason, f = .rejected (some status) reason) :
    (∃ e, result = .error e ∧ e.storeCause? = some cause) ↔
      ∃ reason, response = .error (.rejected (some status) reason) := by
  obtain ⟨resource, hcause⟩ := h.cause
  rw [hcause]
  constructor
  · rintro ⟨f, hf, hexplained⟩
    obtain ⟨reason, rfl⟩ := (hstatus resource f).1 hexplained
    exact ⟨reason, hf⟩
  · rintro ⟨reason, hf⟩
    exact ⟨_, hf, (hstatus resource _).2 ⟨reason, rfl⟩⟩

theorem Settles.isNotFound_iff (h : Settles response result) :
    (∃ e, result = .error e ∧ e.isNotFound = true) ↔
      ∃ reason, response = .error (.rejected (some 404) reason) := by
  simp only [Raised.isNotFound, decide_eq_true_eq]
  exact h.status_iff fun resource _ => cause_eq_notFound_iff resource

theorem Settles.isConflict_iff (h : Settles response result) :
    (∃ e, result = .error e ∧ e.isConflict = true) ↔
      ∃ reason, response = .error (.rejected (some 409) reason) := by
  simp only [Raised.isConflict, decide_eq_true_eq]
  exact h.status_iff fun resource _ => cause_eq_conflict_iff resource

end Failures

section Sending

variable {σ : Type} {server : Server σ}

theorem answer_request {o : Operation} {timeout : Binary64} {x : σ × List Exchange}
    {response : Except ApiFailure o.Outcome} (h : (server o x.1).1 = response) :
    server.answer (.request o timeout) x =
      (received response, (server o x.1).2, x.2 ++ [⟨o, timeout, response⟩]) := by
  subst h
  rfl

/-- An action that sends one operation, again after failures that may pass, makes a trial of it. -/
theorem ensures_retrying_trial (o : Operation) (timeout : Binary64) (wait : Nat → Binary64)
    (more n : Nat) (x : σ × List Exchange) :
    (Action.retrying (fun e => isTransient e.failure) wait (request o timeout) more n).run.Ensures
      server.answer x fun reply x' => ∃ t : Trial o, reply = received t.response ∧
        x'.2 = x.2 ++ t.exchanges timeout ∧ (∀ f ∈ t.failures, isTransient (.api f) = true) ∧
        t.failures.length ≤ more ∧
        ∀ f, t.response = .error f → isTransient (.api f) = true → t.failures.length = more := by
  induction more generalizing x n with
  | zero =>
    exact ⟨⟨[], (server o x.1).1⟩, rfl, rfl, List.forall_mem_nil _, Nat.le_refl 0,
      fun _ _ _ => rfl⟩
  | succ more ih =>
    refine (Program.ensures_bind _ _ _ _).2 ?_
    refine (Program.ensures_call _ _ _).2 ?_
    cases hresponse : (server o x.1).1 with
    | ok a =>
      rw [answer_request hresponse]
      exact ⟨⟨[], .ok a⟩, rfl, rfl, List.forall_mem_nil _, Nat.zero_le _, fun f hf => nomatch hf⟩
    | error f =>
      rw [answer_request hresponse]
      by_cases htransient : isTransient (.api f) = true
      · simp only [received, mapError_error, htransient, if_true]
        refine Program.ensures_mono (ih (n + 1) _) ?_
        rintro reply x' ⟨t, hreply, htrace, hfailures, hlength, hspent⟩
        refine ⟨⟨f :: t.failures, t.response⟩, hreply, ?_,
          List.forall_mem_cons.2 ⟨htransient, hfailures⟩, Nat.succ_le_succ hlength,
          fun f' hf' ht => congrArg Nat.succ (hspent f' hf' ht)⟩
        rw [htrace]
        exact List.append_assoc _ _ _
      · simp only [received, mapError_error, if_neg htransient]
        refine ⟨⟨[], .error f⟩, rfl, rfl, List.forall_mem_nil _, Nat.zero_le _, ?_⟩
        intro f' hf' ht
        cases hf'
        exact absurd ht htransient

/-- What the client sends for one operation is a trial of it, and the last response is what it
passes on. -/
theorem ensures_send (c : Client) (resource : Text) (o : Operation) (x : σ × List Exchange) :
    (c.send resource o).run.Ensures server.answer x fun result x' =>
      ∃ t : Trial o, result = (received t.response).mapError (raised resource) ∧
        x'.2 = x.2 ++ t.exchanges c.timeout ∧ t.IsAllowed c.attempts := by
  refine (Program.ensures_bind _ _ _ _).2 ?_
  refine Program.ensures_mono (ensures_retrying_trial _ _ _ _ _ x) ?_
  rintro reply x' ⟨t, rfl, htrace, hfailures, hlength, hspent⟩
  unfold Action.furtherAttempts at hlength hspent
  refine ⟨t, rfl, htrace, hfailures, by omega, fun f hf ht => ?_⟩
  have hlast := hspent f hf ht
  omega

variable (c : Client) (x : σ × List Exchange)

/-- Sending an operation and going on with what was answered. -/
theorem ensures_send_bind {o : Operation} (resource : Text)
    {f : o.Outcome → Action ApiServer Secret} {g : o.Outcome → Except Raised Secret}
    (hf : ∀ a x' Q, Q (g a) x' → (f a).run.Ensures server.answer x' Q) :
    (c.send resource o >>= f).run.Ensures server.answer x fun result x' =>
      ∃ t : Trial o, result = (received t.response).mapError (raised resource) >>= g ∧
        x'.2 = x.2 ++ t.exchanges c.timeout ∧ t.IsAllowed c.attempts := by
  refine (Action.ensures_bind _ _ _ _).2 ?_
  refine Program.ensures_mono (ensures_send c resource o x) ?_
  rintro result x' ⟨⟨failures, response⟩, rfl, hrest⟩
  cases response with
  | ok a => exact hf a x' _ ⟨_, rfl, hrest⟩
  | error e => exact ⟨_, rfl, hrest⟩

theorem ensures_get («namespace» name : Text) :
    (c.get «namespace» name).run.Ensures server.answer x fun result x' =>
      ∃ t : Trial (.read name «namespace»), Settles t.response result ∧
        x'.2 = x.2 ++ t.exchanges c.timeout ∧ t.IsAllowed c.attempts := by
  refine Program.ensures_mono (ensures_send_bind c x _ fun _ _ _ h => h) ?_
  rintro result x' ⟨t, hresult, ht⟩
  exact ⟨t, ⟨_, namespaced_ne_nil _ _, hresult⟩, ht⟩

theorem ensures_create (s : Secret) :
    (c.create s).run.Ensures server.answer x fun result x' =>
      ∃ t : Trial (.create s.namespace (.ofSecret s) c.manager?), Settles t.response result ∧
        x'.2 = x.2 ++ t.exchanges c.timeout ∧ t.IsAllowed c.attempts := by
  refine Program.ensures_mono (ensures_send_bind c x _ fun _ _ _ h => h) ?_
  rintro result x' ⟨t, hresult, ht⟩
  exact ⟨t, ⟨_, namespaced_ne_nil _ _, hresult⟩, ht⟩

theorem ensures_update (s : Secret) :
    (c.update s).run.Ensures server.answer x fun result x' =>
      ∃ t : Trial (.replace s.name s.namespace (.ofSecret s) c.manager?),
        Settles t.response result ∧
        x'.2 = x.2 ++ t.exchanges c.timeout ∧ t.IsAllowed c.attempts := by
  refine Program.ensures_mono (ensures_send_bind c x _ fun _ _ _ h => h) ?_
  rintro result x' ⟨t, hresult, ht⟩
  exact ⟨t, ⟨_, namespaced_ne_nil _ _, hresult⟩, ht⟩

end Sending

section Cycles

variable {σ : Type} {server : Server σ} {desired : Secret} (c : Client) (x : σ × List Exchange)

/-- What a trial ends in is its response. -/
theorem endsInConflict_iff {o : Operation} (t : Trial o) (timeout : Binary64)
    (before : List Exchange) :
    EndsInConflict (before ++ t.exchanges timeout) ↔
      ∃ reason, t.response = .error (.rejected (some 409) reason) := by
  have hlast : (before ++ t.exchanges timeout).getLast? = some ⟨o, timeout, t.response⟩ := by
    rw [List.getLast?_append, t.getLast?_exchanges]
    rfl
  constructor
  · rintro ⟨o', timeout', reason, h⟩
    rw [hlast, Option.some.injEq, Exchange.mk.injEq] at h
    obtain ⟨rfl, -, hresponse⟩ := h
    exact ⟨reason, eq_of_heq hresponse⟩
  · rintro ⟨reason, hresponse⟩
    exact ⟨o, timeout, reason, by rw [hlast, hresponse]⟩

/-- A body has the version of the object that it is laid over. -/
theorem version_ofSecret_overlay (desired : Secret) {o : Object} {stored : Secret}
    (h : o.toSecret = .ok stored) :
    (Object.ofSecret (desired.overlay stored)).version = o.version.filter fun v => !v.isEmpty := by
  unfold Object.toSecret at h
  split at h
  · cases h
  · cases h
    change Object.orMissing (o.version.getD []) = _
    rcases o.version with _ | _ | ⟨p, v⟩ <;> rfl

/-- What an attempt sends is a cycle, and it fails by a conflict if and only if that is what the
last response says. -/
theorem ensures_attempt_cycle :
    ((Convergence.attempt desired).run.serveWith Client.answer c).Ensures server.answer x
      fun out x' => out.2 = c ∧ ∃ cycle, x'.2 = x.2 ++ cycle ∧ IsCycle desired c cycle ∧
        (EndsInConflict cycle ↔ ∃ e, out.1 = .error e ∧ e.isConflict = true) := by
  refine (Program.ensures_serveWith_call _ _ _ _ _).2 ?_
  refine (Program.ensures_bind _ _ _ _).2 ?_
  refine Program.ensures_mono (ensures_get c x _ _) ?_
  rintro result x' ⟨read, hsettles, htrace, hread⟩
  refine (Program.ensures_pure _ _ _).2 ?_
  have hends := (endsInConflict_iff read c.timeout []).trans
    hsettles.isConflict_iff.symm
  cases result with
  | error e =>
    by_cases he : e.isNotFound = true
    · simp only [he, if_true]
      obtain ⟨reason, hmissing⟩ := hsettles.isNotFound_iff.1 ⟨e, rfl, he⟩
      refine (Program.ensures_bind _ _ _ _).2 ?_
      refine (Program.ensures_bind _ _ _ _).2 ?_
      refine Program.ensures_mono (ensures_create c x' desired) ?_
      rintro result x'' ⟨write, hwritten, htrace', hwrite⟩
      refine ⟨rfl, _, ?_, .creates hread hmissing hwrite,
        (endsInConflict_iff write _ _).trans hwritten.isConflict_iff.symm⟩
      rw [htrace', htrace, List.append_assoc]
    · simp only [if_neg he]
      refine ⟨rfl, _, htrace,
        .reads hread (fun reason hmissing => ?_) fun o stored ho hstored => ?_, hends⟩
      · obtain ⟨e', he', hnot⟩ := hsettles.isNotFound_iff.2 ⟨reason, hmissing⟩
        cases he'
        exact he hnot
      · rw [← hsettles.of_ok ho] at hstored
        cases hstored
  | ok stored =>
    by_cases hold : desired.outdated stored = true
    · simp only [hold, if_true]
      obtain ⟨o, hfound, hstored⟩ := hsettles.ok
      refine (Program.ensures_bind _ _ _ _).2 ?_
      refine (Program.ensures_bind _ _ _ _).2 ?_
      refine Program.ensures_mono (ensures_update c x' (desired.overlay stored)) ?_
      rintro result x'' ⟨write, hwritten, htrace', hwrite⟩
      have hversion := version_ofSecret_overlay desired hstored
      refine ⟨rfl, _, ?_, .replaces hread hfound hstored hold rfl hversion hwrite,
        (endsInConflict_iff write _ _).trans hwritten.isConflict_iff.symm⟩
      rw [htrace', htrace]
      exact List.append_assoc _ _ _
    · simp only [if_neg hold]
      refine ⟨rfl, _, htrace,
        .reads hread (fun reason hmissing => ?_) fun o stored' ho hstored => ?_, hends⟩
      · obtain ⟨e, he, -⟩ := hsettles.isNotFound_iff.2 ⟨reason, hmissing⟩
        cases he
      · rw [← hsettles.of_ok ho, Except.ok.injEq] at hstored
        rw [← hstored]
        exact Bool.eq_false_iff.2 hold

/-- Attempts that are made again after a conflict send one cycle after the other. -/
theorem ensures_retrying_cycles (wait : Nat → Binary64) (more n : Nat) :
    ((Action.retrying Raised.isConflict wait (Convergence.attempt desired) more n).run.serveWith
      Client.answer c).Ensures server.answer x fun _ x' =>
        ∃ cycles : List (List Exchange), x'.2 = x.2 ++ cycles.flatten ∧
          FollowsProtocol desired c more cycles := by
  induction more generalizing x n with
  | zero =>
    refine Program.ensures_mono (ensures_attempt_cycle c x) ?_
    rintro out x' ⟨-, cycle, htrace, hcycle, -⟩
    refine ⟨[cycle], ?_, .stop hcycle (Or.inl rfl)⟩
    rw [htrace, List.flatten_singleton]
  | succ more ih =>
    refine (Program.ensures_serveWith_bind _ _ _ _ _).2 ?_
    refine Program.ensures_mono (ensures_attempt_cycle c x) ?_
    rintro ⟨result, client⟩ x' ⟨hclient, cycle, htrace, hcycle, hends⟩
    subst hclient
    have hlast : (¬ ∃ e, result = .error e ∧ e.isConflict = true) →
        ∃ cycles : List (List Exchange), x'.2 = x.2 ++ cycles.flatten ∧
          FollowsProtocol desired client (more + 1) cycles := by
      intro hnot
      refine ⟨[cycle], ?_, .stop hcycle (Or.inr fun h => hnot (hends.1 h))⟩
      rw [htrace, List.flatten_singleton]
    cases result with
    | ok s =>
      exact hlast fun ⟨e, he, _⟩ => by cases he
    | error e =>
      by_cases he : e.isConflict = true
      · simp only [he, if_true]
        refine Program.ensures_mono (ih x' (n + 1)) ?_
        rintro out x'' ⟨cycles, htrace', hcycles⟩
        refine ⟨cycle :: cycles, ?_, .again hcycle (hends.2 ⟨e, rfl, he⟩) hcycles⟩
        rw [htrace', htrace, List.flatten_cons, List.append_assoc]
      · simp only [if_neg he]
        exact hlast fun ⟨e', he', hconflict⟩ => by
          cases he'
          exact he hconflict

variable {c} {cycle : List Exchange} {cycles : List (List Exchange)}

theorem IsCycle.length_le (h : IsCycle desired c cycle) :
    (cycle.length : Int) ≤ 2 * max 1 c.attempts := by
  cases h with
  | reads hread hpresent hcurrent =>
    have hreads := hread.length_le
    rw [Trial.length_exchanges]
    omega
  | creates hread hmissing hwrite =>
    have hreads := hread.length_le
    have hwrites := hwrite.length_le
    rw [List.length_append, Trial.length_exchanges, Trial.length_exchanges]
    omega
  | replaces hread hfound hstored hold hbody hversion hwrite =>
    have hreads := hread.length_le
    have hwrites := hwrite.length_le
    rw [List.length_append, Trial.length_exchanges, Trial.length_exchanges]
    omega

theorem FollowsProtocol.length_cycles_le {left : Nat}
    (h : FollowsProtocol desired c left cycles) : cycles.length ≤ left + 1 := by
  induction h with
  | stop h hend => exact Nat.succ_le_succ (Nat.zero_le _)
  | again h hconflict rest ih => exact Nat.succ_le_succ ih

theorem FollowsProtocol.length_le {left : Nat} (h : FollowsProtocol desired c left cycles) :
    (cycles.flatten.length : Int) ≤ cycles.length * (2 * max 1 c.attempts) := by
  induction h with
  | stop h hend =>
    have hcycle := h.length_le
    rw [List.flatten_singleton, List.length_singleton]
    omega
  | again h _ _ ih =>
    have hcycle := h.length_le
    rw [List.flatten_cons, List.length_append, List.length_cons]
    push_cast
    linarith

end Cycles

end ApiServer

/-- Whatever the server responds, the calls by which a Secret is brought to an expected state are
cycles of the protocol, at most as many as there are attempts, and their number is bounded. -/
theorem converge_followsProtocol {σ : Type} (server : ApiServer.Server σ) (s : σ)
    (c : ApiServer.Client) (expected : Secret) (owner : Option OwnerReference) (attempts : Int)
    (w : Surroundings) :
    let out := ((converge expected owner attempts).run.serveWith ApiServer.Client.answer c).run
      server.answer w (s, [])
    let calls : List ApiServer.Exchange := out.2.2.2
    (∃ cycles : List (List ApiServer.Exchange), calls = cycles.flatten ∧
      (cycles.length : Int) ≤ max 1 attempts ∧
      ApiServer.FollowsProtocol (expected.desired owner) c (max 1 attempts - 1).toNat cycles) ∧
    (calls.length : Int) ≤ 2 * max 1 attempts * max 1 c.attempts := by
  intro out calls
  obtain ⟨cycles, hcalls, hcycles⟩ := Program.run_of_ensures
    (@ApiServer.ensures_retrying_cycles σ server (expected.desired owner) c (s, [])
      (Action.backoff Convergence.firstPause Convergence.longestPause)
      (Action.furtherAttempts attempts) 1) w
  have hmore : Action.furtherAttempts attempts = (max 1 attempts - 1).toNat := by
    unfold Action.furtherAttempts
    omega
  have hlength : (cycles.length : Int) ≤ max 1 attempts := by
    have hle := hcycles.length_cycles_le
    omega
  rw [hmore] at hcycles
  refine ⟨⟨cycles, hcalls, hlength, hcycles⟩, ?_⟩
  have hcalls : calls = cycles.flatten := hcalls
  calc (calls.length : Int) = cycles.flatten.length := by rw [hcalls]
    _ ≤ cycles.length * (2 * max 1 c.attempts) := hcycles.length_le
    _ ≤ max 1 attempts * (2 * max 1 c.attempts) :=
      mul_le_mul_of_nonneg_right hlength (by omega)
    _ = 2 * max 1 attempts * max 1 c.attempts := by ring

/-- The bound is attained: twice the Secret is missing and its creation a conflict, and the server
fails before each of these responses. -/
example :
    let server : ApiServer.Server (List Int) := fun _ statuses =>
      (.error (.rejected statuses.head? none), statuses.tail)
    let client : ApiServer.Client := ⟨.ofInt 30, 2, .ofInt 1, none, false⟩
    let desired : Secret := ⟨"s", "ns", .empty, .empty, .empty, [], [], []⟩
    let out := ((converge desired none 2).run.serveWith ApiServer.Client.answer client).run
      server.answer .bare ([503, 404, 503, 409, 503, 404, 503, 409], [])
    (out.2.2.2 : List ApiServer.Exchange).length = 2 * 2 * 2 := rfl

end CrossClusterKeys
