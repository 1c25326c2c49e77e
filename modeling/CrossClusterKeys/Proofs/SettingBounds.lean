import CrossClusterKeys.Cli
import CrossClusterKeys.Proofs.Backings
import CrossClusterKeys.Proofs.Resending

/-!
# Settings bound the calls of a run

A run sends operations to the API server, each under a time-out and up to a number of attempts.
Both come from the settings, and these from the environment and the file `.env`.

**Input.**  Any environment and any files with which the settings are read, any run of the command
line over them, and whatever its calls are answered.

**Results.**
* `isBound_timeout`: an accepted time-out is above zero and at most 600 seconds.
* `Cli.asks_run`: whatever a run sends, it sends under the time-out of its settings.
* `settings_bound_calls`: the bounds of the settings are those of the client, of the attempts at an
  operation and of all calls.
-/

namespace CrossClusterKeys

namespace Settings

/-- The time-out is above zero and at most 600 seconds. -/
def IsBound (timeout : Binary64) : Prop :=
  (Binary64.ofInt 0).lt timeout = true ∧ timeout.le (.ofInt 600) = true

variable {environment : KeyMap Text} {files : Files} {source : Source} {s : Settings}

/-- Settings are checked in one source. -/
theorem exists_source (h : read environment files = .ok s) :
    ∃ source, check source = .ok s := by
  unfold read at h
  cases hfile : files.contents.get? ".env" with
  | none =>
    simp only [hfile] at h
    exact ⟨_, h⟩
  | some bytes =>
    simp only [hfile] at h
    obtain ⟨t, -, hcheck⟩ := exists_of_bind_eq_ok h
    exact ⟨_, hcheck⟩

/-- A time-out is the default one or has passed the check. -/
theorem isBound_timeout (h : check source = .ok s) : IsBound s.timeout := by
  have htimeout := (get_of_check h).1
  unfold get at htimeout
  cases hgiven : source.get? "request_timeout_seconds" with
  | none =>
    simp only [hgiven] at htimeout
    rw [← Except.ok.inj htimeout]
    exact ⟨by decide +kernel, by decide +kernel⟩
  | some t =>
    simp only [hgiven] at htimeout
    obtain ⟨x, -, hpositive⟩ := exists_of_bind_eq_ok (mapError_eq_ok_iff.1 htimeout)
    obtain ⟨hsame, hmost, habove⟩ := positive_eq_ok_iff.1 hpositive
    rw [hsame]
    exact ⟨habove, hmost⟩

end Settings

namespace Program

variable {S : Service} {α σ : Type}

/-- What a program asks for holds of all that its runs do. -/
theorem of_mem_deeds (h : (c : S.Call) → σ → S.Answer c × σ) {P : Request S → Prop} {Q : α → Prop}
    {p : Program S α} (hp : p.Asks P Q) (w : Surroundings) (x : σ) {c : S.Call}
    (hc : .call c ∈ p.deeds h w x) : P (.call c) := by
  induction p generalizing w x with
  | done a => cases hc
  | ask r k ih =>
    cases r with
    | call d =>
      rcases List.mem_cons.1 hc with hd | hc
      · cases hd
        exact hp.1
      · exact ih _ (hp.2 _) _ _ hc
    | pause d => exact ih _ (hp.2 _) _ _ ((List.mem_cons.1 hc).resolve_left fun hd => by cases hd)
    | _ => exact ih _ (hp.2 _) _ _ hc

end Program

namespace Cli

/-- Operations are sent under this time-out only. -/
def Within (timeout : Binary64) : Request ApiServer → Prop
  | .call (.request _ t) => t = timeout
  | _ => True

theorem within_of_mayAsk {timeout : Binary64} {r : Request ApiServer}
    (h : ApiServer.Client.MayAsk timeout r) : Within timeout r := by
  rcases r with (_ | _ | _ | _ | _) | _ | _ | _ | _ | _ | _
  case call.request => exact h
  all_goals trivial

theorem within_of_beforeSending {timeout : Binary64} {r : Request ApiServer}
    (h : ApiServer.Client.BeforeSending r) : Within timeout r := by
  rcases r with (_ | _ | _ | _ | _) | _ | _ | _ | _ | _ | _
  case call.request => exact h.elim
  all_goals trivial

variable {p : Place} {s : Settings}

theorem asks_start (h : Settings.read p.environment p.files = .ok s) (arguments : List Text) :
    (start (S := ApiServer) arguments p).Asks (Within s.timeout) fun outcome =>
      ∀ r, outcome = .ok r → r.settings = s := by
  unfold start
  cases Invocation.read arguments with
  | error stop => exact fun r hr => by cases hr
  | ok i =>
    simp only [h]
    refine Program.asks_bind (Program.asks_request trivial) fun reply _ => ?_
    cases reply with
    | error f => exact fun r hr => by cases hr
    | ok u =>
      intro r hr
      cases hr
      rfl

/-- Whatever a run sends, it sends under the time-out of its settings. -/
theorem asks_run [Json.Nesting] (h : Settings.read p.environment p.files = .ok s)
    (uids : Nat → Text) (arguments : List Text) :
    (run uids arguments p).Asks (Within s.timeout) Anything := by
  refine Program.asks_bind (asks_start h arguments) fun started hstarted => ?_
  cases started with
  | error e => trivial
  | ok r =>
    obtain rfl := hstarted r rfl
    have hother : ∀ (q : Request Store) (q' : Request ApiServer), q.other? = some q' →
        Anything q → Within r.settings.timeout q' := by
      intro q q' hq _
      cases q <;> cases hq <;> trivial
    cases hchoice : r.settings.choose r.invocation.backend with
    | error f =>
      simp only [hchoice]
      trivial
    | ok b =>
      cases b with
      | memory =>
        simp only [hchoice]
        refine Program.asks_bind (Program.asks_request trivial) fun _ _ => ?_
        refine Program.asks_bind (Program.asks_serveWith (I := Anything) (fun c m _ _ => ?_) hother
          (Program.asks_anything (work r)) trivial) fun _ _ => trivial
        exact Program.asks_bind (SecretStore.asks_report (fun _ => trivial) c _) fun _ _ => trivial
      | kubernetes =>
        simp only [hchoice]
        refine Program.asks_bind (Program.asks_mono
          (ApiServer.Client.asks_connect r.settings.options) (fun _ => within_of_beforeSending)
          fun _ h => h) fun connected hconnected => ?_
        cases connected with
        | error e => trivial
        | ok client =>
          refine Program.asks_bind (Program.asks_serveWith
            (I := fun c => c.timeout = r.settings.timeout) (fun call c hc _ => ?_) hother
            (Program.asks_anything (work r)) (hconnected client rfl).1) fun _ _ => trivial
          exact Program.asks_mono (c.asks_answer call) (fun _ hq => within_of_mayAsk (hc ▸ hq))
            fun _ hout => hout.trans hc

end Cli

open ApiServer (Client Operation Responses attemptDeeds)

/-- A client makes at least one attempt at an operation and no more than it is allowed. -/
theorem ApiServer.exists_attempts (c : Client) (resource : Text) (o : Operation)
    (responses : Responses) (w : Surroundings) :
    ∃ n : Nat, 1 ≤ n ∧ (n : Int) ≤ max 1 c.attempts ∧
      (c.send resource o).run.deeds responses.answer w 0 =
        attemptDeeds c.timeout c.wait o 1 (n - 1) := by
  obtain ⟨j, hle, hdeeds⟩ : ∃ j, j ≤ Action.furtherAttempts c.attempts ∧
      (c.attempting o).deeds responses.answer w 0 = attemptDeeds c.timeout c.wait o 1 j := by
    obtain ⟨j, hstops, -, -, -, hdeeds⟩ :=
      run_attempting (Action.furtherAttempts c.attempts) 1 0 w
    exact ⟨j, hstops.le, hdeeds⟩
  unfold Action.furtherAttempts at hle
  exact ⟨j + 1, by omega, by omega, (deeds_send c resource o responses w).trans hdeeds⟩

/-- Accepted settings bound the time-out and the attempts, and these bounds are those of the client
that is made from the settings, of the attempts at an operation and of all that a run sends. -/
theorem settings_bound_calls [Json.Nesting] {environment : KeyMap Text} {files : Files}
    {s : Settings} (h : Settings.read environment files = .ok s) :
    (1 ≤ s.attempts ∧ s.attempts ≤ 10) ∧
    Settings.IsBound s.timeout ∧
    (∀ (σ : Type) (answer : (c : ApiServer.Call) → σ → c.Answer × σ) (w : Surroundings) (x : σ)
      (client : Client), ((Client.connect s.options).run.run answer w x).1 = .ok client →
      client.timeout = s.timeout ∧ client.attempts = s.attempts ∧
      ∀ (resource : Text) (o : Operation) (responses : Responses) (v : Surroundings),
        ∃ n, 1 ≤ n ∧ n ≤ 10 ∧ (client.send resource o).run.deeds responses.answer v 0 =
          attemptDeeds s.timeout client.wait o 1 (n - 1)) ∧
    (∀ (σ : Type) (answer : (c : ApiServer.Call) → σ → c.Answer × σ) (w : Surroundings) (x : σ)
      (uids : Nat → Text) (arguments : List Text) (input : Text) (o : Operation)
      (timeout : Binary64), .call (.request o timeout) ∈
        (Cli.run uids arguments ⟨environment, files, input⟩).deeds answer w x →
      timeout = s.timeout) := by
  obtain ⟨source, hcheck⟩ := Settings.exists_source h
  have hattempts := Settings.check_attempts hcheck
  refine ⟨hattempts, Settings.isBound_timeout hcheck, ?_, ?_⟩
  · intro σ answer w x client hclient
    obtain ⟨htimeout, hsame⟩ : client.timeout = s.timeout ∧ client.attempts = s.attempts :=
      Program.run_of_asks answer (Client.asks_connect s.options) w x client hclient
    refine ⟨htimeout, hsame, fun resource o responses v => ?_⟩
    obtain ⟨n, hleast, hmost, hdeeds⟩ := ApiServer.exists_attempts client resource o responses v
    have hbound : max 1 client.attempts ≤ 10 := hsame ▸ max_le (by decide) hattempts.2
    exact ⟨n, hleast, by omega, htimeout ▸ hdeeds⟩
  · intro σ answer w x uids arguments input o timeout hmem
    exact Program.of_mem_deeds answer (Cli.asks_run h uids arguments) w x hmem

/-- An environment with a time-out in the notation of numbers and the most attempts. -/
def boundEnvironment : KeyMap Text :=
  .ofList [("Request_Timeout_Seconds", " 6e2"), ("STORE_RETRY_ATTEMPTS", "+1_0.0")]

theorem settings_bound_calls_longest :
    ∃ s, Settings.read boundEnvironment ⟨.empty⟩ = .ok s ∧ s.attempts = 10 ∧
      s.timeout = .ofInt 600 ∧ (1 ≤ s.attempts ∧ s.attempts ≤ 10) ∧
      Settings.IsBound s.timeout := by
  obtain ⟨s, hs⟩ : ∃ s, Settings.read boundEnvironment ⟨.empty⟩ = .ok s := ⟨_, rfl⟩
  have hgiven : (Settings.read boundEnvironment ⟨.empty⟩).toOption.map
      (fun s => (s.attempts, s.timeout)) = some (10, .ofInt 600) := by decide +kernel
  rw [hs] at hgiven
  obtain ⟨hten, hlongest⟩ := Prod.mk.inj (Option.some.inj hgiven)
  obtain ⟨hattempts, hbound, -, -⟩ := settings_bound_calls hs
  exact ⟨s, hs, hten, hlongest, hattempts, hbound⟩

/-- No word for what is no number is a time-out. -/
example : (["nan", "-NaN", " nan ", "n_an"].map fun t => (Settings.read
      (.ofList [("REQUEST_TIMEOUT_SECONDS", t)]) ⟨.empty⟩).toOption.isSome) =
    [false, false, false, false] := by decide +kernel

end CrossClusterKeys
