import CrossClusterKeys.SecretStore

/-!
# What a program asks for

`Asks` is about all the requests that a program can make and about all its results, whatever each
request is answered.  So it says of a program what holds of all its runs, over every service and
from every state.

**Results.**
* `asks_bind`, `asks_serveWith`: the rules for programs in sequence and for programs with another
  one in place of every call.
* `asks_retrying`: trying again asks for nothing new but pauses.
* `SecretStore.asks_report`: reporting a call asks for nothing but a record.
* `run_of_asks`: what holds of all results holds of the result of every run.
-/

namespace CrossClusterKeys

/-- The same request of another service; none if it is a call. -/
def Request.other? {S T : Service} : Request S → Option (Request T)
  | .call _ => none
  | .log e => some (.log e)
  | .configureLog l f => some (.configureLog l f)
  | .pause d => some (.pause d)
  | .currentId => some .currentId
  | .setId id => some (.setId id)
  | .drawId => some .drawId

/-- Anything may be asked for, or result. -/
def Anything {α : Type} : α → Prop := fun _ => True

namespace Program

variable {S T : Service} {α β σ : Type}

/-- `P` holds of every request that the program can make, and `Q` of every result. -/
def Asks (P : Request S → Prop) (Q : α → Prop) : Program S α → Prop
  | .done a => Q a
  | .ask r k => P r ∧ ∀ reply, (k reply).Asks P Q

variable {P P' : Request S → Prop} {Q : α → Prop}

theorem asks_pure {a : α} (h : Q a) : (pure a : Program S α).Asks P Q := h

theorem asks_request {r : Request S} (h : P r) : (ask r .done).Asks P Anything :=
  ⟨h, fun _ => trivial⟩

theorem asks_anything (p : Program S α) : p.Asks Anything Anything := by
  induction p with
  | done a => trivial
  | ask r k ih => exact ⟨trivial, ih⟩

theorem asks_mono {Q' : α → Prop} {p : Program S α} (hp : p.Asks P Q) (hP : ∀ r, P r → P' r)
    (hQ : ∀ a, Q a → Q' a) : p.Asks P' Q' := by
  induction p with
  | done a => exact hQ a hp
  | ask r k ih => exact ⟨hP r hp.1, fun reply => ih reply (hp.2 reply)⟩

theorem asks_bind {R : β → Prop} {p : Program S α} {f : α → Program S β} (hp : p.Asks P Q)
    (hf : ∀ a, Q a → (f a).Asks P R) : (p >>= f).Asks P R := by
  induction p with
  | done a => exact hf a hp
  | ask r k ih => exact ⟨hp.1, fun reply => ih reply (hp.2 reply)⟩

/-- A program over another service asks for what it did and for what its calls are served by. -/
theorem asks_serveWith {τ : Type} {g : (c : S.Call) → τ → Program T (S.Answer c × τ)}
    {I : τ → Prop} {P' : Request T → Prop}
    (hg : ∀ c t, I t → P (.call c) → (g c t).Asks P' fun out => I out.2)
    (hother : ∀ r r', r.other? = some r' → P r → P' r') {p : Program S α} (hp : p.Asks P Q)
    {t : τ} (ht : I t) : (p.serveWith g t).Asks P' fun out => Q out.1 ∧ I out.2 := by
  induction p generalizing t with
  | done a => exact ⟨hp, ht⟩
  | ask r k ih =>
    cases r with
    | call c => exact asks_bind (hg c t ht hp.1) fun reply hreply => ih reply.1 (hp.2 reply.1) hreply
    | _ => exact ⟨hother _ _ rfl hp.1, fun reply => ih reply (hp.2 reply) ht⟩

/-- What holds of all results holds of the result of every run. -/
theorem run_of_asks (h : (c : S.Call) → σ → S.Answer c × σ) {p : Program S α} (hp : p.Asks P Q)
    (w : Surroundings) (x : σ) : Q (p.run h w x).1 := by
  induction p generalizing w x with
  | done a => exact hp
  | ask r k ih => cases r <;> exact ih _ (hp.2 _) _ _

end Program

namespace Action

variable {S : Service} {α β : Type} {P : Request S → Prop}

open Program (asks_bind asks_pure asks_request)

theorem asks_ofExcept (e : Except Raised α) : (ofExcept e : Action S α).run.Asks P Anything :=
  trivial

theorem asks_action_bind {x : Action S α} {f : α → Action S β} (hx : x.run.Asks P Anything)
    (hf : ∀ a, (f a).run.Asks P Anything) : (x >>= f).run.Asks P Anything := by
  refine asks_bind (f := ExceptT.bindCont f) hx fun r _ => ?_
  cases r with
  | ok a => exact hf a
  | error e => exact asks_pure trivial

/-- Trying again asks for nothing new but pauses. -/
theorem asks_retrying (hpause : ∀ d, P (.pause d)) {again : Raised → Bool} {wait : Nat → Binary64}
    {body : Action S α} (hb : body.run.Asks P Anything) (more n : Nat) :
    (retrying again wait body more n).run.Asks P Anything := by
  induction more generalizing n with
  | zero => exact hb
  | succ more ih =>
    refine asks_bind hb fun r _ => ?_
    cases r with
    | ok a => exact asks_pure trivial
    | error e =>
      by_cases hagain : again e = true
      · simp only [hagain, if_true]
        exact asks_bind (asks_request (hpause _)) fun _ _ => ih (n + 1)
      · simp only [if_neg hagain]
        exact asks_pure trivial

end Action

/-- Reporting a call asks for nothing but a record. -/
theorem SecretStore.asks_report {S : Service} {P : Request S → Prop} (hlog : ∀ e, P (.log e))
    (c : StoreCall) (a : c.Answer) : (report c a : Program S Unit).Asks P Anything := by
  unfold report
  split
  · split
    · exact Program.asks_request (hlog _)
    · trivial
  · trivial

end CrossClusterKeys
