import CrossClusterKeys.Proofs.SharedStore

/-!
# Programs in lockstep

Two programs are in lockstep if they ask for the same at the same time, as far as it can be seen
from outside, and go on in lockstep whatever the replies are.  Only calls of the service may differ.

**Input.**  A `Coupling` says which calls correspond to each other and which answers to them do.

**Results.**
* `Lockstep.bind`, `Lockstep.retrying`, `Lockstep.underId`: the rules for programs in sequence, for
  attempts that are made again and for a reconcile ID.
* `Lockstep.serve`: programs in place of calls keep others in lockstep if they are so themselves.
* `Lockstep.run`: in the same surroundings, programs in lockstep leave the same surroundings behind,
  over whatever gives corresponding answers to corresponding calls.
-/

namespace CrossClusterKeys

/-- Two outcomes are the same failure, or results that correspond to each other. -/
inductive Agree {ε α β : Type} (R : α → β → Prop) : Except ε α → Except ε β → Prop
  | error (e : ε) : Agree R (.error e) (.error e)
  | ok {a : α} {b : β} (h : R a b) : Agree R (.ok a) (.ok b)

namespace Agree

variable {ε ε' α β γ δ : Type} {R : α → β → Prop} {R' : γ → δ → Prop}

theorem refl (x : Except ε α) : Agree Eq x x := by
  cases x with
  | error e => exact .error e
  | ok a => exact .ok rfl

theorem eq {x y : Except ε α} (h : Agree Eq x y) : x = y := by
  cases h with
  | error e => rfl
  | ok h => rw [h]

theorem mono {x : Except ε α} {y : Except ε β} (h : Agree R x y) {R' : α → β → Prop}
    (hR : ∀ a b, R a b → R' a b) : Agree R' x y := by
  cases h with
  | error e => exact .error e
  | ok h => exact .ok (hR _ _ h)

theorem map {x : Except ε α} {y : Except ε β} (h : Agree R x y) {f : α → γ} {g : β → δ}
    (hfg : ∀ a b, R a b → R' (f a) (g b)) : Agree R' (x.map f) (y.map g) := by
  cases h with
  | error e => exact .error e
  | ok h => exact .ok (hfg _ _ h)

theorem bind {x : Except ε α} {y : Except ε β} (h : Agree R x y) {f : α → Except ε γ}
    {g : β → Except ε δ} (hfg : ∀ a b, R a b → Agree R' (f a) (g b)) :
    Agree R' (x >>= f) (y >>= g) := by
  cases h with
  | error e => exact .error e
  | ok h => exact hfg _ _ h

theorem mapError {x : Except ε α} {y : Except ε β} (h : Agree R x y) (f : ε → ε') :
    Agree R (x.mapError f) (y.mapError f) := by
  cases h with
  | error e => exact .error (f e)
  | ok h => exact .ok h

end Agree

/-- Which calls of a service correspond to each other, and which answers to them. -/
structure Coupling (S : Service) where
  calls : S.Call → S.Call → Prop
  answers : {c c' : S.Call} → S.Answer c → S.Answer c' → Prop

/-- Whether a request is a call. -/
def Request.isCall {S : Service} : Request S → Bool
  | .call _ => true
  | _ => false

/-- The programs ask for the same, up to calls that correspond, and end with results in `R`. -/
inductive Lockstep {S : Service} {α β : Type} (K : Coupling S) (R : α → β → Prop) :
    Program S α → Program S β → Prop
  | done {a b} (h : R a b) : Lockstep K R (.done a) (.done b)
  | call {c c' : S.Call} {k k'} (hc : K.calls c c')
      (h : ∀ a a', K.answers a a' → Lockstep K R (k a) (k' a')) :
      Lockstep K R (.ask (.call c) k) (.ask (.call c') k')
  | request {r : Request S} (hr : r.isCall = false) {k k'}
      (h : ∀ reply, Lockstep K R (k reply) (k' reply)) :
      Lockstep K R (.ask r k) (.ask r k')

namespace Lockstep

variable {S T : Service} {α β γ δ : Type} {K : Coupling S} {R : α → β → Prop} {R' : γ → δ → Prop}

theorem log (e : Log.Event) : Lockstep K Eq (Program.log e) (Program.log e) :=
  .request rfl fun _ => .done rfl

theorem call_answers {c c' : S.Call} (hc : K.calls c c') :
    Lockstep K K.answers (Program.call c) (Program.call c') :=
  .call hc fun _ _ h => .done h

theorem bind {p : Program S α} {p' : Program S β} (hp : Lockstep K R p p')
    {f : α → Program S γ} {f' : β → Program S δ} (hf : ∀ a b, R a b → Lockstep K R' (f a) (f' b)) :
    Lockstep K R' (p >>= f) (p' >>= f') := by
  induction hp with
  | done h => exact hf _ _ h
  | call hc _ ih => exact .call hc ih
  | request hr _ ih => exact .request hr ih

/-- Programs in place of calls keep others in lockstep if they are so themselves. -/
theorem serve {L : Coupling T} {g g' : (c : S.Call) → Program T (S.Answer c)}
    (hg : ∀ c c', K.calls c c' → Lockstep L K.answers (g c) (g' c'))
    {p : Program S α} {p' : Program S β} (hp : Lockstep K R p p') :
    Lockstep L R (p.serve g) (p'.serve g') := by
  induction hp with
  | done h => exact .done h
  | call hc _ ih => exact (hg _ _ hc).bind ih
  | @request r hr k k' _ ih =>
    cases r with
    | call c => cases hr
    | log | configureLog | pause | currentId | setId | drawId => exact .request rfl ih

/-- In the same surroundings, programs in lockstep leave the same surroundings behind. -/
theorem run {σ τ : Type} {h : (c : S.Call) → σ → S.Answer c × σ}
    {h' : (c : S.Call) → τ → S.Answer c × τ} {I : σ → τ → Prop}
    (hstep : ∀ c c' s t, K.calls c c' → I s t →
      K.answers (h c s).1 (h' c' t).1 ∧ I (h c s).2 (h' c' t).2)
    {p : Program S α} {p' : Program S β} (hp : Lockstep K R p p') (w : Surroundings) {s : σ}
    {t : τ} (hI : I s t) :
    R (p.run h w s).1 (p'.run h' w t).1 ∧ (p.run h w s).2.1 = (p'.run h' w t).2.1 ∧
      I (p.run h w s).2.2 (p'.run h' w t).2.2 := by
  induction hp generalizing w s t with
  | done hR => exact ⟨hR, rfl, hI⟩
  | call hc _ ih =>
    obtain ⟨hanswers, hI'⟩ := hstep _ _ s t hc hI
    exact ih _ _ hanswers w hI'
  | @request r hr k k' _ ih =>
    cases r with
    | call c => cases hr
    | log | configureLog | pause | currentId | setId | drawId => exact ih _ _ hI

section Actions

variable {x : Action S α} {x' : Action S β}

theorem ofExcept {e : Except Raised α} {e' : Except Raised β} (h : Agree R e e') :
    Lockstep K (Agree R) (Action.ofExcept e : Action S α).run (Action.ofExcept e').run :=
  .done h

/-- One action after another: both fail alike, or both go on. -/
theorem action_bind (hx : Lockstep K (Agree R) x.run x'.run) {f : α → Action S γ}
    {f' : β → Action S δ} (hf : ∀ a b, R a b → Lockstep K (Agree R') (f a).run (f' b).run) :
    Lockstep K (Agree R') (x >>= f).run (x' >>= f').run := by
  refine Lockstep.bind hx fun e e' he => ?_
  cases he with
  | error e => exact .done (.error e)
  | ok h => exact hf _ _ h

theorem retrying (again : Raised → Bool) (wait : Nat → Binary64)
    (hx : Lockstep K (Agree R) x.run x'.run) (more n : Nat) :
    Lockstep K (Agree R) (Action.retrying again wait x more n).run
      (Action.retrying again wait x' more n).run := by
  induction more generalizing n with
  | zero => exact hx
  | succ more ih =>
    refine Lockstep.bind hx fun e e' he => ?_
    cases he with
    | ok h => exact .done (.ok h)
    | error e =>
      by_cases he : again e = true
      · simp only [he, if_true]
        exact .request rfl fun _ => ih (n + 1)
      · simp only [if_neg he]
        exact .done (.error e)

theorem underId (id : Option Text) (hx : Lockstep K (Agree R) x.run x'.run) :
    Lockstep K (Agree R) (Action.underId id x).run (Action.underId id x').run := by
  have hrest : ∀ own : Text, Lockstep K (Agree R)
      (do
        let before ← Program.currentId
        Program.setId (some own)
        let outcome ← x.run
        Program.setId before
        return outcome)
      (do
        let before ← Program.currentId
        Program.setId (some own)
        let outcome ← x'.run
        Program.setId before
        return outcome) := by
    intro own
    refine .request rfl fun before => .request rfl fun _ => ?_
    exact Lockstep.bind hx fun e e' he => .request rfl fun _ => .done he
  cases id with
  | none => exact .request rfl hrest
  | some t =>
    cases t with
    | nil => exact .request rfl hrest
    | cons c t => exact hrest (c :: t)

end Actions

end Lockstep
end CrossClusterKeys
