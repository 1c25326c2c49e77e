import CrossClusterKeys.SecretStore

/-!
# What programs ensure

`Ensures` says what holds at the end of a program that alone works on a state, whatever the log
does and whichever reconcile IDs there are.  It is computed along the tree of requests, so that a
program made of others is treated by their own rules.

**Results.**
* `ensures_bind`, `ensures_serve`, `ensures_serveWith`: the rules for programs in sequence and for
  programs with another one in place of every call.
* `run_of_ensures`: what a program ensures holds of every run.
* `SecretStore.run_of_ensures`: the same over a store in memory with its reports.
* `ensures_retrying`: an action that succeeds at once is not made again.
-/

namespace CrossClusterKeys

/-- Surroundings in which nothing has been logged and no ID can be told from another. -/
def Surroundings.bare : Surroundings := ⟨.initial fun _ => [], []⟩

namespace Program

variable {S T : Service} {α β σ : Type}

/-- `Q` holds of the result and the state after the program, whatever surrounds it. -/
def Ensures (h : (c : S.Call) → σ → S.Answer c × σ) :
    Program S α → σ → (α → σ → Prop) → Prop
  | .done a, s, Q => Q a s
  | .ask r k, s, Q =>
    match r, k with
    | .call c, k => (k (h c s).1).Ensures h (h c s).2 Q
    | .log _, k => (k ()).Ensures h s Q
    | .configureLog .., k => ∀ reply, (k reply).Ensures h s Q
    | .pause _, k => (k ()).Ensures h s Q
    | .currentId, k => ∀ reply, (k reply).Ensures h s Q
    | .setId _, k => (k ()).Ensures h s Q
    | .drawId, k => ∀ reply, (k reply).Ensures h s Q

variable {h : (c : S.Call) → σ → S.Answer c × σ}

section Requests

variable (s : σ)

theorem ensures_pure (a : α) (Q : α → σ → Prop) :
    (pure a : Program S α).Ensures h s Q ↔ Q a s := Iff.rfl

theorem ensures_call (c : S.Call) (Q : S.Answer c → σ → Prop) :
    (Program.call c).Ensures h s Q ↔ Q (h c s).1 (h c s).2 := Iff.rfl

theorem ensures_log (e : Log.Event) (Q : Unit → σ → Prop) :
    (Program.log e : Program S Unit).Ensures h s Q ↔ Q () s := Iff.rfl

end Requests

theorem ensures_bind (p : Program S α) (f : α → Program S β) (s : σ) (Q : β → σ → Prop) :
    (p >>= f).Ensures h s Q ↔ p.Ensures h s fun a s' => (f a).Ensures h s' Q := by
  induction p generalizing s with
  | done a => exact Iff.rfl
  | ask r k ih =>
    cases r with
    | call c => exact ih _ _
    | log e => exact ih _ _
    | configureLog l f => exact forall_congr' fun reply => ih reply s
    | pause p => exact ih _ _
    | currentId => exact forall_congr' fun reply => ih reply s
    | setId id => exact ih _ _
    | drawId => exact forall_congr' fun reply => ih reply s

theorem ensures_mono {p : Program S α} {s : σ} {Q Q' : α → σ → Prop}
    (hp : p.Ensures h s Q) (hQ : ∀ a s', Q a s' → Q' a s') : p.Ensures h s Q' := by
  induction p generalizing s with
  | done a => exact hQ a s hp
  | ask r k ih =>
    cases r with
    | call c => exact ih _ hp
    | log e => exact ih _ hp
    | configureLog l f => exact fun reply => ih reply (hp reply)
    | pause p => exact ih _ hp
    | currentId => exact fun reply => ih reply (hp reply)
    | setId id => exact ih _ hp
    | drawId => exact fun reply => ih reply (hp reply)

/-- Serving calls by programs that ensure the same answers changes nothing. -/
theorem ensures_serve {g : (c : S.Call) → Program S (S.Answer c)}
    (hg : ∀ c s (Q : S.Answer c → σ → Prop),
      Q (h c s).1 (h c s).2 → (g c).Ensures h s Q)
    {p : Program S α} {s : σ} {Q : α → σ → Prop} (hp : p.Ensures h s Q) :
    (p.serve g).Ensures h s Q := by
  induction p generalizing s with
  | done a => exact hp
  | ask r k ih =>
    cases r with
    | call c => exact (ensures_bind _ _ _ _).2 (hg c s _ (ih _ hp))
    | log e => exact ih _ hp
    | configureLog l f => exact fun reply => ih reply (hp reply)
    | pause p => exact ih _ hp
    | currentId => exact fun reply => ih reply (hp reply)
    | setId id => exact ih _ hp
    | drawId => exact fun reply => ih reply (hp reply)

/-- Serving calls by programs that carry a state along is like answering them from both states. -/
theorem ensures_serveWith {τ : Type} {h : (c : T.Call) → σ → T.Answer c × σ}
    {h' : (c : S.Call) → σ × τ → S.Answer c × σ × τ}
    {g : (c : S.Call) → τ → Program T (S.Answer c × τ)}
    (hg : ∀ c s t (Q : S.Answer c × τ → σ → Prop),
      Q ((h' c (s, t)).1, (h' c (s, t)).2.2) (h' c (s, t)).2.1 → (g c t).Ensures h s Q)
    {p : Program S α} {s : σ} {t : τ} {Q : α → σ × τ → Prop} (hp : p.Ensures h' (s, t) Q) :
    (p.serveWith g t).Ensures h s fun out s' => Q out.1 (s', out.2) := by
  induction p generalizing s t with
  | done a => exact hp
  | ask r k ih =>
    cases r with
    | call c => exact (ensures_bind _ _ _ _).2 (hg c s t _ (ih _ hp))
    | log e => exact ih _ hp
    | configureLog l f => exact fun reply => ih reply (hp reply)
    | pause p => exact ih _ hp
    | currentId => exact fun reply => ih reply (hp reply)
    | setId id => exact ih _ hp
    | drawId => exact fun reply => ih reply (hp reply)

/-- What a program ensures holds of every run. -/
theorem run_of_ensures {p : Program S α} {s : σ} {Q : α → σ → Prop} (hp : p.Ensures h s Q)
    (w : Surroundings) : Q (p.run h w s).1 (p.run h w s).2.2 := by
  induction p generalizing w s with
  | done a => exact hp
  | ask r k ih =>
    cases r with
    | call c => exact ih _ hp _
    | log e => exact ih _ hp _
    | configureLog l f => exact ih _ (hp _) _
    | pause p => exact ih _ hp _
    | currentId => exact ih _ (hp _) _
    | setId id => exact ih _ hp _
    | drawId => exact ih _ (hp _) _

end Program

namespace Action

variable {S : Service} {α β σ : Type} {h : (c : S.Call) → σ → S.Answer c × σ}

theorem ensures_ofExcept (e : Except Raised α) (s : σ) (Q : Except Raised α → σ → Prop) :
    (Action.ofExcept e : Action S α).run.Ensures h s Q ↔ Q e s := Iff.rfl

theorem ensures_pure (a : α) (s : σ) (Q : Except Raised α → σ → Prop) :
    (pure a : Action S α).run.Ensures h s Q ↔ Q (.ok a) s := Iff.rfl

theorem ensures_log (e : Log.Event) (s : σ) (Q : Except Raised Unit → σ → Prop) :
    (Action.log e : Action S Unit).run.Ensures h s Q ↔ Q (.ok ()) s := Iff.rfl

/-- One action after another: a failure of the first one is the failure of both. -/
theorem ensures_bind (x : Action S α) (f : α → Action S β) (s : σ)
    (Q : Except Raised β → σ → Prop) :
    (x >>= f).run.Ensures h s Q ↔
      x.run.Ensures h s fun r s' => match r with
        | .ok a => (f a).run.Ensures h s' Q
        | .error e => Q (.error e) s' := by
  have hrun : (x >>= f).run = x.run >>= ExceptT.bindCont f := rfl
  rw [hrun, Program.ensures_bind]
  constructor
  · intro hx
    refine Program.ensures_mono hx fun r s' hr => ?_
    cases r with
    | ok a => exact hr
    | error e => exact hr
  · intro hx
    refine Program.ensures_mono hx fun r s' hr => ?_
    cases r with
    | ok a => exact hr
    | error e => exact hr

/-- A reconcile ID has no part in what an action ensures. -/
theorem ensures_underId (id : Option Text) (body : Action S α) (s : σ)
    {Q : Except Raised α → σ → Prop} (hb : body.run.Ensures h s Q) :
    (Action.underId id body).run.Ensures h s Q := by
  have hrest : ∀ own : Text, (do
      let before ← Program.currentId
      Program.setId (some own)
      let outcome ← body.run
      Program.setId before
      return outcome : Program S (Except Raised α)).Ensures h s Q := by
    intro own before
    change (body.run >>= fun outcome => do
      Program.setId before
      return outcome).Ensures h s Q
    rw [Program.ensures_bind]
    exact hb
  cases id with
  | none => exact fun own => hrest own
  | some t =>
    cases t with
    | nil => exact fun own => hrest own
    | cons c t => exact hrest (c :: t)

/-- An action that succeeds at once is not made again. -/
theorem ensures_retrying {again : Raised → Bool} {wait : Nat → Binary64} {body : Action S α}
    {s : σ} {Q : α → σ → Prop}
    (hb : body.run.Ensures h s fun r s' => ∃ a, r = .ok a ∧ Q a s') (more n : Nat) :
    (Action.retrying again wait body more n).run.Ensures h s
      fun r s' => ∃ a, r = .ok a ∧ Q a s' := by
  cases more with
  | zero => exact hb
  | succ more =>
    refine (Program.ensures_bind _ _ _ _).2 ?_
    refine Program.ensures_mono hb ?_
    rintro r s' ⟨a, rfl, ha⟩
    exact ⟨a, rfl, ha⟩

end Action

namespace SecretStore

variable {α : Type}

/-- A store with its reports answers as it does without them. -/
theorem ensures_reported {σ : Type} {h : (c : Store.Call) → σ → Store.Answer c × σ}
    (c : StoreCall) (s : σ) (Q : c.Answer → σ → Prop) (hQ : Q (h c s).1 (h c s).2) :
    (reported c).Ensures h s Q := by
  refine (Program.ensures_bind _ _ _ _).2 ?_
  refine (Program.ensures_call _ _ _).2 ?_
  refine (Program.ensures_bind _ _ _ _).2 ?_
  unfold report
  split
  · split
    · exact hQ
    · exact hQ
  · exact hQ

/-- What a program ensures over a store holds of every run over it. -/
theorem run_of_ensures {p : Program Store α} {m : SecretStore} {Q : α → SecretStore → Prop}
    (hp : p.Ensures answer m Q) (w : Surroundings) :
    Q (SecretStore.run p w m).1 (SecretStore.run p w m).2.2 :=
  Program.run_of_ensures (Program.ensures_serve ensures_reported hp) w

end SecretStore
end CrossClusterKeys
