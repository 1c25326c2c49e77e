import CrossClusterKeys.Proofs.Edits

/-!
# Programs that write once

Another program may call the store between any two calls of a program.  A program is transacting
when, whatever the others do, each of its calls either leaves the store as it is or is the last one
and brings about what the program is for.

**Moves.**  `advance` lets a program make its next request.  Calls are answered by the store, all
other requests by whatever surrounds the program at that moment.

**Results.**
* `advance_of_transacts`, `advance_of_rests`: what one move does.
* `transacts_save`: saving an index is transacting, with the index standing in the store at the end.
* `transacts_pass`: so is what follows the loading in a pass that edits one alias.
* `exists_advances`: a program that is left alone ends as its run does.
-/

namespace CrossClusterKeys

open SecretStore (answer)

namespace Program

variable {S : Service} {α β σ : Type}

/-- Whether the next request is a call. -/
def isCalling : Program S α → Bool
  | .ask (.call _) _ => true
  | _ => false

/-- The program after its next request, in some surroundings, and the state then. -/
def advance (h : (c : S.Call) → σ → S.Answer c × σ) (w : Surroundings) :
    Program S α → σ → Program S α × σ
  | .done a, s => (.done a, s)
  | .ask r k, s =>
    match r, k with
    | .call c, k => (k (h c s).1, (h c s).2)
    | .log _, k => (k (), s)
    | .configureLog l f, k => (k (w.configureLog l f).1, s)
    | .pause _, k => (k (), s)
    | .currentId, k => (k w.session.reconcileId, s)
    | .setId _, k => (k (), s)
    | .drawId, k => (k w.session.drawId.1, s)

/-- There are no more calls, and the result satisfies `Q`. -/
def Rests (Q : α → Prop) : Program S α → Prop
  | .done a => Q a
  | .ask r k =>
    match r, k with
    | .call _, _ => False
    | .log _, k => (k ()).Rests Q
    | .configureLog .., k => ∀ reply, (k reply).Rests Q
    | .pause _, k => (k ()).Rests Q
    | .currentId, k => ∀ reply, (k reply).Rests Q
    | .setId _, k => (k ()).Rests Q
    | .drawId, k => ∀ reply, (k reply).Rests Q

/-- Every call leaves the store as it is, or it is the last one and brings `P` about.  The result
satisfies `closed` if `P` was brought about and `opened` if it was not. -/
def Transacts (P : SecretStore → Prop) (opened closed : α → Prop) : Program Store α → Prop
  | .done a => opened a
  | .ask r k =>
    match r, k with
    | .call c, k => ∀ m : SecretStore, m.IsKept →
      ((answer c m).2 = m ∧ (k (answer c m).1).Transacts P opened closed) ∨
        (P (answer c m).2 ∧ (k (answer c m).1).Rests closed)
    | .log _, k => (k ()).Transacts P opened closed
    | .configureLog .., k => ∀ reply, (k reply).Transacts P opened closed
    | .pause _, k => (k ()).Transacts P opened closed
    | .currentId, k => ∀ reply, (k reply).Transacts P opened closed
    | .setId _, k => (k ()).Transacts P opened closed
    | .drawId, k => ∀ reply, (k reply).Transacts P opened closed

section Sequence

variable {P : SecretStore → Prop} {opened closed : α → Prop} {opened' closed' : β → Prop}

theorem rests_bind {p : Program S α} {f : α → Program S β} (hp : p.Rests closed)
    (hf : ∀ a, closed a → (f a).Rests closed') : (p >>= f).Rests closed' := by
  induction p with
  | done a => exact hf a hp
  | ask r k ih =>
    cases r with
    | call c => exact hp.elim
    | log e => exact ih _ hp
    | configureLog l f => exact fun reply => ih reply (hp reply)
    | pause s => exact ih _ hp
    | currentId => exact fun reply => ih reply (hp reply)
    | setId id => exact ih _ hp
    | drawId => exact fun reply => ih reply (hp reply)

/-- A program that makes no calls may stand in front of a transacting one. -/
theorem transacts_bind_of_rests {p : Program Store α} {f : α → Program Store β}
    (hp : p.Rests closed) (hf : ∀ a, closed a → (f a).Transacts P opened' closed') :
    (p >>= f).Transacts P opened' closed' := by
  induction p with
  | done a => exact hf a hp
  | ask r k ih =>
    cases r with
    | call c => exact hp.elim
    | log e => exact ih _ hp
    | configureLog l f => exact fun reply => ih reply (hp reply)
    | pause s => exact ih _ hp
    | currentId => exact fun reply => ih reply (hp reply)
    | setId id => exact ih _ hp
    | drawId => exact fun reply => ih reply (hp reply)

/-- What follows a transacting program goes on transacting or makes no calls. -/
theorem transacts_bind {p : Program Store α} {f : α → Program Store β}
    (hp : p.Transacts P opened closed)
    (hopened : ∀ a, opened a → (f a).Transacts P opened' closed')
    (hclosed : ∀ a, closed a → (f a).Rests closed') :
    (p >>= f).Transacts P opened' closed' := by
  induction p with
  | done a => exact hopened a hp
  | ask r k ih =>
    cases r with
    | call c =>
      intro m hm
      rcases hp m hm with ⟨hsame, hk⟩ | ⟨hP, hk⟩
      · exact Or.inl ⟨hsame, ih _ hk⟩
      · exact Or.inr ⟨hP, rests_bind hk hclosed⟩
    | log e => exact ih _ hp
    | configureLog l f => exact fun reply => ih reply (hp reply)
    | pause s => exact ih _ hp
    | currentId => exact fun reply => ih reply (hp reply)
    | setId id => exact ih _ hp
    | drawId => exact fun reply => ih reply (hp reply)

theorem rests_serve {T : Service} {g : (c : S.Call) → Program T (S.Answer c)} {p : Program S α}
    (hp : p.Rests closed) : (p.serve g).Rests closed := by
  induction p with
  | done a => exact hp
  | ask r k ih =>
    cases r with
    | call c => exact hp.elim
    | log e => exact ih _ hp
    | configureLog l f => exact fun reply => ih reply (hp reply)
    | pause s => exact ih _ hp
    | currentId => exact fun reply => ih reply (hp reply)
    | setId id => exact ih _ hp
    | drawId => exact fun reply => ih reply (hp reply)

/-- The report of a call makes no calls and hands the answer on. -/
theorem rests_report (c : StoreCall) (a : c.Answer) :
    (SecretStore.report (S := Store) c a >>= fun _ => pure a : Program Store c.Answer).Rests
      (· = a) := by
  unfold SecretStore.report
  split
  · split
    · rfl
    · rfl
  · rfl

/-- Reports do not disturb a transaction. -/
theorem transacts_serve {p : Program Store α} (hp : p.Transacts P opened closed) :
    (p.serve SecretStore.reported).Transacts P opened closed := by
  induction p with
  | done a => exact hp
  | ask r k ih =>
    cases r with
    | call c =>
      intro m hm
      have hreply := rests_report c (answer c m).1
      rcases hp m hm with ⟨hsame, hk⟩ | ⟨hP, hk⟩
      · exact Or.inl ⟨hsame, transacts_bind_of_rests hreply fun a ha => ha ▸ ih _ hk⟩
      · exact Or.inr ⟨hP, rests_bind hreply fun a ha => ha ▸ rests_serve hk⟩
    | log e => exact ih _ hp
    | configureLog l f => exact fun reply => ih reply (hp reply)
    | pause s => exact ih _ hp
    | currentId => exact fun reply => ih reply (hp reply)
    | setId id => exact ih _ hp
    | drawId => exact fun reply => ih reply (hp reply)

end Sequence

section Moves

variable {P : SecretStore → Prop} {opened closed : α → Prop} {p : Program Store α}

/-- One move of a transacting program: nothing happens to the store, or it was the last call. -/
theorem advance_of_transacts (hp : p.Transacts P opened closed) {m : SecretStore} (hm : m.IsKept)
    (w : Surroundings) :
    ((p.advance answer w m).2 = m ∧ (p.advance answer w m).1.Transacts P opened closed) ∨
      (p.isCalling = true ∧ P (p.advance answer w m).2 ∧
        (p.advance answer w m).1.Rests closed) := by
  cases p with
  | done a => exact Or.inl ⟨rfl, hp⟩
  | ask r k =>
    cases r with
    | call c =>
      rcases hp m hm with ⟨hsame, hk⟩ | ⟨hP, hk⟩
      · exact Or.inl ⟨hsame, hk⟩
      · exact Or.inr ⟨rfl, hP, hk⟩
    | log e => exact Or.inl ⟨rfl, hp⟩
    | configureLog l f => exact Or.inl ⟨rfl, hp _⟩
    | pause s => exact Or.inl ⟨rfl, hp⟩
    | currentId => exact Or.inl ⟨rfl, hp _⟩
    | setId id => exact Or.inl ⟨rfl, hp⟩
    | drawId => exact Or.inl ⟨rfl, hp _⟩

/-- One move of a program that makes no more calls. -/
theorem advance_of_rests (hp : p.Rests closed) (m : SecretStore) (w : Surroundings) :
    p.isCalling = false ∧ (p.advance answer w m).2 = m ∧
      (p.advance answer w m).1.Rests closed := by
  cases p with
  | done a => exact ⟨rfl, rfl, hp⟩
  | ask r k =>
    cases r with
    | call c => exact hp.elim
    | log e => exact ⟨rfl, rfl, hp⟩
    | configureLog l f => exact ⟨rfl, rfl, hp _⟩
    | pause s => exact ⟨rfl, rfl, hp⟩
    | currentId => exact ⟨rfl, rfl, hp _⟩
    | setId id => exact ⟨rfl, rfl, hp⟩
    | drawId => exact ⟨rfl, rfl, hp _⟩

/-- A program that makes no calls may stand in front of one that ensures something. -/
theorem ensures_bind_of_rests {h : (c : S.Call) → σ → S.Answer c × σ} {p : Program S α}
    {f : α → Program S β} {closed : α → Prop} {s : σ} {Q : β → σ → Prop} (hp : p.Rests closed)
    (hf : ∀ a, closed a → (f a).Ensures h s Q) : (p >>= f).Ensures h s Q := by
  induction p with
  | done a => exact hf a hp
  | ask r k ih =>
    cases r with
    | call c => exact hp.elim
    | log e => exact ih _ hp
    | configureLog l f => exact fun reply => ih reply (hp reply)
    | pause x => exact ih _ hp
    | currentId => exact fun reply => ih reply (hp reply)
    | setId id => exact ih _ hp
    | drawId => exact fun reply => ih reply (hp reply)

/-- A program that is left alone ends as its run does. -/
theorem exists_advances {h : (c : S.Call) → σ → S.Answer c × σ} (p : Program S α)
    (w : Surroundings) (s : σ) :
    ∃ ws : List Surroundings,
      ws.foldl (fun (q : Program S α × σ) w => q.1.advance h w q.2) (p, s) =
        (.done (p.run h w s).1, (p.run h w s).2.2) := by
  induction p generalizing w s with
  | done a => exact ⟨[], rfl⟩
  | ask r k ih =>
    cases r with
    | call c =>
      obtain ⟨ws, hws⟩ := ih (h c s).1 w (h c s).2
      exact ⟨w :: ws, hws⟩
    | log e =>
      obtain ⟨ws, hws⟩ := ih () { w with session := w.session.emit e } s
      exact ⟨w :: ws, hws⟩
    | configureLog l f =>
      obtain ⟨ws, hws⟩ := ih (w.configureLog l f).1 (w.configureLog l f).2 s
      exact ⟨w :: ws, hws⟩
    | pause x =>
      obtain ⟨ws, hws⟩ := ih () { w with pauses := w.pauses ++ [x] } s
      exact ⟨w :: ws, hws⟩
    | currentId =>
      obtain ⟨ws, hws⟩ := ih w.session.reconcileId w s
      exact ⟨w :: ws, hws⟩
    | setId id =>
      obtain ⟨ws, hws⟩ := ih () (w.withId id) s
      exact ⟨w :: ws, hws⟩
    | drawId =>
      obtain ⟨ws, hws⟩ := ih w.session.drawId.1 { w with session := w.session.drawId.2 } s
      exact ⟨w :: ws, hws⟩

end Moves

end Program

/-- The outcome is a failure. -/
def Failed {α : Type} (r : Except Raised α) : Prop := ∃ e, r = .error e

/-- The outcome is a result. -/
def Succeeded {α : Type} (r : Except Raised α) : Prop := ∃ a, r = .ok a

/-- An edit of one alias, between a loading and a saving of the index. -/
structure EditPass where
  edit : Edit
  cluster : Cluster
  attempts : Int

namespace EditPass

/-- Loads the index, edits it and saves it. -/
def action [Json.Nesting] (p : EditPass) : Action Store Unit := do
  let x ← KeyIndex.load p.cluster
  let y ← Action.ofExcept ((p.edit.apply x).mapError Raised.ofIndex)
  y.save p.cluster p.attempts

/-- The pass over a store in memory, with its reports. -/
def program [Json.Nesting] (p : EditPass) : Program Store (Except Raised Unit) :=
  p.action.run.serve SecretStore.reported

/-- The index that was loaded is accepted by the edit, and the edited one stands in the store. -/
def Brings (p : EditPass) (x : KeyIndex) (m : SecretStore) : Prop :=
  ∃ y, p.edit.apply x = .ok y ∧ y.Stands p.cluster m

end EditPass

section Saving

/-- A Secret with the expected labels, annotations and data is stored. -/
def Secret.IsCarried (desired : Secret) (m : SecretStore) : Prop :=
  ∃ s, m.secrets.get? (SecretStore.keyOf desired) = some s ∧ desired.Carries s

theorem isCarried_of_insert {desired s : Secret} {m m' : SecretStore}
    (hkey : SecretStore.keyOf s = SecretStore.keyOf desired) (hs : desired.Carries s)
    (h : m'.secrets = m.secrets.insert (SecretStore.keyOf s) s) : desired.IsCarried m' := by
  refine ⟨s, ?_, hs⟩
  rw [h, Table.get?_insert, if_pos hkey]

/-- A new Secret is stored, or the store is as it was. -/
theorem create_cases (desired : Secret) (m : SecretStore) :
    (∃ e, m.create desired = (.error e, m)) ∨
      ∃ s m', m.create desired = (.ok s, m') ∧ desired.IsCarried m' := by
  cases hs : m.secrets.get? (SecretStore.keyOf desired) with
  | some s => exact Or.inl ⟨_, SecretStore.create_of_some hs⟩
  | none =>
    obtain ⟨m', hcreate, hsecrets⟩ := SecretStore.create_eq hs
    refine Or.inr ⟨m.newborn desired, m', hcreate, ?_⟩
    exact isCarried_of_insert (s := m.newborn desired) rfl (desired.carries_self _ _) hsecrets

/-- What was put over a Secret that had been read is stored, or the store is as it was. -/
theorem update_cases {desired stored : Secret}
    (hkey : SecretStore.keyOf stored = SecretStore.keyOf desired) (m : SecretStore) :
    (∃ e, m.update (desired.overlay stored) = (.error e, m)) ∨
      ∃ s m', m.update (desired.overlay stored) = (.ok s, m') ∧ desired.IsCarried m' := by
  rw [SecretStore.update]
  split
  · exact Or.inl ⟨_, rfl⟩
  · next current _ =>
    split
    · refine Or.inr ⟨m.successor current (desired.overlay stored), _, rfl, ?_⟩
      exact isCarried_of_insert (s := m.successor current (desired.overlay stored)) hkey
        (desired.carries_overlay stored _ _) rfl
    · exact Or.inl ⟨_, rfl⟩

theorem transacts_attempt (desired : Secret) :
    (Convergence.attempt desired).run.Transacts desired.IsCarried Failed Succeeded := by
  intro m hm
  cases hs : m.secrets.get? (SecretStore.keyOf desired) with
  | none =>
    refine Or.inl ⟨rfl, ?_⟩
    simp only [answer, SecretStore.get_of_none hs]
    intro m' _
    simp only [answer]
    rcases create_cases desired m' with ⟨e, he⟩ | ⟨s, m'', he, hcarried⟩
    · rw [he]
      exact Or.inl ⟨rfl, e, rfl⟩
    · rw [he]
      exact Or.inr ⟨hcarried, s, rfl⟩
  | some stored =>
    by_cases hold : desired.outdated stored = true
    · refine Or.inl ⟨rfl, ?_⟩
      simp only [answer, SecretStore.get_of_some hs, Program.bind, hold, if_true]
      intro m' _
      simp only [answer]
      rcases update_cases (hm _ _ hs) m' with ⟨e, he⟩ | ⟨s, m'', he, hcarried⟩
      · rw [he]
        exact Or.inl ⟨rfl, e, rfl⟩
      · rw [he]
        exact Or.inr ⟨hcarried, s, rfl⟩
    · refine Or.inr ⟨⟨stored, hs, Secret.carries_of_not_outdated (Bool.eq_false_iff.2 hold)⟩, ?_⟩
      simp only [answer, SecretStore.get_of_some hs, Program.bind, hold]
      exact ⟨stored, rfl⟩

/-- Only attempts that failed are made again, and these have left the store as it was. -/
theorem transacts_retrying {α : Type} {again : Raised → Bool} {wait : Nat → Binary64}
    {body : Action Store α} {P : SecretStore → Prop}
    (hb : body.run.Transacts P Failed Succeeded) (more n : Nat) :
    (Action.retrying again wait body more n).run.Transacts P Failed Succeeded := by
  induction more generalizing n with
  | zero => exact hb
  | succ more ih =>
    refine Program.transacts_bind hb ?_ ?_
    · rintro r ⟨e, rfl⟩
      cases hagain : again e with
      | true =>
        simp only [hagain, if_true]
        exact ih (n + 1)
      | false =>
        simp only [hagain]
        exact ⟨e, rfl⟩
    · rintro r ⟨a, rfl⟩
      exact ⟨a, rfl⟩

/-- One action after another, the first of them transacting and the second without calls. -/
theorem transacts_action_bind {α β : Type} {x : Action Store α} {f : α → Action Store β}
    {P : SecretStore → Prop} (hx : x.run.Transacts P Failed Succeeded)
    (hf : ∀ a, (f a).run.Rests Succeeded) : (x >>= f).run.Transacts P Failed Succeeded := by
  have hrun : (x >>= f).run = x.run >>= ExceptT.bindCont f := rfl
  rw [hrun]
  refine Program.transacts_bind hx ?_ ?_
  · rintro r ⟨e, rfl⟩
    exact ⟨e, rfl⟩
  · rintro r ⟨a, rfl⟩
    exact hf a

/-- A known outcome in front of an action: a failure ends both. -/
theorem transacts_ofExcept_bind {α β : Type} {o : Except Raised α} {f : α → Action Store β}
    {P : SecretStore → Prop} (hf : ∀ a, o = .ok a → (f a).run.Transacts P Failed Succeeded) :
    (Action.ofExcept o >>= f).run.Transacts P Failed Succeeded := by
  cases o with
  | error e => exact ⟨e, rfl⟩
  | ok a => exact hf a rfl

theorem transacts_converge (expected : Secret) (owner : Option OwnerReference) (attempts : Int) :
    (converge expected owner attempts).run.Transacts (expected.desired owner).IsCarried Failed
      Succeeded :=
  transacts_retrying (transacts_attempt (expected.desired owner)) _ _

theorem transacts_mono {α : Type} {P P' : SecretStore → Prop} {opened closed : α → Prop}
    (hP : ∀ m, P m → P' m) {p : Program Store α} (hp : p.Transacts P opened closed) :
    p.Transacts P' opened closed := by
  induction p with
  | done a => exact hp
  | ask r k ih =>
    cases r with
    | call c =>
      intro m hm
      rcases hp m hm with ⟨hsame, hk⟩ | ⟨hdone, hk⟩
      · exact Or.inl ⟨hsame, ih _ hk⟩
      · exact Or.inr ⟨hP _ hdone, hk⟩
    | log e => exact ih _ hp
    | configureLog l f => exact fun reply => ih reply (hp reply)
    | pause s => exact ih _ hp
    | currentId => exact fun reply => ih reply (hp reply)
    | setId id => exact ih _ hp
    | drawId => exact fun reply => ih reply (hp reply)

theorem transacts_store {x : KeyIndex} (hx : x.IsNamed) (hne : x.isEmpty = false)
    (cluster : Cluster) (attempts : Int) :
    (x.store cluster attempts).run.Transacts (x.Stands cluster) Failed Succeeded := by
  refine transacts_ofExcept_bind fun expected hs => ?_
  obtain ⟨hkey, hholds⟩ := KeyIndex.holds_toSecret hx hs
  refine transacts_action_bind (transacts_mono ?_ (transacts_converge expected _ attempts))
    fun _ => ⟨(), rfl⟩
  rintro m ⟨s, hs, hcarries⟩
  rw [KeyIndex.Stands, hne, if_neg Bool.false_ne_true, ← hkey]
  exact ⟨s, hs, KeyIndex.holds_of_carries hholds (Secret.carries_of_desired hcarries)⟩

/-- A Secret that is deleted, or was gone already, leaves none behind; another one that has taken
its place stays. -/
theorem transacts_discard (cluster : Cluster) :
    (KeyIndex.discard cluster).run.Transacts
      (fun m => m.secrets.get? cluster.secretKey = none) Failed Succeeded := by
  intro m _
  cases hs : m.secrets.get? cluster.secretKey with
  | none =>
    refine Or.inr ⟨hs, ?_⟩
    simp only [answer, SecretStore.get_of_none hs]
    exact ⟨(), rfl⟩
  | some s =>
    refine Or.inl ⟨rfl, ?_⟩
    simp only [answer, SecretStore.get_of_some hs]
    intro m' _
    cases hs' : m'.secrets.get? cluster.secretKey with
    | none =>
      have hmissing : m'.delete cluster.namespace (Naming.secretName cluster.name) (some s.uid) =
          _ := SecretStore.delete_of_none hs'
      simp only [answer, hmissing]
      refine Or.inr ⟨hs', ?_⟩
      simp only [Program.bind, SecretStore.isNotFound_missing, if_true]
      exact ⟨(), rfl⟩
    | some current =>
      by_cases huid : s.uid = current.uid
      · obtain ⟨m'', hdelete, hsecrets⟩ := SecretStore.delete_eq hs'
        rw [← huid] at hdelete
        simp only [answer, hdelete]
        refine Or.inr ⟨?_, (), rfl⟩
        rw [hsecrets]
        exact (Table.get?_erase _ _ _).trans (if_pos rfl)
      · obtain ⟨reason, hdelete⟩ := SecretStore.delete_of_uid_ne hs' huid
        refine Or.inl ⟨congrArg Prod.snd hdelete, ?_⟩
        simp only [answer, hdelete, Program.bind, SecretStore.isNotFound_clash]
        exact ⟨_, rfl⟩

/-- Saving an index is transacting, with the index standing in the store at the end. -/
theorem transacts_save {x : KeyIndex} (hx : x.IsNamed) (cluster : Cluster) (attempts : Int) :
    (x.save cluster attempts).run.Transacts (x.Stands cluster) Failed Succeeded := by
  unfold KeyIndex.save
  cases hne : x.isEmpty with
  | true =>
    rw [if_pos rfl]
    refine transacts_mono (fun m hm => ?_) (transacts_discard cluster)
    rw [KeyIndex.Stands, if_pos hne]
    exact hm
  | false =>
    rw [if_neg Bool.false_ne_true]
    exact transacts_store hx hne cluster attempts

end Saving

section Passes

/-- What is done with the Secret that was found. -/
def KeyIndex.loaded [Json.Nesting] (cluster : Cluster) (found : Except Raised Secret) :
    Program Store (Except Raised KeyIndex) :=
  match found with
  | .ok s =>
    match KeyIndex.ofSecret s with
    | .ok x => do
      KeyIndex.logAll ((KeyIndex.unknownSettings s.data).map (KeyIndex.unknownSettingEvent cluster))
      return .ok x
    | .error e => return .error e
  | .error e =>
    if e.isNotFound then do
      Program.log (.plain KeyIndex.logger Level.debug "No remote cluster API keys secret found"
        (KeyIndex.clusterFields cluster))
      return .ok .empty
    else return .error e

theorem rests_logAll (es : List Log.Event) : (KeyIndex.logAll es).Rests fun _ => True := by
  induction es with
  | nil => trivial
  | cons e es ih => exact ih

/-- After the Secret was found there is no more call, and the index is the one in the store. -/
theorem rests_loaded [Json.Nesting] (cluster : Cluster) (m : SecretStore) :
    (KeyIndex.loaded cluster (m.get cluster.namespace (Naming.secretName cluster.name))).Rests
      (· = m.indexOf cluster) := by
  unfold SecretStore.indexOf
  cases hs : m.secrets.get? cluster.secretKey with
  | none =>
    rw [SecretStore.get_of_none hs]
    simp only [KeyIndex.loaded, SecretStore.isNotFound_missing, if_true]
    rfl
  | some s =>
    rw [SecretStore.get_of_some hs]
    cases hx : KeyIndex.ofSecret s with
    | error e =>
      simp only [KeyIndex.loaded, hx]
      rfl
    | ok x =>
      simp only [KeyIndex.loaded, hx]
      exact Program.rests_bind (rests_logAll _) fun _ _ => rfl

variable (p : EditPass)

/-- The first move of a pass loads the index; whatever the others do, all that follows is one
transaction that brings the edit of this index about. -/
theorem transacts_pass [Json.Nesting] {m : SecretStore} {x : KeyIndex}
    (hx : m.indexOf p.cluster = .ok x) (w : Surroundings) :
    p.program.isCalling = true ∧ (p.program.advance answer w m).2 = m ∧
      (p.program.advance answer w m).1.Transacts (p.Brings x) Failed Succeeded := by
  refine ⟨rfl, rfl, ?_⟩
  change (((KeyIndex.loaded p.cluster
    (m.get p.cluster.namespace (Naming.secretName p.cluster.name))).bind _).serve _).Transacts _ _ _
  refine Program.transacts_serve ?_
  refine Program.transacts_bind_of_rests (rests_loaded p.cluster m) ?_
  rintro r rfl
  rw [hx]
  refine transacts_ofExcept_bind fun y hy => ?_
  have happly : p.edit.apply x = .ok y := mapError_eq_ok_iff.1 hy
  have hnamed := KeyIndex.isNamed_of_edit (SecretStore.isNamed_of_indexOf hx) happly
  exact transacts_mono (fun m' hm' => ⟨y, happly, hm'⟩) (transacts_save hnamed p.cluster p.attempts)

/-- A pass that is left alone once it has loaded the index succeeds, whatever others have stored
since. -/
theorem ensures_pass [Json.Nesting] {m m' : SecretStore} {x y : KeyIndex}
    (hx : m.indexOf p.cluster = .ok x)
    (hy : p.edit.apply x = .ok y) (henc : y.IsEncodable) (hm' : m'.IsKept) (w : Surroundings) :
    (p.program.advance answer w m).1.Ensures answer m' fun r m'' =>
      r = .ok () ∧ y.Saved p.cluster m' m'' := by
  change (((KeyIndex.loaded p.cluster
    (m.get p.cluster.namespace (Naming.secretName p.cluster.name))).bind _).serve _).Ensures _ _ _
  refine Program.ensures_serve SecretStore.ensures_reported ?_
  refine Program.ensures_bind_of_rests (rests_loaded p.cluster m) ?_
  rintro r rfl
  rw [hx]
  refine (Action.ensures_bind _ _ _ _).2 ((Action.ensures_ofExcept _ _ _).2 ?_)
  rw [hy]
  have hnamed := KeyIndex.isNamed_of_edit (SecretStore.isNamed_of_indexOf hx) hy
  exact KeyIndex.ensures_save_of_isEncodable hnamed henc p.cluster p.attempts hm'

end Passes
end CrossClusterKeys
