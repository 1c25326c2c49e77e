import CrossClusterKeys.Log.Scope
import CrossClusterKeys.Proofs.CallProtocol
import CrossClusterKeys.Proofs.ClientRequests
import CrossClusterKeys.Proofs.FailedOperations
import CrossClusterKeys.Proofs.StampedLines

/-!
# Programs over any store

A program over a resource store does not say how the store is kept.  A backing is a client that
answers the calls of the store by calls of its own, with what answers these.  The store in memory
and the store behind the API server are two of them.

**Results.**
* `run_memory`: over the store in memory, running a program is what it was already.
* `run_underId`: what an action under an ID of its own does.
* `run_of_sparesId`: a program that spares the ID keeps it over every backing and stamps it on all
  of its lines.
* `sparesId_body`: what a pass does under its ID spares that ID.
-/

namespace CrossClusterKeys

/-- What a resource store is kept in: a client with a state of its own that answers the calls of
the store by calls of its own, and what these are answered from. -/
structure Backing where
  service : Service
  Client : Type
  World : Type
  answer : (c : StoreCall) → Client → Program service (c.Answer × Client)
  reply : (c : service.Call) → World → service.Answer c × World
  /-- No answer sets a reconcile ID. -/
  spares : ∀ c t, (answer c t).SparesId

namespace Backing

/-- The state of the client and what it calls upon. -/
abbrev State (B : Backing) : Type := B.Client × B.World

/-- A program over the store. -/
def run {α : Type} (B : Backing) (p : Program Store α) (w : Surroundings) (x : B.State) :
    α × Surroundings × B.State :=
  let out := (p.serveWith B.answer x.1).run B.reply w x.2
  (out.1.1, out.2.1, out.1.2, out.2.2)

/-- The store in memory, which calls upon nothing. -/
def memory : Backing where
  service := ⟨Empty, fun _ => Unit⟩
  Client := SecretStore
  World := Unit
  answer := SecretStore.respond
  reply := fun c => nomatch c
  spares := fun c _ =>
    Program.asks_bind (SecretStore.asks_report (fun _ => trivial) c _) fun _ _ => trivial

/-- The surroundings after a call was reported. -/
def afterReport (w : Surroundings) (c : StoreCall) (a : c.Answer) : Surroundings :=
  match SecretStore.report? c with
  | some e => if c.succeeded a then { w with session := w.session.emit e } else w
  | none => w

theorem run_report {S : Service} {σ : Type} (h : (c : S.Call) → σ → S.Answer c × σ)
    (c : StoreCall) (a : c.Answer) (w : Surroundings) (x : σ) :
    (SecretStore.report c a : Program S Unit).run h w x = ((), afterReport w c a, x) := by
  cases hreport : SecretStore.report? c with
  | none =>
    simp only [SecretStore.report, afterReport, hreport]
    rfl
  | some e =>
    cases hsucceeded : c.succeeded a with
    | true =>
      simp only [SecretStore.report, afterReport, hreport, hsucceeded, if_true]
      rfl
    | false =>
      simp only [SecretStore.report, afterReport, hreport, hsucceeded, Bool.false_eq_true, if_false]
      rfl

theorem run_respond {S : Service} {σ : Type} (h : (c : S.Call) → σ → S.Answer c × σ)
    (c : StoreCall) (m : SecretStore) (w : Surroundings) (x : σ) :
    (SecretStore.respond c m : Program S _).run h w x =
      (SecretStore.answer c m, afterReport w c (SecretStore.answer c m).1, x) := by
  refine (Program.run_bind h _ _ w x).trans ?_
  rw [run_report]
  rfl

/-- A call is answered by the client, whose own calls are answered in turn. -/
theorem run_call (B : Backing) {α : Type} (c : StoreCall) (k : c.Answer → Program Store α)
    (w : Surroundings) (x : B.State) :
    let out := (B.answer c x.1).run B.reply w x.2
    B.run (.ask (.call c) k) w x = B.run (k out.1.1) out.2.1 (out.1.2, out.2.2) := by
  have hbind := Program.run_bind B.reply (B.answer c x.1)
    (fun reply => (k reply.1).serveWith B.answer reply.2) w x.2
  exact congrArg (fun out => (out.1.1, out.2.1, out.1.2, out.2.2)) hbind

end Backing

namespace SecretStore

open Backing (afterReport run_report run_respond)

theorem run_reported (c : StoreCall) (w : Surroundings) (m : SecretStore) :
    (reported c).run answer w m = ((answer c m).1, afterReport w c (answer c m).1, (answer c m).2) := by
  have hreport := run_report (S := Store) answer c (answer c m).1 w (answer c m).2
  have hbind := Program.run_bind (S := Store) answer (report c (answer c m).1)
    (fun _ => pure (answer c m).1) w (answer c m).2
  rw [hreport] at hbind
  exact hbind

/-- A call is answered from the table and reported. -/
theorem run_call {α : Type} (c : StoreCall) (k : c.Answer → Program Store α) (w : Surroundings)
    (m : SecretStore) :
    SecretStore.run (.ask (.call c) k) w m =
      SecretStore.run (k (answer c m).1) (afterReport w c (answer c m).1) (answer c m).2 := by
  have hreported := run_reported c w m
  have hbind := Program.run_bind (S := Store) answer (reported c)
    (fun reply => (k reply).serve reported) w m
  rw [hreported] at hbind
  exact hbind

end SecretStore

namespace Backing

/-- Over the store in memory, running a program is what it was already. -/
theorem run_memory {α : Type} (p : Program Store α) (w : Surroundings) (m : SecretStore) :
    memory.run p w (m, ()) =
      ((SecretStore.run p w m).1, (SecretStore.run p w m).2.1, (SecretStore.run p w m).2.2, ()) := by
  induction p generalizing w m with
  | done a => rfl
  | ask r k ih =>
    cases r with
    | call c =>
      have hresponded : (memory.answer c m).run memory.reply w () = _ :=
        run_respond (S := memory.service) memory.reply c m w ()
      have hcall := run_call memory c k w (m, ())
      simp only [hresponded] at hcall
      refine hcall.trans ((ih _ _ _).trans ?_)
      rw [SecretStore.run_call c k w m]
    | log e => exact ih _ _ m
    | configureLog l f => exact ih _ _ m
    | pause d => exact ih _ _ m
    | currentId => exact ih _ _ m
    | setId id => exact ih _ _ m
    | drawId => exact ih _ _ m

end Backing

/-- What a client may ask for does not set an ID. -/
theorem ApiServer.Client.sparesId_of_mayAsk {timeout : Binary64} {r : Request ApiServer}
    (h : MayAsk timeout r) : r.SparesId := by
  cases r with
  | setId id => exact h.elim
  | _ => trivial

namespace Backing

/-- The store behind the API server, which may answer the client's calls in any way. -/
def apiServer {σ : Type} (reply : (c : ApiServer.Call) → σ → c.Answer × σ) : Backing where
  service := ApiServer
  Client := ApiServer.Client
  World := σ
  answer := ApiServer.Client.answer
  reply := reply
  spares := fun call c => Program.asks_mono (c.asks_answer call)
    (fun _ => ApiServer.Client.sparesId_of_mayAsk) fun _ _ => trivial

section Running

variable {α β : Type} (B : Backing) (w : Surroundings) (x : B.State)

theorem run_bind (p : Program Store α) (f : α → Program Store β) :
    B.run (p >>= f) w x =
      B.run (f (B.run p w x).1) (B.run p w x).2.1 (B.run p w x).2.2 := by
  have hserved := Program.serveWith_bind B.answer p f x.1
  have hbind := Program.run_bind B.reply (p.serveWith B.answer x.1)
    (fun out => (f out.1).serveWith B.answer out.2) w x.2
  unfold run
  rw [hserved]
  exact congrArg (fun out => (out.1.1, out.2.1, out.1.2, out.2.2)) hbind

/-- A program that spares the ID does so over every backing. -/
theorem sparesId_serveWith {p : Program Store α} (hp : p.SparesId) (t : B.Client) :
    (p.serveWith B.answer t).SparesId := by
  refine Program.asks_mono (Program.asks_serveWith (I := Anything) (fun c t _ _ => B.spares c t) ?_ hp
    trivial) (fun _ h => h) fun _ _ => trivial
  intro r r' hr hspares
  cases r <;> cases hr <;> exact hspares

/-- A program that spares the ID keeps it and stamps it on all of its lines. -/
theorem run_of_sparesId {p : Program Store α} (hp : p.SparesId) :
    w.session.Adds w.session.reconcileId (B.run p w x).2.1.session ∧
      (B.run p w x).2.1.session.reconcileId = w.session.reconcileId :=
  Program.run_of_sparesId B.reply (sparesId_serveWith B hp x.1) w x.2

theorem ids_run (p : Program Store α) : (B.run p w x).2.1.session.ids = w.session.ids :=
  Program.ids_run B.reply _ w x.2

/-- An action under an ID of its own runs after that ID became the current one, and then the ID of
before is the current one again. -/
theorem run_underId (id : Option Text) (body : Action Store α) :
    let own := Log.Scopes.idFor w.session id
    let inner := B.run body.run { w with session := { own.2 with reconcileId := some own.1 } } x
    B.run (Action.underId id body).run w x =
      (inner.1, inner.2.1.withId w.session.reconcileId, inner.2.2) := by
  have hrest : ∀ (own : Text) (v : Surroundings), v.session.reconcileId = w.session.reconcileId →
      B.run (do
        let before ← Program.currentId
        Program.setId (some own)
        let outcome ← body.run
        Program.setId before
        return outcome : Program Store (Except Raised α)) v x =
      let inner := B.run body.run (v.withId (some own)) x
      (inner.1, inner.2.1.withId w.session.reconcileId, inner.2.2) := by
    intro own v hbefore
    rw [← hbefore]
    exact B.run_bind (v.withId (some own)) x body.run _
  cases id with
  | none => exact hrest _ { w with session := w.session.drawId.2 } rfl
  | some t =>
    cases t with
    | nil => exact hrest _ { w with session := w.session.drawId.2 } rfl
    | cons c t => exact hrest (c :: t) w rfl

end Running

end Backing

/-- Writing several events spares the ID. -/
theorem KeyIndex.sparesId_logAll (events : List Log.Event) : (logAll events).SparesId := by
  induction events with
  | nil => trivial
  | cons e events ih => exact Program.asks_bind (Program.asks_request trivial) fun _ _ => ih

theorem KeyIndex.sparesId_load [Json.Nesting] (cluster : Cluster) :
    (load cluster).run.SparesId := by
  refine Program.asks_bind (Program.asks_request trivial) fun r _ => ?_
  cases r with
  | ok s =>
    cases hindex : ofSecret s with
    | ok x =>
      simp only [hindex]
      exact Program.asks_bind (sparesId_logAll _) fun _ _ => trivial
    | error e =>
      simp only [hindex]
      trivial
  | error e =>
    cases hmissing : e.isNotFound with
    | true =>
      simp only [hmissing, if_true]
      exact Program.asks_bind (Program.asks_request trivial) fun _ _ => trivial
    | false =>
      simp only [hmissing, Bool.false_eq_true, if_false]
      trivial

/-- What a pass does under its ID spares that ID. -/
theorem Pass.sparesId_body [Json.Nesting] (cluster : Cluster) (expected : List IssuedKey)
    (attempts : Int) :
    (body cluster expected attempts).run.SparesId := by
  refine Action.asks_action_bind (KeyIndex.sparesId_load cluster) fun x => ?_
  refine Action.asks_action_bind (Action.asks_ofExcept _) fun r => ?_
  refine Action.asks_action_bind (KeyIndex.sparesId_save r.index cluster attempts) fun _ => ?_
  exact Action.asks_action_bind (Program.asks_request trivial) fun _ => trivial

end CrossClusterKeys
