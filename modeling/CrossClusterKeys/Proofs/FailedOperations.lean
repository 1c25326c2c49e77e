import CrossClusterKeys.Proofs.Commands
import CrossClusterKeys.Proofs.CurrentId
import CrossClusterKeys.Proofs.PassOutcome

/-!
# Operations that fail

Saving an index, a pass and a run of the command line can fail while the key is read, while the
index is loaded, at any alias that is to be recorded and at any credential without bytes.  All of
that comes before the first write, and a write over a store that nobody else uses does not fail.

**Input.**  Any index, any expected keys and any arguments, over a store that calls of whomever
have brought about and that nobody else uses meanwhile.

**Results.**
* `ensures_save_spares`, `ensures_run_spares`, `ensures_overStore_spares`: a failure comes with the
  store as it was.
* `keepsId_save`, `keepsId_overStore`: the current ID is the same before and after.
* `failure_changes_nothing`: both for runs.
-/

namespace CrossClusterKeys

open SecretStore (answer)

/-- A failure comes with the store as it was. -/
def Spares {α : Type} (m : SecretStore) (r : Except Raised α) (m' : SecretStore) : Prop :=
  (∃ e, r = .error e) → m' = m

theorem spares_self {α : Type} (m : SecretStore) (r : Except Raised α) : Spares m r m :=
  fun _ => rfl

theorem spares_ok {α : Type} (m m' : SecretStore) (a : α) :
    Spares m (.ok a : Except Raised α) m' := by
  rintro ⟨e, he⟩
  cases he

/-- What follows an action without failing spares the store if the action does. -/
theorem ensures_spares_bind {α β : Type} {x : Action Store α} {f : α → Action Store β}
    {m : SecretStore} (hx : x.run.Ensures answer m (Spares m))
    (hf : ∀ a m', (f a).run.Ensures answer m' fun r _ => ∃ b, r = .ok b) :
    (x >>= f).run.Ensures answer m (Spares m) := by
  refine (Action.ensures_bind _ _ _ _).2 (Program.ensures_mono hx ?_)
  rintro (e | a) m' hspares
  · exact fun _ => hspares ⟨e, rfl⟩
  · refine Program.ensures_mono (hf a m') ?_
    rintro r m'' ⟨b, rfl⟩
    exact spares_ok m m'' b

namespace KeyIndex

variable {m : SecretStore}

/-- Saving fails only before anything is written. -/
theorem ensures_save_spares (hm : m.IsKept) (x : KeyIndex) (cluster : Cluster) (attempts : Int) :
    (x.save cluster attempts).run.Ensures answer m (Spares m) := by
  unfold save
  split
  · refine Program.ensures_mono (ensures_discard cluster hm) ?_
    rintro r m' ⟨rfl, -⟩
    exact spares_ok m m' ()
  · refine (Action.ensures_bind _ _ _ _).2 ((Action.ensures_ofExcept _ _ _).2 ?_)
    cases x.toSecret cluster with
    | error e => exact spares_self m _
    | ok expected =>
      refine (Action.ensures_bind _ _ _ _).2 ?_
      refine Program.ensures_mono (ensures_converge expected _ attempts hm) ?_
      rintro r m' ⟨s, rfl, -⟩
      exact spares_ok m m' ()

/-- What follows loading spares the store if it does so for whatever is loaded. -/
theorem ensures_load_spares [Json.Nesting] {β : Type} {f : KeyIndex → Action Store β}
    (cluster : Cluster) (hf : ∀ x, (f x).run.Ensures answer m (Spares m)) :
    (load cluster >>= f).run.Ensures answer m (Spares m) := by
  refine (Action.ensures_bind _ _ _ _).2 ((ensures_load cluster m _).2 ?_)
  cases m.indexOf cluster with
  | error e => exact spares_self m _
  | ok x => exact hf x

open Program (asks_bind asks_request)

theorem sparesId_attempt (desired : Secret) : (Convergence.attempt desired).run.SparesId := by
  refine asks_bind (asks_request trivial) fun r _ => ?_
  cases r with
  | ok stored =>
    cases hold : desired.outdated stored with
    | true =>
      simp only [hold, if_true]
      exact asks_bind (asks_request trivial) fun _ _ => asks_request trivial
    | false =>
      simp only [hold, Bool.false_eq_true, if_false]
      trivial
  | error e =>
    cases hmissing : e.isNotFound with
    | true =>
      simp only [hmissing, if_true]
      exact asks_bind (asks_request trivial) fun _ _ => asks_request trivial
    | false =>
      simp only [hmissing, Bool.false_eq_true, if_false]
      trivial

theorem sparesId_discard (cluster : Cluster) : (discard cluster).run.SparesId := by
  refine asks_bind (asks_request trivial) fun r _ => ?_
  cases r with
  | error e => trivial
  | ok current =>
    refine asks_bind (asks_request trivial) fun r _ => ?_
    cases r with
    | error e => trivial
    | ok u => exact asks_bind (asks_request trivial) fun _ _ => trivial

theorem sparesId_save (x : KeyIndex) (cluster : Cluster) (attempts : Int) :
    (x.save cluster attempts).run.SparesId := by
  unfold save
  split
  · exact sparesId_discard cluster
  · refine Action.asks_action_bind (Action.asks_ofExcept _) fun expected => ?_
    refine Action.asks_action_bind ?_ fun _ => trivial
    exact Action.asks_retrying (fun _ => trivial) (sparesId_attempt _) _ _

theorem keepsId_save (x : KeyIndex) (cluster : Cluster) (attempts : Int) :
    (x.save cluster attempts).run.KeepsId := (sparesId_save x cluster attempts).keepsId

end KeyIndex

/-- A pass fails only before anything is written. -/
theorem Pass.ensures_run_spares [Json.Nesting] {m : SecretStore} (hm : m.IsKept) (cluster : Cluster)
    (expected : List IssuedKey) (attempts : Int) (id : Option Text) :
    (run cluster expected attempts id).run.Ensures answer m (Spares m) := by
  refine Action.ensures_underId id _ m (KeyIndex.ensures_load_spares cluster fun x => ?_)
  refine (Action.ensures_bind _ _ _ _).2 ((Action.ensures_ofExcept _ _ _).2 ?_)
  cases (apply x expected).mapError Raised.ofIndex with
  | error e => exact spares_self m _
  | ok r =>
    refine ensures_spares_bind (KeyIndex.ensures_save_spares hm r.index cluster attempts) ?_
    exact fun _ _ => ⟨r, rfl⟩

namespace Cli

variable {m : SecretStore}

/-- A command fails only before anything is written. -/
theorem ensures_perform_spares [Json.Nesting] (hm : m.IsKept) (p : Place) (attempts : Int)
    (i : Invocation) :
    (perform p attempts i).run.Ensures answer m (Spares m) := by
  unfold perform
  cases i.command with
  | «show» => exact KeyIndex.ensures_load_spares _ fun x => spares_self m _
  | set remote keyId file =>
    refine (Action.ensures_bind _ _ _ _).2 ((Action.ensures_ofExcept _ _ _).2 ?_)
    cases (readKey p file).mapError fun f => (⟨f, []⟩ : Raised) with
    | error e => exact spares_self m _
    | ok key =>
      refine KeyIndex.ensures_load_spares _ fun x => ?_
      refine (Action.ensures_bind _ _ _ _).2 ((Action.ensures_ofExcept _ _ _).2 ?_)
      cases (KeyIndex.aliasOf remote).mapError Raised.ofIndex with
      | error e => exact spares_self m _
      | ok name =>
        refine ensures_spares_bind (KeyIndex.ensures_save_spares hm _ _ attempts) ?_
        exact fun _ _ => ⟨_, rfl⟩
  | delete remote =>
    refine KeyIndex.ensures_load_spares _ fun x => ?_
    refine (Action.ensures_bind _ _ _ _).2 ((Action.ensures_ofExcept _ _ _).2 ?_)
    cases (KeyIndex.lookupAlias remote).mapError fun f => (⟨f, []⟩ : Raised) with
    | error e => exact spares_self m _
    | ok known =>
      cases hname : known.filter x.contains with
      | none =>
        simp only [hname]
        exact spares_self m _
      | some name =>
        simp only [hname]
        refine ensures_spares_bind (KeyIndex.ensures_save_spares hm _ _ attempts) ?_
        exact fun _ _ => ⟨_, rfl⟩
  | keystore =>
    refine (Action.ensures_bind _ _ _ _).2 ?_
    refine (Program.ensures_bind _ _ _ _).2 ((Program.ensures_call _ _ _).2 ?_)
    cases hget : m.get i.cluster.namespace (Naming.secretName i.cluster.name) with
    | ok s =>
      simp only [answer, hget]
      exact spares_self m _
    | error e =>
      simp only [answer, hget]
      split
      · exact spares_self m _
      · exact spares_self m _

/-- A run that ends otherwise than with the code 0 has written nothing. -/
def SparesRun (m : SecretStore) (o : Ending) (m' : SecretStore) : Prop :=
  (∀ out, o = .ok out → out.code ≠ 0) → m' = m

theorem ensures_work_spares [Json.Nesting] (hm : m.IsKept) (r : Ready) :
    (work r).Ensures answer m (SparesRun m) := by
  refine Program.ensures_mono
    (Registry.ensures_work (ensures_perform_spares hm r.place r.settings.attempts r.invocation)) ?_
  rintro o m' ⟨e | output, rfl, hspares⟩ hcode
  · exact hspares ⟨e, rfl⟩
  · exact absurd rfl (hcode _ rfl)

/-- What comes before the command does not touch the store. -/
theorem ensures_start (arguments : List Text) (p : Place) :
    (start (S := Store) arguments p).Ensures answer m fun _ m' => m' = m := by
  unfold start
  cases Invocation.read arguments with
  | error stop => exact rfl
  | ok i =>
    cases hsettings : Settings.read p.environment p.files with
    | error f => exact rfl
    | ok s =>
      refine (Program.ensures_bind _ _ _ _).2 fun reply => ?_
      cases reply with
      | error f => exact rfl
      | ok u => exact rfl

theorem ensures_overStore_spares [Json.Nesting] (hm : m.IsKept) (arguments : List Text)
    (p : Place) :
    (overStore arguments p).Ensures answer m (SparesRun m) := by
  refine (Program.ensures_bind _ _ _ _).2 (Program.ensures_mono (ensures_start arguments p) ?_)
  rintro (e | r) m' rfl
  · exact fun _ => rfl
  · exact ensures_work_spares hm r

open Program (keepsId_bind keepsId_call keepsId_configureLog keepsId_pure)

theorem keepsId_start (arguments : List Text) (p : Place) :
    (start (S := Store) arguments p).KeepsId := by
  unfold start
  cases Invocation.read arguments with
  | error stop => exact keepsId_pure _
  | ok i =>
    cases hsettings : Settings.read p.environment p.files with
    | error f => exact keepsId_pure _
    | ok s =>
      refine keepsId_bind (keepsId_configureLog _ _) fun reply => ?_
      cases reply with
      | error f => exact keepsId_pure _
      | ok u => exact keepsId_pure _

theorem keepsId_overStore [Json.Nesting] (arguments : List Text) (p : Place) :
    (overStore arguments p).KeepsId := by
  refine keepsId_bind (keepsId_start arguments p) fun r => ?_
  cases r with
  | error e => exact keepsId_pure _
  | ok r =>
    refine keepsId_bind (Action.keepsId_underId _ _) fun printed => ?_
    refine keepsId_bind (keepsId_call (S := Store) _) fun closed => ?_
    cases closed with
    | error e => exact keepsId_pure _
    | ok u =>
      cases printed with
      | error e => exact keepsId_pure _
      | ok output => exact keepsId_pure _

end Cli

/-- A run has left the current ID as it was, and if it failed the store, too. -/
def LeavesAll {α : Type} (failed : α → Prop) (w : Surroundings) (m : SecretStore)
    (out : α × Surroundings × SecretStore) : Prop :=
  (failed out.1 → out.2.2 = m) ∧ out.2.1.session.reconcileId = w.session.reconcileId

/-- Saving an index, a pass and a run of the command line leave the current ID as it was.  If they
fail, or end with another code than 0, every Secret is as it was, with its UID and version. -/
theorem failure_changes_nothing [Json.Nesting] (uids : Nat → Text) (calls : List StoreCall)
    (w : Surroundings) :
    let m := (SecretStore.empty uids).after calls
    (∀ (x : KeyIndex) (cluster : Cluster) (attempts : Int),
      LeavesAll (fun r => ∃ e, r = .error e) w m
        (SecretStore.run (x.save cluster attempts).run w m)) ∧
      (∀ (cluster : Cluster) (expected : List IssuedKey) (attempts : Int) (id : Option Text),
        LeavesAll (fun r => ∃ e, r = .error e) w m
          (SecretStore.run (Pass.run cluster expected attempts id).run w m)) ∧
      ∀ (arguments : List Text) (p : Cli.Place),
        LeavesAll (fun o => ∀ out, o = .ok out → out.code ≠ 0) w m
          (SecretStore.run (Cli.overStore arguments p) w m) := by
  intro m
  have hm : m.IsKept := SecretStore.isKept_after uids calls
  refine ⟨fun x cluster attempts => ⟨?_, ?_⟩, fun cluster expected attempts id => ⟨?_, ?_⟩,
    fun arguments p => ⟨?_, ?_⟩⟩
  · exact SecretStore.run_of_ensures (KeyIndex.ensures_save_spares hm x cluster attempts) w
  · exact SecretStore.reconcileId_run (KeyIndex.keepsId_save x cluster attempts) w m
  · exact SecretStore.run_of_ensures (Pass.ensures_run_spares hm cluster expected attempts id) w
  · exact SecretStore.reconcileId_run (Action.keepsId_underId _ _) w m
  · exact SecretStore.run_of_ensures (Cli.ensures_overStore_spares hm arguments p) w
  · exact SecretStore.reconcileId_run (Cli.keepsId_overStore arguments p) w m

/-- A credential without bytes behind one with bytes, an alias that cannot be recorded behind one
that is removed and one that is added, and a dotted alias on the command line. -/
theorem failure_changes_nothing_late :
    let cluster : Cluster := ⟨"es", "ns", "uid", [], "v1", "Elasticsearch"⟩
    let m := (SecretStore.empty fun _ => "uid-1").after [.create Pass.orphanedSecret]
    let index : KeyIndex := ⟨.ofList [("a", "k")], .ofList [("a", "x"), ("b", [.ofNat 0xD800])]⟩
    let expected : List IssuedKey := [⟨"a", "k1", "x"⟩, ⟨"b.c", "k2", "y"⟩]
    let save := SecretStore.run (index.save cluster 3).run .bare m
    let pass := SecretStore.run (Pass.run cluster expected 3 none).run .bare m
    let set := SecretStore.run (Cli.overStore
      ["set", "ns", "es", "b.c", "k2", "--encoded-file", "-"] ⟨.empty, ⟨.empty⟩, "y"⟩) .bare m
    ((∃ e, save.1 = .error e) ∧ save.2.2 = m) ∧ ((∃ e, pass.1 = .error e) ∧ pass.2.2 = m) ∧
      set.1.toOption.map Cli.Outcome.code = some 1 ∧ set.2.2 = m := by
  intro cluster m index expected save pass set
  obtain ⟨hsave, hpass, hrun⟩ :=
    failure_changes_nothing (fun _ => "uid-1") [.create Pass.orphanedSecret] .bare
  have hunsaved : ∃ e, save.1 = .error e := ⟨_, rfl⟩
  have hrefused : ∃ e, pass.1 = .error e := by
    obtain ⟨x, hx, -⟩ := Pass.indexOf_orphanedSecret
    rcases SecretStore.run_of_ensures (Pass.ensures_run cluster expected 3 none
      (SecretStore.isKept_after _ _) hx) .bare with ⟨r, -, happly, -⟩ | ⟨hfails, -⟩
    · -- The index that would be saved has a credential of the dotted alias.
      have hnamed := Pass.isNamed_of_apply happly (SecretStore.isNamed_of_indexOf hx)
      have hlast : Pass.expectedFor expected "b.c" = some ⟨"b.c", "k2", "y"⟩ := by decide
      have hfound : r.index.keys.get? "b.c" = some ("y" : Text) :=
        (Pass.get?_of_expected happly hlast).2
      exact absurd (hnamed "b.c" "y" hfound) (by decide)
    · exact hfails
  have hcode : set.1.toOption.map Cli.Outcome.code = some 1 := by decide +kernel
  refine ⟨⟨hunsaved, (hsave index cluster 3).1 hunsaved⟩,
    ⟨hrefused, (hpass cluster expected 3 none).1 hrefused⟩, hcode, (hrun _ _).1 ?_⟩
  intro out hout hzero
  rw [toOption_eq_some_iff.2 hout, Option.map_some, hzero] at hcode
  cases hcode

end CrossClusterKeys
