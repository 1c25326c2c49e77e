import CrossClusterKeys.Cli
import CrossClusterKeys.Proofs.RenamedCredentials

/-!
# Credentials do not flow into anything shown

Every operation that handles credentials is in lockstep with itself over renamed credentials: it
writes the same events to the log, waits as long, makes calls that correspond and ends alike.

**Input.**  Stores that correspond, expected keys and their images, and two places of which one has
the key in the file renamed.

**Results.**
* `lockstep_converge`, `lockstep_save`, `lockstep_load`: the operations on Secrets.
* `lockstep_pass`, `lockstep_overStore`: a pass and a run of the command line.
* `credentials_unseen`: what is seen of two runs.
-/

namespace CrossClusterKeys
namespace Renaming

variable {ρ : Renaming} {secretKey : Text × Text}

section Reports

theorem report?_eq {c c' : StoreCall} (hc : ρ.Calls secretKey c c') :
    SecretStore.report? c' = SecretStore.report? c := by
  cases hc with
  | create hs | update hs =>
    exact congrArg (fun resource => some (SecretStore.writeEvent _ resource)) hs.namespacedName_eq
  | get | delete | close => rfl

theorem succeeded_eq {c c' : StoreCall} (hc : ρ.Calls secretKey c c') {a : c.Answer}
    {a' : c'.Answer} (ha : ρ.Answers secretKey c c' a a') : c'.succeeded a' = c.succeeded a := by
  cases hc with
  | get | create | update | delete | close =>
    cases ha with
    | error e => rfl
    | ok h => rfl

/-- Calls that correspond are reported alike. -/
theorem lockstep_reported {c c' : StoreCall} (hc : ρ.Calls secretKey c c') :
    Lockstep (ρ.coupling secretKey) (ρ.coupling secretKey).answers (SecretStore.reported c)
      (SecretStore.reported c') := by
  refine Lockstep.bind (Lockstep.call_answers hc) fun a a' ha => ?_
  have hreport : Lockstep (ρ.coupling secretKey) Eq (SecretStore.report c a)
      (SecretStore.report c' a') := by
    unfold SecretStore.report
    rw [report?_eq hc, succeeded_eq hc ha]
    split
    · split
      · exact .log _
      · exact .done rfl
    · exact .done rfl
  exact Lockstep.bind hreport fun _ _ _ => .done ha

end Reports

section Saving

theorem lockstep_getSecret {s s' : Secret} (h : ρ.SecretsAt secretKey s s') :
    Lockstep (ρ.coupling secretKey) (Agree (ρ.SecretsAt secretKey))
      (Store.getSecret s.namespace s.name).run (Store.getSecret s'.namespace s'.name).run := by
  obtain ⟨rfl, ⟨-⟩⟩ := h
  exact Lockstep.call_answers (K := ρ.coupling _) .get

theorem lockstep_attempt {desired desired' : Secret} (h : ρ.SecretsAt secretKey desired desired') :
    Lockstep (ρ.coupling secretKey) (Agree (ρ.SecretsAt secretKey))
      (Convergence.attempt desired).run (Convergence.attempt desired').run := by
  refine Lockstep.bind (lockstep_getSecret h) fun a a' ha => ?_
  have hlog : ∀ what : Text, Convergence.announcement what desired' =
      Convergence.announcement what desired := by
    intro what
    unfold Convergence.announcement
    rw [h.namespacedName_eq]
  cases ha with
  | @ok stored stored' hstored =>
    dsimp only
    rw [outdated_eq h.2 hstored.2, hlog]
    split
    · refine Lockstep.bind (Lockstep.log _) fun _ _ _ => ?_
      exact Lockstep.call_answers (K := ρ.coupling _) (.update (h.overlay hstored))
    · exact .done (.ok hstored)
  | error e =>
    dsimp only
    rw [hlog]
    split
    · refine Lockstep.bind (Lockstep.log _) fun _ _ _ => ?_
      exact Lockstep.call_answers (K := ρ.coupling _) (.create h)
    · exact .done (.error e)

theorem lockstep_converge {expected expected' : Secret}
    (h : ρ.SecretsAt secretKey expected expected') (owner : Option OwnerReference)
    (attempts : Int) :
    Lockstep (ρ.coupling secretKey) (Agree (ρ.SecretsAt secretKey))
      (converge expected owner attempts).run (converge expected' owner attempts).run :=
  Lockstep.retrying _ _ (lockstep_attempt (h.desired owner)) _ _

variable (cluster : Cluster)

theorem lockstep_discard :
    Lockstep (ρ.coupling cluster.secretKey) (Agree Eq) (KeyIndex.discard cluster).run
      (KeyIndex.discard cluster).run := by
  have hread := Lockstep.call_answers (K := ρ.coupling cluster.secretKey) .get
  refine Lockstep.bind hread fun a a' ha => ?_
  cases ha with
  | error e => exact .done (.refl _)
  | @ok current current' hcurrent =>
    dsimp only
    rw [hcurrent.uid_eq]
    have hdelete := Lockstep.call_answers (K := ρ.coupling cluster.secretKey)
      (.delete (some current.uid))
    refine Lockstep.bind hdelete fun a a' ha => ?_
    cases ha with
    | error e => exact .done (.refl _)
    | ok _ => exact Lockstep.bind (Lockstep.log _) fun _ _ _ => .done (.ok rfl)

variable {x x' : KeyIndex}

theorem lockstep_save (h : ρ.Indexes x x') (attempts : Int) :
    Lockstep (ρ.coupling cluster.secretKey) (Agree Eq) (x.save cluster attempts).run
      (x'.save cluster attempts).run := by
  have hempty : x'.isEmpty = x.isEmpty := by
    unfold KeyIndex.isEmpty
    rw [h.aliases_eq]
  unfold KeyIndex.save
  rw [hempty]
  split
  · exact lockstep_discard cluster
  · refine Lockstep.action_bind (.ofExcept (agree_toSecret h cluster)) fun s s' hs => ?_
    refine Lockstep.action_bind (lockstep_converge hs _ attempts) fun _ _ _ => ?_
    exact .done (.ok rfl)

theorem lockstep_logAll (es : List Log.Event) :
    Lockstep (ρ.coupling secretKey) Eq (KeyIndex.logAll es) (KeyIndex.logAll es) := by
  induction es with
  | nil => exact .done rfl
  | cons e es ih => exact .request rfl fun _ => ih

theorem unknownSettings_eq {s s' : Secret} (h : ρ.Secrets s s') :
    KeyIndex.unknownSettings s'.data = KeyIndex.unknownSettings s.data := by
  obtain ⟨h⟩ := h
  unfold KeyIndex.unknownSettings Table.keys
  rw [h.keys]

theorem lockstep_load [Json.Nesting] :
    Lockstep (ρ.coupling cluster.secretKey) (Agree ρ.Indexes) (KeyIndex.load cluster).run
      (KeyIndex.load cluster).run := by
  have hread := Lockstep.call_answers (K := ρ.coupling cluster.secretKey) .get
  refine Lockstep.bind hread fun a a' ha => ?_
  cases ha with
  | error e =>
    dsimp only
    split
    · exact Lockstep.bind (Lockstep.log _) fun _ _ _ => .done (.ok indexes_empty)
    · exact .done (.error e)
  | @ok s s' hs =>
    dsimp only
    rw [unknownSettings_eq hs.2]
    have hindex := agree_ofSecret hs.2
    generalize KeyIndex.ofSecret s = x at hindex
    generalize KeyIndex.ofSecret s' = x' at hindex
    cases hindex with
    | error e => exact .done (.error e)
    | ok h => exact Lockstep.bind (lockstep_logAll _) fun _ _ _ => .done (.ok h)

end Saving

section Passes

variable {expected : List IssuedKey}

theorem event_eq {r r' : Pass.Report} (h : ρ.Reports r r') (cluster : Cluster) :
    Pass.event cluster r' = Pass.event cluster r := by
  unfold Pass.event KeyIndex.size
  rw [h.index.aliases_eq, h.added, h.rotated, h.removed]

theorem lockstep_pass [Json.Nesting] (cluster : Cluster)
    (hexpected : ∀ k ∈ expected, k.encoded.isWellFormed = true) (attempts : Int)
    (id : Option Text) :
    Lockstep (ρ.coupling cluster.secretKey) (Agree ρ.Reports)
      (Pass.run cluster expected attempts id).run
      (Pass.run cluster (expected.map ρ.key) attempts id).run := by
  refine Lockstep.underId id (Lockstep.action_bind (lockstep_load cluster) fun x x' hx => ?_)
  have happly := (agree_apply hx hexpected).mapError Raised.ofIndex
  refine Lockstep.action_bind (.ofExcept happly) fun r r' hr => ?_
  refine Lockstep.action_bind (lockstep_save cluster hr.index attempts) fun _ _ _ => ?_
  rw [event_eq hr]
  exact Lockstep.bind (Lockstep.log _) fun _ _ _ => .done (.ok hr)

end Passes

section Commands

/-- The texts are renamed once the blanks around them are gone. -/
def Texts (ρ : Renaming) (t t' : Text) : Prop :=
  t.strip.isWellFormed = true ∧ t'.strip = ρ.map t.strip

/-- The places are the same for some arguments, but for the key in the file that these name. -/
structure Places (ρ : Renaming) (arguments : List Text) (p p' : Cli.Place) : Prop where
  settings : Settings.read p'.environment p'.files = Settings.read p.environment p.files
  key : ∀ i remote keyId file, Cli.Invocation.read arguments = .ok i →
    i.command = .set remote keyId file →
      Agree ρ.Texts (Cli.keyText p file) (Cli.keyText p' file)

variable {p p' : Cli.Place} {cluster : Cluster}

theorem agree_readKey {file : Text} (h : Agree ρ.Texts (Cli.keyText p file) (Cli.keyText p' file)) :
    Agree (fun c c' => c.isWellFormed = true ∧ c' = ρ.map c) (Cli.readKey p file)
      (Cli.readKey p' file) := by
  refine Agree.bind h fun t t' ht => ?_
  have hempty : t'.strip.isEmpty = t.strip.isEmpty := by
    rw [ht.2, Bool.eq_iff_iff, List.isEmpty_iff, List.isEmpty_iff]
    have hiff := map_eq_iff (ρ := ρ) ht.1 (u := []) rfl
    rw [ρ.empty] at hiff
    exact hiff
  dsimp only
  rw [hempty]
  split
  · exact .error _
  · exact .ok ht

theorem agree_aliasOf (v : Value) :
    Agree (fun name name' => name' = name ∧ Naming.isAlias name = true) (KeyIndex.aliasOf v)
      (KeyIndex.aliasOf v) := by
  unfold KeyIndex.aliasOf
  split
  · split
    · next ha => exact .ok ⟨rfl, ha⟩
    · exact .error _
  · exact .error _

theorem lockstep_setKey [Json.Nesting] (attempts : Int) (remote : Value) (keyId : Text)
    {file : Text} (h : Agree ρ.Texts (Cli.keyText p file) (Cli.keyText p' file)) :
    Lockstep (ρ.coupling cluster.secretKey) (Agree Eq)
      (Cli.setKey p attempts cluster remote keyId file).run
      (Cli.setKey p' attempts cluster remote keyId file).run := by
  have hkey := (agree_readKey h).mapError fun f => (⟨f, []⟩ : Raised)
  refine Lockstep.action_bind (.ofExcept hkey) fun c c' hc => ?_
  obtain ⟨hwell, rfl⟩ := hc
  refine Lockstep.action_bind (lockstep_load cluster) fun x x' hx => ?_
  have hname := (agree_aliasOf remote).mapError Raised.ofIndex
  refine Lockstep.action_bind (.ofExcept hname) fun name name' hname => ?_
  obtain ⟨rfl, ha⟩ := hname
  have hput := hx.put keyId ha hwell
  exact Lockstep.action_bind (lockstep_save cluster hput attempts) fun _ _ _ => .done (.ok rfl)

theorem lockstep_showAliases [Json.Nesting] :
    Lockstep (ρ.coupling cluster.secretKey) (Agree Eq) (Cli.showAliases cluster).run
      (Cli.showAliases cluster).run := by
  refine Lockstep.action_bind (lockstep_load cluster) fun x x' hx => .done (.ok ?_)
  unfold Cli.listing
  rw [hx.aliases_eq]

theorem lockstep_deleteKey [Json.Nesting] (attempts : Int) (remote : Value) :
    Lockstep (ρ.coupling cluster.secretKey) (Agree Eq) (Cli.deleteKey attempts cluster remote).run
      (Cli.deleteKey attempts cluster remote).run := by
  refine Lockstep.action_bind (lockstep_load cluster) fun x x' hx => ?_
  have hcontains : x'.contains = x.contains := by
    unfold KeyIndex.contains
    rw [hx.aliases_eq]
  refine Lockstep.action_bind (.ofExcept (.refl _)) fun known known' hknown => ?_
  subst hknown
  rw [hcontains]
  split
  · next name _ =>
    refine Lockstep.action_bind (lockstep_save cluster (hx.forget name) attempts) fun _ _ _ => ?_
    exact .done (.ok rfl)
  · exact .done (.ok rfl)

theorem lockstep_listSources :
    Lockstep (ρ.coupling cluster.secretKey) (Agree Eq) (Cli.listSources cluster).run
      (Cli.listSources cluster).run := by
  have hread := Lockstep.call_answers (K := ρ.coupling cluster.secretKey) .get
  have hsources : Lockstep (ρ.coupling cluster.secretKey) (Agree Eq)
      (Keystore.ofCluster cluster).run (Keystore.ofCluster cluster).run := by
    refine Lockstep.bind hread fun a a' ha => ?_
    cases ha with
    | error e => exact .done (.refl _)
    | ok _ => exact Lockstep.bind (Lockstep.log _) fun _ _ _ => .done (.ok rfl)
  refine Lockstep.action_bind hsources fun k k' hk => .done (.ok ?_)
  rw [hk]

/-- What a command does, for one renaming or the other of the key in its file. -/
theorem lockstep_perform [Json.Nesting] (attempts : Int) {arguments : List Text}
    (h : ρ.Places arguments p p')
    {i : Cli.Invocation} (hi : Cli.Invocation.read arguments = .ok i) :
    Lockstep (ρ.coupling i.cluster.secretKey) (Agree Eq) (Cli.perform p attempts i).run
      (Cli.perform p' attempts i).run := by
  unfold Cli.perform
  split
  · exact lockstep_showAliases
  · next remote keyId file hcommand =>
    exact lockstep_setKey attempts remote keyId (h.key i remote keyId file hi hcommand)
  · exact lockstep_deleteKey attempts _
  · exact lockstep_listSources

theorem lockstep_work [Json.Nesting] {arguments : List Text} (h : ρ.Places arguments p p')
    {i : Cli.Invocation} (hi : Cli.Invocation.read arguments = .ok i) (settings : Settings) :
    Lockstep (ρ.coupling i.cluster.secretKey) Eq (Cli.work ⟨p, i, settings⟩)
      (Cli.work ⟨p', i, settings⟩) := by
  have hbody := Lockstep.underId none (lockstep_perform settings.attempts h hi)
  refine Lockstep.bind hbody fun printed printed' hprinted => ?_
  obtain rfl := hprinted.eq
  have hclose := Lockstep.call_answers (K := ρ.coupling i.cluster.secretKey) .close
  refine Lockstep.bind hclose fun closed closed' hclosed => ?_
  obtain rfl : closed = closed' := Agree.eq hclosed
  cases closed with
  | error e => exact .done rfl
  | ok u =>
    cases printed with
    | error e => exact .done rfl
    | ok output => exact .done rfl

theorem lockstep_overStore [Json.Nesting] {arguments : List Text} (h : ρ.Places arguments p p')
    {i : Cli.Invocation} (hi : Cli.Invocation.read arguments = .ok i) :
    Lockstep (ρ.coupling i.cluster.secretKey) Eq (Cli.overStore arguments p)
      (Cli.overStore arguments p') := by
  unfold Cli.overStore Cli.start
  rw [hi, h.settings]
  dsimp only
  cases Settings.read p.environment p.files with
  | error f => exact .done rfl
  | ok settings =>
    refine .request rfl fun reply => ?_
    cases reply with
    | error f => exact .done rfl
    | ok u => exact lockstep_work h hi settings

end Commands

section Runs

/-- Nothing that is seen of two runs tells them apart: they leave the same surroundings behind, with
all that was logged, and their calls and the stores after them differ in credentials only. -/
structure LookAlike {α β : Type} (ρ : Renaming) (secretKey : Text × Text)
    (out : α × Surroundings × SharedStore) (out' : β × Surroundings × SharedStore) : Prop where
  surroundings : out'.2.1 = out.2.1
  calls : List.Forall₂ (ρ.Calls secretKey) (out.2.2.moments.map Moment.call)
    (out'.2.2.moments.map Moment.call)
  stores : ρ.Stores secretKey out.2.2.store out'.2.2.store

/-- Stores that correspond, with calls so far that do, and nobody else who uses them. -/
structure Alone (ρ : Renaming) (secretKey : Text × Text) (x x' : SharedStore) : Prop where
  others : x.others = [] ∧ x'.others = []
  calls : List.Forall₂ (ρ.Calls secretKey) (x.moments.map Moment.call)
    (x'.moments.map Moment.call)
  stores : ρ.Stores secretKey x.store x'.store

theorem alone_answer {c c' : StoreCall} {x x' : SharedStore} (hc : ρ.Calls secretKey c c')
    (h : ρ.Alone secretKey x x') :
    ρ.Answers secretKey c c' (SharedStore.answer c x).1 (SharedStore.answer c' x').1 ∧
      ρ.Alone secretKey (SharedStore.answer c x).2 (SharedStore.answer c' x').2 := by
  obtain ⟨m, others, moments⟩ := x
  obtain ⟨m', others', moments'⟩ := x'
  obtain ⟨⟨rfl, rfl⟩, hcalls, hstores⟩ := h
  obtain ⟨hanswers, hstores'⟩ := answers_step hstores hc
  refine ⟨hanswers, ⟨rfl, rfl⟩, ?_, hstores'⟩
  change List.Forall₂ _ ((moments ++ [_]).map _) ((moments' ++ [_]).map _)
  rw [List.map_append, List.map_append]
  exact List.rel_append hcalls (.cons hc .nil)

/-- Programs in lockstep look alike over stores that correspond. -/
theorem run_lockstep {α β : Type} {R : α → β → Prop} {p : Program Store α} {p' : Program Store β}
    (hp : Lockstep (ρ.coupling secretKey) R p p') (w : Surroundings) {m m' : SecretStore}
    (h : ρ.Stores secretKey m m') :
    let out := SharedStore.run p w ⟨m, [], []⟩
    let out' := SharedStore.run p' w ⟨m', [], []⟩
    R out.1 out'.1 ∧ ρ.LookAlike secretKey out out' := by
  intro out out'
  have hserved := hp.serve (L := ρ.coupling secretKey) fun _ _ hc => lockstep_reported hc
  obtain ⟨hR, hw, halone⟩ := hserved.run (I := ρ.Alone secretKey)
    (fun _ _ _ _ hc hx => alone_answer hc hx) w (s := ⟨m, [], []⟩) (t := ⟨m', [], []⟩)
    ⟨⟨rfl, rfl⟩, .nil, h⟩
  exact ⟨hR, hw.symm, halone.calls, halone.stores⟩

theorem shown_eq {r r' : Pass.Report} (h : ρ.Reports r r') : r'.shown = r.shown := by
  unfold Pass.Report.shown KeyIndex.shown
  rw [h.index.aliases_eq, h.added, h.rotated, h.removed]

end Runs

end Renaming

/-- Whatever credentials are expected, stored and read from a file, what is seen of a pass and of a
run of the command line depends on nothing but which of them are equal and which are empty. -/
theorem credentials_unseen [Json.Nesting] (ρ : Renaming) (m m' : SecretStore) (w : Surroundings) :
    (∀ (cluster : Cluster) (expected : List IssuedKey) (attempts : Int) (id : Option Text),
      ρ.Stores cluster.secretKey m m' → (∀ k ∈ expected, k.encoded.isWellFormed = true) →
        let out := SharedStore.run (Pass.run cluster expected attempts id).run w ⟨m, [], []⟩
        let out' := SharedStore.run (Pass.run cluster (expected.map ρ.key) attempts id).run w
          ⟨m', [], []⟩
        Agree (fun r r' => ρ.Reports r r' ∧ r'.shown = r.shown) out.1 out'.1 ∧
          ρ.LookAlike cluster.secretKey out out') ∧
      ∀ (arguments : List Text) (p p' : Cli.Place), ρ.Places arguments p p' →
        (∀ i, Cli.Invocation.read arguments = .ok i → ρ.Stores i.cluster.secretKey m m') →
          let out := SharedStore.run (Cli.overStore arguments p) w ⟨m, [], []⟩
          let out' := SharedStore.run (Cli.overStore arguments p') w ⟨m', [], []⟩
          out'.1 = out.1 ∧ out'.2.1 = out.2.1 := by
  constructor
  · intro cluster expected attempts id hstores hexpected
    obtain ⟨hagree, halike⟩ :=
      Renaming.run_lockstep (Renaming.lockstep_pass cluster hexpected attempts id) w hstores
    exact ⟨hagree.mono fun _ _ hr => ⟨hr, Renaming.shown_eq hr⟩, halike⟩
  · intro arguments p p' hplaces hstores
    cases hi : Cli.Invocation.read arguments with
    | error stop =>
      -- Refused arguments end the run before it looks at its place or its store.
      unfold Cli.overStore Cli.start
      rw [hi]
      exact ⟨rfl, rfl⟩
    | ok i =>
      obtain ⟨hending, halike⟩ :=
        Renaming.run_lockstep (Renaming.lockstep_overStore hplaces hi) w (hstores i hi)
      exact ⟨hending.symm, halike.surroundings⟩

/-- Two credentials are exchanged in the store, among the expected keys and in the standard input.
The pass rotates the one that has an alias, and the command records the other. -/
theorem credentials_unseen_exchanged :
    let ρ : Renaming := .exchange "x" "y" ⟨rfl, by decide⟩ ⟨rfl, by decide⟩
    let cluster : Cluster := ⟨"es", "ns", "uid", [], "v1", "Elasticsearch"⟩
    let stored (prod eu : List UInt8) : Secret :=
      ⟨"es-es-remote-api-keys", "ns", .empty,
        Table.empty.insert Naming.aliasesKey "\x7b\"prod\":\"k1\"\x7d",
        .ofList [("cluster.remote.prod.credentials", prod), ("cluster.remote.eu.credentials", eu),
          ("note", [0])], [], "uid-1", "1"⟩
    let storeOf (s : Secret) : SecretStore :=
      ⟨Table.empty.insert (SecretStore.keyOf s) s, 1, fun _ => "uid-1", 1⟩
    let m := storeOf (stored [120] [121])
    let m' := storeOf (stored [121] [120])
    let expected : List IssuedKey := [⟨"prod", "k1", "y"⟩]
    let arguments : List Text := ["set", "ns", "es", "eu", "k9", "--encoded-file", "-"]
    let p (input : Text) : Cli.Place := ⟨.empty, ⟨.empty⟩, input⟩
    let pass := SharedStore.run (Pass.run cluster expected 3 none).run .bare ⟨m, [], []⟩
    let pass' := SharedStore.run (Pass.run cluster (expected.map ρ.key) 3 none).run .bare
      ⟨m', [], []⟩
    let set := SharedStore.run (Cli.overStore arguments (p "x\n")) .bare ⟨m, [], []⟩
    let set' := SharedStore.run (Cli.overStore arguments (p "y")) .bare ⟨m', [], []⟩
    ρ.Stores cluster.secretKey m m' ∧ ρ.Places arguments (p "x\n") (p "y") ∧
      pass.1.toOption.map Pass.Report.rotated = some [("prod" : Text)] ∧
      Agree (fun r r' => ρ.Reports r r' ∧ r'.shown = r.shown) pass.1 pass'.1 ∧
      ρ.LookAlike cluster.secretKey pass pass' ∧
      set.1.toOption.map Cli.Outcome.code = some 0 ∧ set'.1 = set.1 ∧ set'.2.1 = set.2.1 := by
  intro ρ cluster stored storeOf m m' expected arguments p pass pass' set set'
  have hrotated : pass.1.toOption.map Pass.Report.rotated = some [("prod" : Text)] := by
    decide +kernel
  have hcode : set.1.toOption.map Cli.Outcome.code = some 0 := by decide +kernel
  have hprod : Naming.aliasOf? "cluster.remote.prod.credentials" = some "prod" := by decide
  have heu : Naming.aliasOf? "cluster.remote.eu.credentials" = some "eu" := by decide
  have hnote : Naming.aliasOf? "note" = none := by decide
  have hentries : ρ.Entries (stored [120] [121]).data.entries (stored [121] [120]).data.entries :=
    .cons ⟨rfl, .credential (c := "x") hprod rfl rfl rfl⟩
      (.cons ⟨rfl, .credential (c := "y") heu rfl rfl rfl⟩ (.cons ⟨rfl, .other hnote⟩ .nil))
  have hstores : ρ.Stores cluster.secretKey m m' :=
    ⟨.some ⟨rfl, .intro (s := stored [120] [121]) hentries⟩, rfl, rfl, rfl⟩
  have hread : Cli.Invocation.read arguments =
      .ok ⟨none, none, "ns", "es", none, .set (.text "eu") "k9" "-"⟩ := rfl
  have hplaces : ρ.Places arguments (p "x\n") (p "y") := by
    refine ⟨rfl, fun i remote keyId file hi hcommand => ?_⟩
    cases hread.symm.trans hi
    cases hcommand
    exact .ok ⟨rfl, rfl⟩
  obtain ⟨hpass, hset⟩ := credentials_unseen ρ m m' .bare
  obtain ⟨hagree, halike⟩ := hpass cluster expected 3 none hstores (by decide)
  obtain ⟨hending, hsurroundings⟩ := hset arguments _ _ hplaces fun i hi => by
    cases hread.symm.trans hi
    exact hstores
  exact ⟨hstores, hplaces, hrotated, hagree, halike, hcode, hending, hsurroundings⟩

end CrossClusterKeys
