import CrossClusterKeys.Proofs.Registry

/-!
# The commands keep the registry

**Proof shape.**  Every command loads the index of its cluster, which is the index of the cluster's
grants, and ends with the index of the changed grants standing in the store.

**Results.**
* `ensures_perform`: what one command does to one cluster.
* `mirrors_step`: a cluster whose index was saved is the one that the registry changes.
* Every run answers as the grants of its cluster call for, after any history of runs.
-/

namespace CrossClusterKeys

open SecretStore (answer)

namespace Registry

section Perform

variable {g : KeyMap Grant} {cluster : Cluster} {m : SecretStore}

/-- How a command ends for its cluster: accepted and with the changed grants saved, or with a
failure that is reported and nothing done. -/
structure Performed (g : KeyMap Grant) (o : Order) (cluster : Cluster) (m : SecretStore)
    (printed : Except Raised Text) (m' : SecretStore) : Prop where
  saved : (index (change g o)).Saved cluster m m'
  accepted : o.IsAccepted → ∃ output, printed = .ok output ∧ Prints cluster.name g output o
  refused : ¬ o.IsAccepted → m' = m ∧ ∃ e, printed = .error e ∧ e.failure.isReported = true

variable {o : Order}

theorem performed_of_ok {output : Text} {m' : SecretStore} (ho : o.IsAccepted)
    (h : (index (change g o)).Saved cluster m m') (hprints : Prints cluster.name g output o) :
    Performed g o cluster m (.ok output) m' :=
  ⟨h, fun _ => ⟨output, rfl, hprints⟩, fun hnot => absurd ho hnot⟩

theorem performed_of_error {e : Raised} (ho : ¬ o.IsAccepted) (he : e.failure.isReported = true)
    (h : (index g).Saved cluster m m) : Performed g o cluster m (.error e) m := by
  refine ⟨?_, fun haccepted => absurd haccepted ho, fun _ => ⟨rfl, e, rfl, he⟩⟩
  rw [change_of_not_isAccepted ho]
  exact h

/-- Saving a changed index saves the index of the changed grants. -/
theorem ensures_save_index (hm : m.IsKept) {y : KeyIndex} (hy : y.IsClean)
    (h : y.Alike (index (change g o))) (ho : o.IsAccepted) (attempts : Int) {output : Text}
    (hprints : Prints cluster.name g output o) :
    ((y.save cluster attempts >>= fun _ => pure output : Action Store Text)).run.Ensures answer m
      (Performed g o cluster m) := by
  refine (Action.ensures_bind _ _ _ _).2 ?_
  refine Program.ensures_mono (KeyIndex.ensures_save_of_isEncodable hy.named_keys
    hy.isEncodable cluster attempts hm) ?_
  rintro r m' ⟨rfl, hsaved⟩
  exact performed_of_ok ho (KeyIndex.saved_congr h hsaved) hprints

variable (hclean : (index g).IsClean) (hstands : (index g).Stands cluster m) (hm : m.IsKept)

include hclean hstands

/-- The loaded index is the one of the grants. -/
theorem ensures_load_index [Json.Nesting] {Q : Except Raised KeyIndex → SecretStore → Prop}
    (h : ∀ y : KeyIndex, y.Alike (index g) → y.IsClean → Q (.ok y) m) :
    (KeyIndex.load cluster).run.Ensures answer m Q := by
  refine (KeyIndex.ensures_load cluster m Q).2 ?_
  obtain ⟨y, hy, halike⟩ := KeyIndex.indexOf_of_isClean hclean hstands
  rw [hy]
  exact h y halike (KeyIndex.isClean_congr halike.symm hclean)

include hm

theorem ensures_showAliases [Json.Nesting] (hname : cluster.name.isWellFormed = true) :
    (Cli.showAliases cluster).run.Ensures answer m (Performed g .show cluster m) := by
  refine (Action.ensures_bind _ _ _ _).2 ?_
  refine ensures_load_index hclean hstands fun y halike hy => ?_
  refine (Action.ensures_pure _ _ _).2 ?_
  exact performed_of_ok trivial (KeyIndex.saved_self hm hstands)
    (prints_listing g halike hy cluster hname)

theorem ensures_setKey [Json.Nesting] {p : Cli.Place} (hp : p.input.isWellFormed = true)
    (attempts : Int) {remote keyId path : Text} {key? : Option Text}
    (hgiven : (Order.set remote keyId path key?).IsGiven p) :
    (Cli.setKey p attempts cluster (.text remote) keyId path).run.Ensures answer m
      (Performed g (.set remote keyId path key?) cluster m) := by
  obtain ⟨hk, hsupplied⟩ := hgiven
  have hself := KeyIndex.saved_self hm hstands
  refine (Action.ensures_bind _ _ _ _).2 ((Action.ensures_ofExcept _ _ _).2 ?_)
  cases key? with
  | none =>
    obtain ⟨f, hf⟩ := Cli.supplies_none_iff.1 hsupplied
    have hrefused : ¬ (Order.set remote keyId path none).IsAccepted := fun h => by cases h.2
    rw [hf, mapError_error]
    exact performed_of_error hrefused (Cli.isReported_of_readKey hf) hself
  | some key =>
    have hkey := hsupplied.isWellFormed hp
    rw [Cli.readKey_eq_ok_iff.2 hsupplied, mapError_ok]
    refine (Action.ensures_bind _ _ _ _).2 ?_
    refine ensures_load_index hclean hstands fun y halike hy => ?_
    refine (Action.ensures_bind _ _ _ _).2 ((Action.ensures_ofExcept _ _ _).2 ?_)
    unfold KeyIndex.aliasOf
    by_cases ha : Naming.isAlias remote = true
    · have hmatch := (Naming.isAlias_iff_fullMatch remote).1 ha
      have hchanged : (y.put remote keyId key).Alike
          (index (change g (.set remote keyId path (some key)))) := by
        simp only [change, if_pos hmatch]
        exact alike_index_insert g halike remote keyId key
      simp only [if_pos ha, mapError_ok]
      exact ensures_save_index hm (KeyIndex.isClean_put hy ha hk hkey) hchanged ⟨hmatch, rfl⟩
        attempts rfl
    · have hrefused : ¬ (Order.set remote keyId path (some key)).IsAccepted :=
        fun h => ha ((Naming.isAlias_iff_fullMatch remote).2 h.1)
      simp only [if_neg ha, mapError_error]
      exact performed_of_error hrefused rfl hself

theorem ensures_deleteKey [Json.Nesting] (attempts : Int) (remote : Text) :
    (Cli.deleteKey attempts cluster (.text remote)).run.Ensures answer m
      (Performed g (.delete remote) cluster m) := by
  refine (Action.ensures_bind _ _ _ _).2 ?_
  refine ensures_load_index hclean hstands fun y halike hy => ?_
  refine (Action.ensures_bind _ _ _ _).2 ((Action.ensures_ofExcept _ _ _).2 ?_)
  simp only [KeyIndex.lookupAlias, mapError_ok, Option.filter, contains_of_alike g halike]
  by_cases hcontains : g.contains remote = true
  · have hprints : Prints cluster.name g (Cli.line ("Removed alias " ++ remote)) (.delete remote) :=
      (if_pos hcontains).symm
    have hchanged : (y.forget remote).Alike (index (change g (.delete remote))) :=
      alike_index_erase g halike remote
    rw [if_pos hcontains]
    exact ensures_save_index hm (KeyIndex.isClean_forget hy remote) hchanged trivial attempts
      hprints
  · have hprints : Prints cluster.name g
        (Cli.line ("Alias " ++ remote ++ " not found, nothing to do")) (.delete remote) :=
      (if_neg hcontains).symm
    have hsame := alike_index_erase_self g (Bool.eq_false_iff.2 hcontains)
    rw [if_neg hcontains]
    exact performed_of_ok trivial (KeyIndex.saved_self hm (KeyIndex.stands_congr hsame hstands))
      hprints

omit hclean in
theorem ensures_listSources (hsources : cluster.secureSettings = []) :
    (Cli.listSources cluster).run.Ensures answer m (Performed g .keystore cluster m) := by
  have hself := KeyIndex.saved_self hm hstands
  refine (Action.ensures_bind _ _ _ _).2 ?_
  refine (Program.ensures_bind _ _ _ _).2 ((Program.ensures_call _ _ _).2 ?_)
  unfold KeyIndex.Stands at hstands
  rw [isEmpty_index] at hstands
  cases hempty : g.isEmpty with
  | true =>
    rw [hempty, if_pos rfl] at hstands
    simp only [answer, SecretStore.get_of_none hstands, SecretStore.isNotFound_missing, if_true,
      hsources]
    exact performed_of_ok trivial hself (if_pos hempty).symm
  | false =>
    rw [hempty, if_neg Bool.false_ne_true] at hstands
    obtain ⟨s, hs, -⟩ := hstands
    have hfull : ¬ g.isEmpty = true := by
      rw [hempty]
      exact Bool.false_ne_true
    simp only [answer, SecretStore.get_of_some hs]
    refine (Program.ensures_bind _ _ _ _).2 ((Program.ensures_log _ _ _).2 ?_)
    refine (Program.ensures_pure _ _ _).2 ((Action.ensures_pure _ _ _).2 ?_)
    simp only [Keystore.extended, hsources, List.nil_append, List.flatMap_cons, List.flatMap_nil,
      List.append_nil]
    exact performed_of_ok trivial hself (if_neg hfull).symm

end Perform

section Runs

/-- What one command does to its cluster. -/
theorem ensures_perform [Json.Nesting] (e : Entry) {g : KeyMap Grant} {m : SecretStore}
    (hclean : (index g).IsClean) (hstands : (index g).Stands e.cluster m) (hm : m.IsKept) :
    (Cli.perform e.place e.settings.attempts e.ready.invocation).run.Ensures answer m
      (Performed g e.order e.cluster m) := by
  obtain ⟨place, settings, backend, logLevel, ns, name, uid, order, hgiven, hname, hinput⟩ := e
  cases order with
  | «show» => exact ensures_showAliases hclean hstands hm hname
  | set remote keyId path key? =>
    exact ensures_setKey hclean hstands hm hinput settings.attempts hgiven
  | delete remote => exact ensures_deleteKey hclean hstands hm settings.attempts remote
  | keystore => exact ensures_listSources hstands hm rfl

/-- How a run ends whose command printed something or failed. -/
def ending (printed : Except Raised Text) : Cli.Ending :=
  match printed with
  | .ok output => Cli.conclude output none
  | .error e => Cli.conclude [] (some e)

/-- A run ends as its command does. -/
theorem ensures_work [Json.Nesting] {r : Cli.Ready} {m : SecretStore}
    {Q : Except Raised Text → SecretStore → Prop}
    (h : (Cli.perform r.place r.settings.attempts r.invocation).run.Ensures answer m Q) :
    (Cli.work r).Ensures answer m fun o m' => ∃ printed, o = ending printed ∧ Q printed m' := by
  refine (Program.ensures_bind _ _ _ _).2 ?_
  refine Program.ensures_mono (Action.ensures_underId none _ m h) ?_
  intro printed m' hQ
  refine (Program.ensures_bind _ _ _ _).2 ((Program.ensures_call _ _ _).2 ?_)
  cases printed with
  | ok output => exact ⟨.ok output, rfl, hQ⟩
  | error e => exact ⟨.error e, rfl, hQ⟩

theorem index_clean_change (e : Entry) {g : KeyMap Grant} (hg : (index g).IsClean) :
    (index (change g e.order)).IsClean := by
  obtain ⟨place, settings, backend, logLevel, ns, name, uid, order, hgiven, hname, hinput⟩ := e
  cases order with
  | «show» => exact hg
  | set remote keyId path key? =>
    by_cases haccepted : (Order.set remote keyId path key?).IsAccepted
    · obtain ⟨hmatch, hsome⟩ := haccepted
      obtain ⟨key, rfl⟩ := Option.isSome_iff_exists.1 hsome
      have hkey := hgiven.2.isWellFormed hinput
      have hput := KeyIndex.isClean_put hg ((Naming.isAlias_iff_fullMatch remote).2 hmatch)
        hgiven.1 hkey
      simp only [change, if_pos hmatch]
      exact KeyIndex.isClean_congr (alike_index_insert g (.refl _) remote keyId key) hput
    · simp only [change_of_not_isAccepted haccepted]
      exact hg
  | delete remote =>
    exact KeyIndex.isClean_congr (alike_index_erase g (.refl _) remote)
      (KeyIndex.isClean_forget hg remote)
  | keystore => exact hg

theorem mirrors_empty (uids : Nat → Text) : Mirrors empty (SecretStore.empty uids) := by
  refine ⟨SecretStore.isKept_empty uids, fun subject => ?_, fun c => ?_⟩
  · exact KeyIndex.isClean_empty
  · exact rfl

/-- A cluster whose index was saved is the one that the registry changes. -/
theorem mirrors_step {reg : Registry} {e : Entry} {m m' : SecretStore} (h : Mirrors reg m)
    (hsaved : (index (change (reg e.subject) e.order)).Saved e.cluster m m') :
    Mirrors (reg.step e) m' := by
  refine ⟨hsaved.kept, fun subject => ?_, fun c => ?_⟩
  · unfold step
    split
    · exact index_clean_change e (h.clean subject)
    · exact h.clean subject
  · unfold step
    split
    · next heq =>
      have hkey : c.secretKey = e.cluster.secretKey := by
        obtain ⟨hns, hname⟩ := Prod.mk.inj heq
        exact Prod.ext hns (congrArg Naming.secretName hname)
      have hstands := hsaved.stands
      rw [heq]
      unfold KeyIndex.Stands at hstands ⊢
      rw [hkey]
      exact hstands
    · next hne =>
      have hkey : c.secretKey ≠ e.cluster.secretKey := by
        intro hkey
        obtain ⟨hns, hname⟩ := Naming.secretKey_injective hkey
        exact hne (Prod.ext hns hname)
      have hstands := h.stands c
      unfold KeyIndex.Stands at hstands ⊢
      rw [hsaved.elsewhere _ hkey]
      exact hstands

/-- In a store that mirrors a registry, every Secret is what the grants call for. -/
theorem backs_of_mirrors {reg : Registry} {m : SecretStore} (h : Mirrors reg m) (c : Cluster) :
    Backs (reg (c.namespace, c.name)) (m.secrets.get? c.secretKey) := by
  have hstands := h.stands c
  have hclean := h.clean (c.namespace, c.name)
  unfold KeyIndex.Stands at hstands
  rw [isEmpty_index] at hstands
  cases hempty : (reg (c.namespace, c.name)).isEmpty with
  | true =>
    rw [hempty, if_pos rfl] at hstands
    rw [hstands]
    refine ⟨by rw [hempty]; rfl, fun s hs => ?_⟩
    cases hs
  | false =>
    rw [hempty, if_neg Bool.false_ne_true] at hstands
    obtain ⟨s, hs, hholds⟩ := hstands
    rw [hs]
    refine ⟨by rw [hempty]; rfl, fun s' hs' setting bytes => ?_⟩
    cases hs'
    rw [hholds.data, KeyIndex.bytesAt_eq_some]
    constructor
    · rintro ⟨a, c', hsetting, -, hc, hbytes⟩
      rw [get?_keys_index] at hc
      obtain ⟨grant, hgrant, rfl⟩ := Option.map_eq_some_iff.1 hc
      exact ⟨a, grant, hgrant, hsetting, hbytes⟩
    · rintro ⟨a, grant, hgrant, hsetting, hbytes⟩
      have hc : (index (reg (c.namespace, c.name))).keys.get? a = some grant.credential := by
        rw [get?_keys_index, hgrant, Option.map_some]
      exact ⟨a, grant.credential, hsetting, hclean.named_keys a _ hc, hc, hbytes⟩

/-- What a run does to a store that mirrors a registry. -/
structure Stepped (reg : Registry) (e : Entry) (m : SecretStore) (o : Cli.Ending)
    (m' : SecretStore) : Prop where
  mirrors : Mirrors (reg.step e) m'
  answered : Answers e.name (reg e.subject) e.order o
  elsewhere : ∀ key, key ≠ e.cluster.secretKey → m'.secrets.get? key = m.secrets.get? key
  refused : ¬ e.order.IsAccepted → m' = m

theorem ensures_run [Json.Nesting] {reg : Registry} (e : Entry) {m : SecretStore}
    (h : Mirrors reg m) :
    (Cli.work e.ready).Ensures answer m (Stepped reg e m) := by
  have hperform := ensures_perform e (h.clean e.subject) (h.stands e.cluster) h.kept
  refine Program.ensures_mono (ensures_work hperform) ?_
  rintro o m' ⟨printed, rfl, hdone⟩
  refine ⟨mirrors_step h hdone.saved, ?_, hdone.saved.elsewhere, fun hr => (hdone.refused hr).1⟩
  by_cases haccepted : e.order.IsAccepted
  · obtain ⟨output, rfl, hprints⟩ := hdone.accepted haccepted
    exact .accepted haccepted hprints
  · obtain ⟨-, failure, rfl, hreported⟩ := hdone.refused haccepted
    simp only [ending, Cli.conclude, hreported, if_true]
    exact .refused haccepted

/-- The store after runs one after the other, each in surroundings of its own. -/
def store [Json.Nesting] (history : List (Entry × Surroundings)) (m : SecretStore) : SecretStore :=
  history.foldl (fun m e => (SecretStore.run (Cli.work e.1.ready) e.2 m).2.2) m

theorem mirrors_after [Json.Nesting] (history : List (Entry × Surroundings)) {reg : Registry}
    {m : SecretStore} (h : Mirrors reg m) :
    Mirrors ((history.map Prod.fst).foldl step reg) (store history m) := by
  induction history generalizing reg m with
  | nil => exact h
  | cons e history ih =>
    exact ih (SecretStore.run_of_ensures (ensures_run e.1 h) e.2).mirrors

/-- After any history of runs, the next run answers as the grants of its cluster call for, the
Secret of every cluster is what its grants call for, and no Secret of another cluster has changed.
A refused command changes nothing at all. -/
theorem work_refines [Json.Nesting] (uids : Nat → Text) (history : List (Entry × Surroundings))
    (next : Entry) (w : Surroundings) :
    let reg := after (history.map Prod.fst)
    let before := store history (SecretStore.empty uids)
    let run := SecretStore.run (Cli.work next.ready) w before
    Answers next.name (reg next.subject) next.order run.1 ∧
      (∀ «namespace» name, Backs (reg.step next («namespace», name))
        (run.2.2.secrets.get? («namespace», name ++ "-es-remote-api-keys"))) ∧
      (∀ key, key ≠ (next.namespace, next.name ++ "-es-remote-api-keys") →
        run.2.2.secrets.get? key = before.secrets.get? key) ∧
      (¬ next.order.IsAccepted → run.2.2 = before) := by
  intro reg before run
  have hbefore : Mirrors reg before := mirrors_after history (mirrors_empty uids)
  have hrun := SecretStore.run_of_ensures (ensures_run next hbefore) w
  refine ⟨hrun.answered, fun ns name => ?_, hrun.elsewhere, hrun.refused⟩
  exact backs_of_mirrors hrun.mirrors { next.cluster with name := name, «namespace» := ns }

/-- The place of the runs in `session`: a file with a key in it, and another key on the standard
input. -/
def sessionPlace : Cli.Place :=
  ⟨.empty, ⟨.ofList [("key.txt", [32, 97, 98, 13, 10, 99, 13, 10])]⟩, "\tde\n"⟩

theorem supplies_file : Cli.Supplies sessionPlace "key.txt" (some "ab\nc") := by
  have hlines : Files.UnifiesLines (Text.ofString " ab\r\nc\r\n") (Text.ofString " ab\nc\n") :=
    Files.unifiesLines_iff.1 (by decide)
  exact .key (.file (by decide) rfl (by decide) rfl hlines) (Text.strips_iff.1 (by decide))
    (by decide)

theorem supplies_input : Cli.Supplies sessionPlace "-" (some "de") :=
  .key (.input rfl) (Text.strips_iff.1 (by decide)) (by decide)

/-- A run with a command on one cluster. -/
def sessionEntry (o : Order) (given : o.IsGiven sessionPlace) : Entry where
  place := sessionPlace
  settings := ⟨.memory, none, none, false, .ofDecimal false 30 0, 3, "operator", "INFO", "keys"⟩
  backend := none
  logLevel := none
  «namespace» := "ns"
  name := "es"
  uid := some "uid"
  order := o
  given := given
  named := by decide
  input := by decide

/-- Two keys are recorded, and the second one is removed. -/
def session : List Entry :=
  [sessionEntry (.set "prod" "k1" "key.txt" (some "ab\nc")) ⟨by decide, supplies_file⟩,
    sessionEntry (.set "dr" "k2" "-" (some "de")) ⟨by decide, supplies_input⟩,
    sessionEntry (.delete "dr") trivial]

/-- The first key is recorded, the second one removed, and the cluster listed with what is left. -/
theorem work_refines_session :
    let run (history : List Entry) (next : Entry) := SecretStore.run (Cli.work next.ready) .bare
      (store (history.map (·, .bare)) (.empty fun _ => "uid-1"))
    let recorded := run [] (session.head (by decide))
    let removed := run (session.take 2) (session.getLast (by decide))
    let shown := run session (sessionEntry .show trivial)
    let sources := run session (sessionEntry .keystore trivial)
    recorded.1 = .ok ⟨0, "Stored API key k1 for alias prod\n", []⟩ ∧
      removed.1 = .ok ⟨0, "Removed alias dr\n", []⟩ ∧
      (∃ body, shown.1 = .ok ⟨0, body ++ "\n", []⟩ ∧
        Json.IsDocumentWithin Json.digitLimit 2 body (.object
          [("secret", .text "es-es-remote-api-keys"),
            ("aliases", .object [("prod", .text "k1")])])) ∧
      sources.1 = .ok ⟨0, "es-es-remote-api-keys\n", []⟩ ∧
      ∃ s, removed.2.2.secrets.get? ("ns", "es-es-remote-api-keys") = some s ∧
        s.data.get? "cluster.remote.prod.credentials" = some [97, 98, 10, 99] := by
  intro run recorded removed shown sources
  have hgrants : (after session ("ns", "es")).entries =
      [(Text.ofString "prod", (⟨"k1", "ab\nc"⟩ : Grant))] := by
    decide +kernel
  have hlists : Lists (after session ("ns", "es")) [("prod", "k1")] := by
    refine ⟨List.pairwise_singleton _ _, fun a keyId => ?_⟩
    simp only [← Table.mem_entries_iff, hgrants, List.mem_singleton, Prod.mk.injEq]
    constructor
    · rintro ⟨rfl, rfl⟩
      exact ⟨_, ⟨rfl, rfl⟩, rfl⟩
    · rintro ⟨grant, ⟨rfl, rfl⟩, rfl⟩
      exact ⟨rfl, rfl⟩
  have hrun : ∀ (history : List Entry) (next : Entry), next.order.IsAccepted →
      ∃ output, (run history next).1 = .ok ⟨0, output, []⟩ ∧
        Prints next.name (after ((history.map (·, Surroundings.bare)).map Prod.fst) next.subject)
          output next.order :=
    fun _ next h => (work_refines _ _ next .bare).1.of_isAccepted h
  refine ⟨?_, ?_, ?_, ?_, ?_⟩
  · obtain ⟨output, hout, hprints⟩ := hrun [] (session.head (by decide)) ⟨by decide, rfl⟩
    have houtput : output = "Stored API key k1 for alias prod\n" := hprints.trans (by decide)
    rwa [houtput] at hout
  · obtain ⟨output, hout, hprints⟩ := hrun (session.take 2) (session.getLast (by decide)) trivial
    have houtput : output = "Removed alias dr\n" := hprints.trans (by decide)
    rwa [houtput] at hout
  · obtain ⟨output, hout, body, entries, rfl, hentries, hdocument⟩ :=
      hrun session (sessionEntry .show trivial) trivial
    obtain rfl := hentries.unique hlists
    exact ⟨body, hout, hdocument⟩
  · obtain ⟨output, hout, hprints⟩ := hrun session (sessionEntry .keystore trivial) trivial
    have houtput : output = "es-es-remote-api-keys\n" := hprints.trans (by decide)
    rwa [houtput] at hout
  · obtain ⟨-, hbacks, -⟩ := work_refines (fun _ => "uid-1") ((session.take 2).map (·, .bare))
      (session.getLast (by decide)) .bare
    have hback : Backs (after session ("ns", "es"))
        (removed.2.2.secrets.get? ("ns", "es-es-remote-api-keys")) := hbacks "ns" "es"
    have hgrant : (after session ("ns", "es")).get? "prod" = some ⟨"k1", "ab\nc"⟩ := by
      decide +kernel
    have hfull : (after session ("ns", "es")).isEmpty = false := by decide +kernel
    obtain ⟨s, hs⟩ := Option.isSome_iff_exists.1 (hback.presence.trans (by rw [hfull]; rfl))
    exact ⟨s, hs, (hback.data s hs _ _).2 ⟨"prod", _, hgrant, by decide, rfl⟩⟩

end Runs

end Registry
end CrossClusterKeys
