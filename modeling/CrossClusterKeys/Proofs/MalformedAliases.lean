import CrossClusterKeys.Proofs.FailedOperations
import CrossClusterKeys.Proofs.JsonCompleteness

/-!
# How a bad aliases annotation is reported

**Input.**  Any text as the annotation of the Secret of a cluster.

**Kinds.**  The annotation is `null` or an object of texts, and then it has key IDs; or the reader
gives up on it, because a limit of the reader is overrun; or it is neither, and is reported with the
name of the Secret.  Giving up comes first: the key IDs of a text that overruns a limit are never
found, although it may have some.

**Results.**
* `readAliases_eq_ok_iff`: which texts have key IDs, and which ones.
* `kind_of_readAliases_error`: the two kinds of failure.
* `ensures_perform_unreadable`: a command that comes to load the index fails as it does.
* Both kinds, as the command line answers them.
-/

namespace CrossClusterKeys

open SecretStore (answer)

namespace Json

section Members

/-- An object of the grammar has no key twice. -/
theorem Document.nodup_members {limit depth : Nat} {t rest : Text} {members : List (Text × Json)}
    (h : Document limit depth t (.object members) rest) : (members.map Prod.fst).Nodup := by
  have hatom : ∀ t rest, ¬ Atom limit t (.object members) rest := by
    rintro t rest (h | h | ⟨hs, h⟩)
    · simp only [words, List.mem_cons, Prod.mk.injEq, reduceCtorEq, and_false, List.not_mem_nil,
        or_self] at h
    · cases h
  cases depth with
  | zero => exact absurd h (hatom t rest)
  | succ depth =>
    rcases h with h | h
    · exact absurd h (hatom t rest)
    · cases h with
      | emptyObject => exact List.nodup_nil
      | object => exact (Table.ofList _).nodup

theorem nodup_of_read [Nesting] {t : Text} {members : List (Text × Json)}
    (h : read t = .ok (.object members)) : (members.map Prod.fst).Nodup := by
  obtain ⟨rest, hdocument, -⟩ := read_eq_ok_iff.1 h
  exact hdocument.nodup_members

end Members

section Large

/-- Brackets that open a level too many overrun the limits, whatever is inside. -/
theorem documentOverrun_replicate (limit depth : Nat) {n : Nat} (hn : depth < n) (t : Text) :
    DocumentOverrun limit depth (List.replicate n (CodePoint.ofChar '[') ++ t)
      (.tooDeep .list) := by
  induction depth generalizing n with
  | zero =>
    obtain ⟨n, rfl⟩ : ∃ k, n = k + 1 := ⟨n - 1, by omega⟩
    exact Or.inr .list
  | succ depth ih =>
    obtain ⟨n, rfl⟩ : ∃ k, n = k + 2 := ⟨n - 2, by omega⟩
    refine Or.inr (.list (.here ?_))
    have hskip : skipGap (List.replicate (n + 1) (CodePoint.ofChar '[') ++ t) =
        List.replicate (n + 1) (CodePoint.ofChar '[') ++ t := skipGap_cons (by decide) _
    rw [List.append_eq, hskip]
    exact ih (by omega)

variable [Nesting]

theorem overruns_replicate {n : Nat} (hn : Nesting.levels < n) (t : Text) :
    Overruns (List.replicate n (CodePoint.ofChar '[') ++ t) (.tooDeep .list) := by
  obtain ⟨n, rfl⟩ : ∃ k, n = k + 1 := ⟨n - 1, by omega⟩
  have hskip : skipGap (List.replicate (n + 1) (CodePoint.ofChar '[') ++ t) =
      List.replicate (n + 1) (CodePoint.ofChar '[') ++ t := skipGap_cons (by decide) _
  rw [Overruns, hskip]
  exact documentOverrun_replicate digitLimit Nesting.levels hn t

/-- A whole number with too many digits overruns the limits. -/
theorem overruns_ones {n : Nat} (hn : digitLimit < n) :
    Overruns (List.replicate n (CodePoint.ofChar '1')) (.tooLong n) := by
  obtain ⟨n, rfl⟩ : ∃ k, n = k + 1 := ⟨n - 1, by omega⟩
  have hskip : skipGap (List.replicate (n + 1) (CodePoint.ofChar '1')) =
      List.replicate (n + 1) (CodePoint.ofChar '1') := skipGap_cons (by decide) _
  have hwhole : IsWhole (List.replicate (n + 1) (CodePoint.ofChar '1')) := by
    refine Or.inr ⟨⟨List.cons_ne_nil _ _, fun d hd => ?_⟩, ?_⟩
    swap
    · rw [List.replicate_succ, List.head?_cons]
      decide
    rw [List.eq_of_mem_replicate hd]
    decide
  have hlong : LongNumber digitLimit ([] ++ (List.replicate (n + 1) (CodePoint.ofChar '1') ++ []))
      (.tooLong (List.replicate (n + 1) (CodePoint.ofChar '1')).length) :=
    .intro .none hwhole (by rwa [List.length_replicate]) (fun h => nomatch h)
  rw [List.length_replicate, List.append_nil, List.nil_append] at hlong
  rw [Overruns, hskip]
  exact .of_longNumber hlong

end Large

end Json

namespace KeyIndex

/-- The annotation has these key IDs: it is `null`, or an object of texts. -/
def IsAliases (raw : Text) (aliases : KeyMap Text) : Prop :=
  (Json.IsDocument raw .null ∧ aliases = .empty) ∨
    Json.IsDocument raw (.object (aliases.map Json.text).entries)

section Annotations

variable {resource : Option Text} {raw : Text}

theorem keyIds_eq_ok_iff {members : List (Text × Json)} {ids : List (Text × Text)} :
    keyIds resource members = .ok ids ↔ members = ids.map fun e => (e.1, Json.text e.2) := by
  constructor
  · intro h
    induction members generalizing ids with
    | nil =>
      cases h
      rfl
    | cons e members ih =>
      obtain ⟨remote, j⟩ := e
      cases j with
      | text keyId =>
        rw [keyIds] at h
        cases hrest : keyIds resource members with
        | error e =>
          rw [hrest] at h
          cases h
        | ok rest =>
          rw [hrest] at h
          cases h
          rw [List.map_cons, ← ih hrest]
      | null | bool | int | real | list | object => cases h
  · rintro rfl
    exact keyIds_texts resource ids

theorem error_of_keyIds {members : List (Text × Json)} {e : Raised}
    (h : keyIds resource members = .error e) :
    ∃ reason causes, reason ≠ [] ∧ e = ⟨.index (.malformedAliases resource reason), causes⟩ := by
  induction members with
  | nil => cases h
  | cons m members ih =>
    obtain ⟨remote, j⟩ := m
    cases j with
    | text keyId =>
      rw [keyIds] at h
      cases hrest : keyIds resource members with
      | error e' =>
        rw [hrest] at h
        cases h
        exact ih hrest
      | ok rest =>
        rw [hrest] at h
        cases h
    | null | bool | int | real | list | object =>
      cases h
      exact ⟨_, [], by simp [Text.ofString], rfl⟩

variable [Json.Nesting]

theorem isAliases_iff_of_not_overruns {aliases : KeyMap Text} :
    (IsAliases raw aliases ∧ ∀ r, ¬ Json.Overruns raw r) ↔
      (Json.read raw = .ok .null ∧ aliases = .empty) ∨
        Json.read raw = .ok (.object (aliases.map Json.text).entries) := by
  rw [Json.read_eq_ok_iff_isDocument, Json.read_eq_ok_iff_isDocument, IsAliases]
  constructor
  · rintro ⟨⟨hnull, hempty⟩ | hobject, hlimits⟩
    · exact Or.inl ⟨⟨hnull, hlimits⟩, hempty⟩
    · exact Or.inr ⟨hobject, hlimits⟩
  · rintro (⟨⟨hnull, hlimits⟩, hempty⟩ | ⟨hobject, hlimits⟩)
    · exact ⟨Or.inl ⟨hnull, hempty⟩, hlimits⟩
    · exact ⟨Or.inr hobject, hlimits⟩

/-- Key IDs are found in an annotation that has them and overruns no limit. -/
theorem readAliases_eq_ok_iff {aliases : KeyMap Text} :
    readAliases resource raw = .ok aliases ↔
      IsAliases raw aliases ∧ ∀ r, ¬ Json.Overruns raw r := by
  rw [isAliases_iff_of_not_overruns, readAliases]
  cases hread : Json.read raw with
  | error r => cases r <;> simp only [reduceCtorEq, false_and, or_self]
  | ok j =>
    cases j with
    | null => simp only [Except.ok.injEq, true_and, reduceCtorEq, or_false, eq_comm]
    | object members =>
      simp only [Except.ok.injEq, reduceCtorEq, false_and, false_or, Json.object.injEq]
      have hnodup := Json.nodup_of_read hread
      constructor
      · intro h
        cases hids : keyIds resource members with
        | error e =>
          rw [hids] at h
          cases h
        | ok ids =>
          rw [hids] at h
          obtain rfl := Except.ok.inj h
          obtain rfl := keyIds_eq_ok_iff.1 hids
          rw [List.map_map] at hnodup
          exact (congrArg (List.map fun e => (e.1, Json.text e.2))
            (Table.entries_ofList hnodup)).symm
      · rintro rfl
        have hids : keyIds resource (aliases.map Json.text).entries = .ok aliases.entries :=
          keyIds_eq_ok_iff.2 rfl
        rw [hids]
        exact congrArg Except.ok (Table.ofList_entries aliases)
    | bool | int | real | text | list =>
      simp only [reduceCtorEq, Except.ok.injEq, false_and, or_self]

/-- The reader gives up on an annotation where a limit is overrun, and the failure is its own. -/
theorem readAliases_of_overruns (resource : Option Text) {r : Json.Refusal}
    (h : Json.Overruns raw r) : readAliases resource raw = .error ⟨.json r, []⟩ := by
  obtain ⟨hread, hflaw⟩ := Json.read_eq_error_iff_overruns.2 h
  rw [readAliases, hread]
  cases r with
  | malformed flaw => exact absurd rfl (hflaw flaw)
  | tooDeep | tooLong => rfl

/-- There are two kinds of failure. -/
theorem kind_of_readAliases_error {e : Raised} (h : readAliases resource raw = .error e) :
    (∃ r, Json.Overruns raw r ∧ e = ⟨.json r, []⟩) ∨
      ∃ reason causes, reason ≠ [] ∧
        e = ⟨.index (.malformedAliases resource reason), causes⟩ := by
  rw [readAliases] at h
  cases hread : Json.read raw with
  | error r =>
    rw [hread] at h
    cases r with
    | malformed flaw =>
      cases h
      exact Or.inr ⟨flaw.message, _, by cases flaw <;> decide, rfl⟩
    | tooDeep | tooLong =>
      cases h
      exact Or.inl ⟨_, Json.read_eq_error_iff_overruns.1 ⟨hread, fun _ h => nomatch h⟩, rfl⟩
  | ok j =>
    rw [hread] at h
    cases j with
    | null => cases h
    | object members =>
      cases hids : keyIds resource members with
      | error e' =>
        simp only [hids] at h
        cases h
        exact Or.inr (error_of_keyIds hids)
      | ok ids =>
        simp only [hids] at h
        cases h
    | bool | int | real | text | list =>
      cases h
      exact Or.inr ⟨_, [], by simp [Text.ofString], rfl⟩

end Annotations

section Secrets

variable {m : SecretStore} {cluster : Cluster} {s : Secret} {raw : Text}

/-- A Secret is found, and it has an aliases annotation. -/
structure Annotated (m : SecretStore) (cluster : Cluster) (s : Secret) (raw : Text) : Prop where
  found : m.secrets.get? cluster.secretKey = some s
  annotation : s.annotations.get? Naming.aliasesKey = some raw

theorem Annotated.indexOf [Json.Nesting] (h : Annotated m cluster s raw) :
    m.indexOf cluster = (readAliases (some s.namespacedName) raw).map fun aliases =>
      ⟨aliases, credentials s.data⟩ := by
  unfold SecretStore.indexOf ofSecret
  rw [h.found]
  simp only [h.annotation]

end Secrets

end KeyIndex

namespace Cli

variable {m : SecretStore} {e : Raised}

/-- The command comes to load the index of its cluster. -/
def LoadsIndex (r : Ready) : Prop :=
  match r.invocation.command with
  | .show => True
  | .set _ _ file => ∃ key, readKey r.place file = .ok key
  | .delete _ => True
  | .keystore => False

/-- How a command ends if the index of its cluster cannot be loaded. -/
structure Unreadable (r : Ready) (m : SecretStore) (e : Raised) (printed : Except Raised Text)
    (m' : SecretStore) : Prop where
  unchanged : m' = m
  loads : LoadsIndex r → printed = .error e
  refused : ¬ LoadsIndex r → ∃ f, printed = .error ⟨f, []⟩ ∧ f.isReported = true

variable [Json.Nesting]

theorem ensures_load_error {β : Type} {f : KeyIndex → Action Store β} {cluster : Cluster}
    (h : m.indexOf cluster = .error e) :
    (KeyIndex.load cluster >>= f).run.Ensures answer m fun printed m' =>
      printed = .error e ∧ m' = m := by
  refine (Action.ensures_bind _ _ _ _).2 ((KeyIndex.ensures_load cluster m _).2 ?_)
  rw [h]
  exact ⟨rfl, rfl⟩

/-- A command that comes to load the index fails as it does, and writes nothing. -/
theorem ensures_perform_unreadable {r : Ready}
    (h : m.indexOf r.invocation.cluster = .error e) (hcommand : r.invocation.command ≠ .keystore) :
    (perform r.place r.settings.attempts r.invocation).run.Ensures answer m
      (Unreadable r m e) := by
  have hloaded : ∀ printed m', LoadsIndex r → printed = .error e ∧ m' = m →
      Unreadable r m e printed m' := by
    rintro printed m' hloads ⟨rfl, rfl⟩
    exact ⟨rfl, fun _ => rfl, fun hnot => absurd hloads hnot⟩
  unfold perform
  cases hc : r.invocation.command with
  | «show» =>
    have hloads : LoadsIndex r := by simp only [LoadsIndex, hc]
    exact Program.ensures_mono (ensures_load_error h) fun printed m' => hloaded printed m' hloads
  | delete remote =>
    have hloads : LoadsIndex r := by simp only [LoadsIndex, hc]
    exact Program.ensures_mono (ensures_load_error h) fun printed m' => hloaded printed m' hloads
  | set remote keyId file =>
    refine (Action.ensures_bind _ _ _ _).2 ((Action.ensures_ofExcept _ _ _).2 ?_)
    cases hf : readKey r.place file with
    | error f =>
      have hnot : ¬ LoadsIndex r := by
        simp only [LoadsIndex, hc, hf, reduceCtorEq, exists_false, not_false_eq_true]
      exact ⟨rfl, fun hloads => absurd hloads hnot,
        fun _ => ⟨f, rfl, isReported_of_readKey hf⟩⟩
    | ok key =>
      have hloads : LoadsIndex r := by
        simp only [LoadsIndex, hc]
        exact ⟨key, hf⟩
      exact Program.ensures_mono (ensures_load_error h) fun printed m' => hloaded printed m' hloads
  | keystore => exact absurd hc hcommand

theorem work_of_unreadable {r : Ready} (h : m.indexOf r.invocation.cluster = .error e)
    (hcommand : r.invocation.command ≠ .keystore) (w : Surroundings) :
    let run := SecretStore.run (work r) w m
    run.2.2 = m ∧ (LoadsIndex r → run.1 = conclude [] (some e)) ∧
      (¬ LoadsIndex r → ∃ f : Failure, run.1 = .ok ⟨1, [], line ("error: " ++ f.message)⟩) := by
  intro run
  obtain ⟨printed, hending, hunreadable⟩ := SecretStore.run_of_ensures
    (Registry.ensures_work (ensures_perform_unreadable h hcommand)) w
  refine ⟨hunreadable.unchanged, fun hloads => ?_, fun hnot => ?_⟩
  · rw [hunreadable.loads hloads] at hending
    exact hending
  · obtain ⟨f, hprinted, hreported⟩ := hunreadable.refused hnot
    rw [hprinted] at hending
    exact ⟨f, hending.trans (if_pos hreported)⟩

end Cli

namespace KeyIndex

/-- Key IDs are found in an annotation if and only if it has them and overruns no limit of the
reader.  Any other annotation is reported with the name of its Secret, unless it overruns a limit:
then the failure is the reader's own.  Loading fails as reading the annotation does, and the command
line reports the failure in one line with the code 1, unless lists and objects are nested too
deep: then the failure escapes it. -/
theorem bad_annotation_outcome [Json.Nesting] (raw : Text) :
    (∀ resource aliases, readAliases resource raw = .ok aliases ↔
      IsAliases raw aliases ∧ ∀ r, ¬ Json.Overruns raw r) ∧
    (∀ resource r, readAliases resource raw = .error ⟨.json r, []⟩ ↔ Json.Overruns raw r) ∧
    (∀ resource, (∀ aliases, ¬ IsAliases raw aliases) → (∀ r, ¬ Json.Overruns raw r) →
      ∃ reason causes, reason ≠ [] ∧
        readAliases resource raw = .error ⟨.index (.malformedAliases resource reason), causes⟩) ∧
    ∀ (m : SecretStore) (w : Surroundings) (s : Secret),
      (∀ cluster, Annotated m cluster s raw →
        (SecretStore.run (load cluster).run w m).1 =
          (readAliases (some s.namespacedName) raw).map fun aliases =>
            ⟨aliases, credentials s.data⟩) ∧
      ∀ (r : Cli.Ready) (e : Raised), Annotated m r.invocation.cluster s raw →
        r.invocation.command ≠ .keystore →
        readAliases (some s.namespacedName) raw = .error e →
        let run := SecretStore.run (Cli.work r) w m
        run.2.2 = m ∧
          ((∀ nest, ¬ Json.Overruns raw (.tooDeep nest)) → ∃ f : Failure,
            run.1 = .ok ⟨1, [], Cli.line ("error: " ++ f.message)⟩ ∧
              (Cli.LoadsIndex r → f = e.failure)) ∧
          ∀ nest, Json.Overruns raw (.tooDeep nest) → Cli.LoadsIndex r →
            run.1 = .error ⟨.json (.tooDeep nest), []⟩ := by
  refine ⟨fun resource aliases => readAliases_eq_ok_iff,
    fun resource r => ⟨fun h => ?_, readAliases_of_overruns resource⟩,
    fun resource hnone hlimits => ?_,
    fun m w s => ⟨fun cluster h => ?_, fun r e h hcommand he => ?_⟩⟩
  · rcases kind_of_readAliases_error h with ⟨r', hr', heq⟩ | ⟨reason, causes, -, heq⟩
    · cases heq
      exact hr'
    · cases heq
  · cases hread : readAliases resource raw with
    | ok aliases => exact absurd (readAliases_eq_ok_iff.1 hread).1 (hnone aliases)
    | error e =>
      rcases kind_of_readAliases_error hread with ⟨r, hr, -⟩ | ⟨reason, causes, hne, rfl⟩
      · exact absurd hr (hlimits r)
      · exact ⟨reason, causes, hne, rfl⟩
  · exact (run_load cluster w m).trans h.indexOf
  · have hindex : m.indexOf r.invocation.cluster = .error e := by
      rw [h.indexOf, he]
      rfl
    obtain ⟨hsame, hloads, hrefused⟩ := Cli.work_of_unreadable hindex hcommand w
    refine ⟨hsame, fun hshallow => ?_, fun nest hdeep hloading => ?_⟩
    · by_cases hloading : Cli.LoadsIndex r
      · have hreported : e.failure.isReported = true := by
          rcases kind_of_readAliases_error he with ⟨refusal, hrefusal, rfl⟩ | ⟨_, _, -, rfl⟩
          · cases refusal with
            | tooDeep nest => exact absurd hrefusal (hshallow nest)
            | malformed | tooLong => rfl
          · rfl
        exact ⟨e.failure, (hloads hloading).trans (if_pos hreported), fun _ => rfl⟩
      · obtain ⟨f, hf⟩ := hrefused hloading
        exact ⟨f, hf, fun h => absurd h hloading⟩
    · have hfailure := readAliases_of_overruns (some s.namespacedName) hdeep
      obtain rfl := Except.error.inj (he.symm.trans hfailure)
      exact hloads hloading

/-- A list is reported, brackets that are nested too deep escape the command line, and a number
with too many digits is reported, though not as an annotation. -/
theorem bad_annotation_outcome_brackets :
    ∃ settings, Settings.read .empty ⟨.empty⟩ = .ok settings ∧
    let brackets : Text :=
      List.replicate 3000 (CodePoint.ofChar '[') ++ List.replicate 3000 (CodePoint.ofChar ']')
    let ones : Text := List.replicate 4301 (CodePoint.ofChar '1')
    let r : Cli.Ready :=
      ⟨⟨.empty, ⟨.empty⟩, []⟩, ⟨none, none, "ns", "es", none, .show⟩, settings⟩
    let cluster := r.invocation.cluster
    let secret : Text → Secret := fun raw =>
      ⟨Naming.secretName cluster.name, cluster.namespace, .empty,
        Table.empty.insert Naming.aliasesKey raw, .empty, [], "uid-1", "1"⟩
    let store : Text → SecretStore := fun raw =>
      ⟨Table.empty.insert cluster.secretKey (secret raw), 1, fun _ => "uid-1", 1⟩
    ((∀ aliases, ¬ IsAliases "[]" aliases) ∧ (∀ r, ¬ Json.Overruns "[]" r) ∧
      ∃ reason causes, reason ≠ [] ∧ readAliases (some "ns/s") "[]" =
        .error ⟨.index (.malformedAliases (some "ns/s") reason), causes⟩) ∧
    (∀ raw, Annotated (store raw) cluster (secret raw) raw) ∧
    (SecretStore.run (Cli.work r) .bare (store brackets)).1 =
      .error ⟨.json (.tooDeep .list), []⟩ ∧
    (SecretStore.run (Cli.work r) .bare (store ones)).1 =
      .ok ⟨1, [], Cli.line ("error: " ++ (Failure.json (.tooLong 4301)).message)⟩ := by
  obtain ⟨settings, hsettings⟩ : ∃ settings, Settings.read .empty ⟨.empty⟩ = .ok settings :=
    ⟨_, rfl⟩
  refine ⟨settings, hsettings, ?_⟩
  intro brackets ones r cluster secret store
  have hread : Json.read "[]" = .ok (.list []) :=
    Json.read_eq_ok_iff.2 ⟨[], Or.inr (.emptyList rfl), rfl⟩
  have hlimits := (Json.read_eq_ok_iff_isDocument.1 hread).2
  have hnone : ∀ aliases, ¬ IsAliases "[]" aliases := by
    intro aliases h
    rcases isAliases_iff_of_not_overruns.1 ⟨h, hlimits⟩ with ⟨h, -⟩ | h
    · rw [hread] at h
      cases h
    · rw [hread] at h
      cases h
  have hannotated : ∀ raw, Annotated (store raw) cluster (secret raw) raw := fun raw =>
    ⟨(Table.get?_insert _ _ _ _).trans (if_pos rfl), (Table.get?_insert _ _ _ _).trans (if_pos rfl)⟩
  have hcommand : r.invocation.command ≠ .keystore := fun h => nomatch h
  have hdeep : Json.Overruns brackets (.tooDeep .list) := Json.overruns_replicate (by decide) _
  have hlong : Json.Overruns ones (.tooLong 4301) := Json.overruns_ones (by decide)
  obtain ⟨-, -, hreported, -⟩ := bad_annotation_outcome "[]"
  obtain ⟨-, hgives, -, hbrackets⟩ := bad_annotation_outcome brackets
  obtain ⟨-, hgives', -, hones⟩ := bad_annotation_outcome ones
  refine ⟨⟨hnone, hlimits, hreported _ hnone hlimits⟩, hannotated, ?_, ?_⟩
  · obtain ⟨-, -, hescapes⟩ := (hbrackets (store brackets) .bare (secret brackets)).2 r _
      (hannotated brackets) hcommand ((hgives _ _).2 hdeep)
    exact hescapes .list hdeep trivial
  · have hshallow : ∀ nest, ¬ Json.Overruns ones (.tooDeep nest) := by
      intro nest hnest
      have hread := (hgives' none _).2 hnest
      rw [(hgives' none _).2 hlong] at hread
      cases hread
    obtain ⟨-, hline, -⟩ := (hones (store ones) .bare (secret ones)).2 r _
      (hannotated ones) hcommand ((hgives' _ _).2 hlong)
    obtain ⟨f, hf, heq⟩ := hline hshallow
    rw [hf, heq trivial]

/-- A number with too many digits and brackets that are nested too deep neither have key IDs nor are
reported with the name of the Secret. -/
theorem bad_annotation_unreported :
    let isAnswered : Text → Prop := fun raw =>
      (∃ aliases, readAliases (some "default/keys") raw = .ok aliases) ∨
        ∃ reason causes, readAliases (some "default/keys") raw =
          .error ⟨.index (.malformedAliases (some "default/keys") reason), causes⟩
    ¬ isAnswered (List.replicate 4301 (CodePoint.ofChar '1')) ∧
      ¬ isAnswered (List.replicate 3000 (CodePoint.ofChar '[') ++
        List.replicate 3000 (CodePoint.ofChar ']')) := by
  intro isAnswered
  have key : ∀ raw r, Json.Overruns raw r → ¬ isAnswered raw := by
    intro raw r hr h
    have hread := readAliases_of_overruns (some "default/keys") hr
    rcases h with ⟨aliases, h⟩ | ⟨reason, causes, h⟩
    · cases hread.symm.trans h
    · cases hread.symm.trans h
  exact ⟨key _ _ (Json.overruns_ones (by decide)), key _ _ (Json.overruns_replicate (by decide) _)⟩

end KeyIndex
end CrossClusterKeys
