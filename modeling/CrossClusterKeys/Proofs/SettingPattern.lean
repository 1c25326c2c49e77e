import CrossClusterKeys.Proofs.Edits
import CrossClusterKeys.Proofs.Execution
import CrossClusterKeys.Text.Pattern

/-!
# Settings and their aliases as patterns

**Input.**  Any text: an alias to record, or the name of a data entry.

**Patterns.**  An alias is a run of ASCII letters, digits, `_` and `-`.  The name of a credential is
such a run, captured as a group, between a fixed start and a fixed end, and both ends of the text
are anchored.

**Results.**
* `isAlias_iff_fullMatch`, `aliasOf?_eq_some_iff_fullMatch`: the two tests that are run are full
  matches of the patterns.
* `aliasOf_eq_ok_iff`: which values may be recorded as aliases.
* `settingPattern_names_aliases`: names of settings and aliases correspond one to one, and recording
  and loading agree on them.
-/

namespace CrossClusterKeys

open Pattern (matches_start matches_stop matches_literal matches_literal_seq matches_oneOrMore
  matches_group matches_seq)

/-- A code point as a letter, a digit, an underscore or a dash of ASCII. -/
def CodePoint.IsAliasCharacter (c : CodePoint) : Prop :=
  ∃ ch : Char, c = CodePoint.ofChar ch ∧ (ch.isAlphanum = true ∨ ch = '_' ∨ ch = '-')

namespace Naming

/-- What an alias is made of. -/
def aliasBracket : List BracketItem := [.word, .point '-']

/-- The pattern of an alias. -/
def aliasPattern : Pattern := .oneOrMore aliasBracket

/-- The pattern of the name of a credential; its group captures the alias. -/
def settingPattern : Pattern :=
  .seq .start (.seq (.literal "cluster.remote.")
    (.seq (.group (.oneOrMore aliasBracket)) (.seq (.literal ".credentials") .stop)))

section Characters

theorem admits_aliasBracket_iff (c : CodePoint) :
    (∃ i ∈ aliasBracket, i.Admits c) ↔ c.IsAliasCharacter := by
  unfold aliasBracket CodePoint.IsAliasCharacter
  constructor
  · rintro ⟨i, hi, hadmits⟩
    rcases List.mem_cons.1 hi with rfl | hi
    · obtain ⟨ch, rfl, hch⟩ := hadmits
      exact ⟨ch, rfl, hch.imp_right Or.inl⟩
    · rw [List.mem_singleton.1 hi] at hadmits
      exact ⟨'-', hadmits, Or.inr (Or.inr rfl)⟩
  · rintro ⟨ch, rfl, hch | hch | rfl⟩
    · exact ⟨.word, List.mem_cons_self, ch, rfl, Or.inl hch⟩
    · exact ⟨.word, List.mem_cons_self, ch, rfl, Or.inr hch⟩
    · exact ⟨.point '-', List.mem_cons_of_mem _ List.mem_cons_self, rfl⟩

theorem isAliasPoint_of_isAliasCharacter {c : CodePoint} (h : c.IsAliasCharacter) :
    isAliasPoint c = true := by
  obtain ⟨ch, rfl, hch⟩ := h
  have hval : (CodePoint.ofChar ch).val = ch.val.toNat := rfl
  simp only [isAliasPoint, Bool.or_eq_true, Bool.and_eq_true, decide_eq_true_eq, hval]
  rcases hch with hch | rfl | rfl
  · rcases Bool.or_eq_true_iff.1 hch with hletter | hdigit
    · rcases Bool.or_eq_true_iff.1 hletter with hupper | hlower
      · have hbounds : 65 ≤ ch.val.toNat ∧ ch.val.toNat ≤ 90 := of_decide_eq_true hupper
        omega
      · have hstart : 97 ≤ ch.val.toNat := of_decide_eq_true (Bool.and_eq_true_iff.1 hlower).1
        have hstop : ch.val.toNat ≤ 122 := of_decide_eq_true (Bool.and_eq_true_iff.1 hlower).2
        omega
    · have hstart : 48 ≤ ch.val.toNat := of_decide_eq_true (Bool.and_eq_true_iff.1 hdigit).1
      have hstop : ch.val.toNat ≤ 57 := of_decide_eq_true (Bool.and_eq_true_iff.1 hdigit).2
      omega
  · decide
  · decide

/-- The code points of an alias are ASCII, so there are few enough to look at each one. -/
theorem isAliasCharacter_of_isAliasPoint {c : CodePoint} (h : isAliasPoint c = true) :
    c.IsAliasCharacter := by
  have hchars : ∀ n < 128, isAliasPoint (.ofNat n) = true →
      CodePoint.ofNat n = CodePoint.ofChar (Char.ofNat n) ∧
        ((Char.ofNat n).isAlphanum = true ∨ Char.ofNat n = '_' ∨ Char.ofNat n = '-') := by
    decide +kernel
  have hof : CodePoint.ofNat c.val = c := by
    unfold CodePoint.ofNat
    rw [dif_pos c.isLt]
  obtain ⟨heq, hch⟩ := hchars c.val (lt_of_isAliasPoint h) (hof.symm ▸ h)
  exact ⟨Char.ofNat c.val, hof.symm.trans heq, hch⟩

theorem isAliasPoint_iff (c : CodePoint) : isAliasPoint c = true ↔ c.IsAliasCharacter :=
  ⟨isAliasCharacter_of_isAliasPoint, isAliasPoint_of_isAliasCharacter⟩

theorem isAlias_iff (a : Text) :
    isAlias a = true ↔ a ≠ [] ∧ ∀ c ∈ a, c.IsAliasCharacter := by
  unfold isAlias
  rw [Bool.and_eq_true, List.all_eq_true, Bool.not_eq_true', List.isEmpty_eq_false_iff]
  simp only [isAliasPoint_iff]

end Characters

section Matches

theorem matches_alias {before t after : Text} {captures : List Text} :
    (Pattern.oneOrMore aliasBracket).Matches before t after captures ↔
      isAlias t = true ∧ captures = [] := by
  rw [matches_oneOrMore, isAlias_iff, and_assoc]
  simp only [admits_aliasBracket_iff]

/-- An alias is what the pattern of aliases matches. -/
theorem isAlias_iff_fullMatch (a : Text) : isAlias a = true ↔ aliasPattern.FullMatch a [] :=
  (matches_alias.trans (and_iff_left rfl)).symm

instance (a : Text) : Decidable (aliasPattern.FullMatch a []) :=
  decidable_of_iff _ (isAlias_iff_fullMatch a)

/-- What a text needs to be matched piece by piece. -/
theorem fullMatch_pieces {s : Text} {captures : List Text} :
    settingPattern.FullMatch s captures ↔
      (Pattern.seq .start (.seq (.literal settingStart)
        (.seq (.group (.oneOrMore aliasBracket)) (.seq (.literal settingEnd) .stop)))).Matches
          [] s [] captures :=
  Iff.rfl

/-- The pattern of settings matches the names of credentials, and captures the alias. -/
theorem fullMatch_settingPattern {s : Text} {captures : List Text} :
    settingPattern.FullMatch s captures ↔
      ∃ a, captures = [a] ∧ s = settingName a ∧ isAlias a = true := by
  rw [fullMatch_pieces]
  constructor
  · intro h
    obtain ⟨_, _, _, _, rfl, rfl, hstart, hsetting⟩ := matches_seq.1 h
    obtain ⟨-, rfl, rfl⟩ := matches_start.1 hstart
    obtain ⟨_, rfl, hnamed⟩ := matches_literal_seq.1 hsetting
    obtain ⟨a, _, _, _, rfl, rfl, hgroup, hrest⟩ := matches_seq.1 hnamed
    obtain ⟨_, rfl, halias⟩ := matches_group.1 hgroup
    obtain ⟨ha, rfl⟩ := matches_alias.1 halias
    obtain ⟨_, rfl, hstop⟩ := matches_literal_seq.1 hrest
    -- Nothing follows a full match, not even a line feed.
    obtain ⟨rfl, -, rfl⟩ := matches_stop.1 hstop
    refine ⟨a, List.append_nil _, ?_, ha⟩
    rw [settingName, List.append_nil, List.append_assoc, List.nil_append]
  · rintro ⟨a, rfl, rfl, ha⟩
    refine matches_seq.2 ⟨[], settingName a, [], [a], (List.nil_append _).symm, rfl, .start, ?_⟩
    refine matches_literal_seq.2 ⟨a ++ settingEnd, ?_, ?_⟩
    · rw [settingName, List.append_assoc]
    refine matches_seq.2 ⟨a, settingEnd, [a], [], rfl, rfl, ?_, ?_⟩
    · exact matches_group.2 ⟨[], rfl, matches_alias.2 ⟨ha, rfl⟩⟩
    · exact matches_literal_seq.2 ⟨[], (List.append_nil _).symm, .stop⟩

/-- The alias that is found in a setting is what the pattern captures. -/
theorem aliasOf?_eq_some_iff_fullMatch {s a : Text} :
    aliasOf? s = some a ↔ settingPattern.FullMatch s [a] := by
  rw [aliasOf?_eq_some, fullMatch_settingPattern]
  constructor
  · rintro ⟨hs, ha⟩
    exact ⟨a, rfl, hs, ha⟩
  · rintro ⟨_, heq, hs, ha⟩
    cases heq
    exact ⟨hs, ha⟩

theorem aliasOf?_eq_none_iff {s : Text} :
    aliasOf? s = none ↔ ∀ captures, ¬ settingPattern.FullMatch s captures := by
  rw [Option.eq_none_iff_forall_ne_some]
  constructor
  · intro hnone captures h
    obtain ⟨a, rfl, -⟩ := fullMatch_settingPattern.1 h
    exact hnone a (aliasOf?_eq_some_iff_fullMatch.2 h)
  · intro hnone a ha
    exact hnone [a] (aliasOf?_eq_some_iff_fullMatch.1 ha)

end Matches

end Naming

namespace KeyIndex

/-- A value is used as an alias exactly if it is a text that the pattern of aliases matches. -/
theorem aliasOf_eq_ok_iff {v : Value} {a : Text} :
    aliasOf v = .ok a ↔ v = .text a ∧ Naming.aliasPattern.FullMatch a [] := by
  rw [← Naming.isAlias_iff_fullMatch]
  unfold aliasOf
  constructor
  · intro h
    split at h
    · next t =>
      by_cases ht : Naming.isAlias t = true
      · rw [if_pos ht] at h
        cases h
        exact ⟨rfl, ht⟩
      · rw [if_neg ht] at h
        cases h
    · cases h
  · rintro ⟨rfl, ha⟩
    exact if_pos ha

theorem record_isOk_iff (x : KeyIndex) (a keyId credential : Text) :
    (∃ y, x.record a keyId credential = .ok y) ↔ Naming.aliasPattern.FullMatch a [] := by
  rw [← Naming.isAlias_iff_fullMatch]
  constructor
  · rintro ⟨y, hy⟩
    exact (record_aliases hy).1
  · intro ha
    exact ⟨_, record_of_isAlias ha keyId credential⟩

/-- The data entries that are passed over are those that the pattern of settings does not match. -/
theorem mem_unknownSettings {data : KeyMap (List UInt8)} {setting : Text} :
    setting ∈ unknownSettings data ↔
      setting ∈ data.keys ∧ ∀ captures, ¬ Naming.settingPattern.FullMatch setting captures := by
  unfold unknownSettings
  rw [List.mem_filter, Option.isNone_iff_eq_none, Naming.aliasOf?_eq_none_iff]

/-- The credentials that are loaded are the data entries that the pattern of settings matches, each
under the alias that is captured. -/
theorem get?_keys_of_ofSecret [Json.Nesting] {s : Secret} {x : KeyIndex} (h : ofSecret s = .ok x)
    (a c : Text) :
    x.keys.get? a = some c ↔
      ∃ setting bytes, Naming.settingPattern.FullMatch setting [a] ∧
        s.data.get? setting = some bytes ∧ c = Utf8.decode bytes := by
  simp only [keys_of_ofSecret h, ← Naming.aliasOf?_eq_some_iff_fullMatch, Naming.aliasOf?_eq_some]
  constructor
  · rintro ⟨ha, bytes, hbytes, hc⟩
    exact ⟨_, bytes, ⟨rfl, ha⟩, hbytes, hc⟩
  · rintro ⟨_, bytes, ⟨rfl, ha⟩, hbytes, hc⟩
    exact ⟨ha, bytes, hbytes, hc⟩

end KeyIndex

/-- The names of credentials and the aliases correspond one to one.  An alias is recorded exactly if
its setting is recognised, the alias that is captured there is itself, and no other setting gives
it.  What is loaded are the recognised settings, and all others are passed over. -/
theorem settingPattern_names_aliases [Json.Nesting] :
    (∀ s a : Text, Naming.settingPattern.FullMatch s [a] ↔
      s = Naming.settingName a ∧ a ≠ [] ∧ ∀ c ∈ a, c.IsAliasCharacter) ∧
    (∀ (x : KeyIndex) (a keyId credential : Text),
      (∃ y, x.record a keyId credential = .ok y) ↔
        ∃ captures, Naming.settingPattern.FullMatch (Naming.settingName a) captures) ∧
    (∀ (a : Text) captures,
      Naming.settingPattern.FullMatch (Naming.settingName a) captures → captures = [a]) ∧
    (∀ s s' a : Text, Naming.settingPattern.FullMatch s [a] →
      Naming.settingPattern.FullMatch s' [a] → s = s') ∧
    ∀ (cluster : Cluster) (w : Surroundings) (m : SecretStore) (s : Secret) (x : KeyIndex),
      m.secrets.get? cluster.secretKey = some s →
      (SecretStore.run (KeyIndex.load cluster).run w m).1 = .ok x →
      (∀ a c, x.keys.get? a = some c ↔
        ∃ setting bytes, Naming.settingPattern.FullMatch setting [a] ∧
          s.data.get? setting = some bytes ∧ c = Utf8.decode bytes) ∧
      ∀ setting, setting ∈ KeyIndex.unknownSettings s.data ↔
        setting ∈ s.data.keys ∧ ∀ captures, ¬ Naming.settingPattern.FullMatch setting captures := by
  have hmatch : ∀ s a : Text, Naming.settingPattern.FullMatch s [a] ↔
      s = Naming.settingName a ∧ a ≠ [] ∧ ∀ c ∈ a, c.IsAliasCharacter := by
    intro s a
    rw [← Naming.aliasOf?_eq_some_iff_fullMatch, Naming.aliasOf?_eq_some, Naming.isAlias_iff]
  have hcapture : ∀ (a : Text) captures,
      Naming.settingPattern.FullMatch (Naming.settingName a) captures → captures = [a] := by
    intro a captures h
    obtain ⟨b, rfl, hname, -⟩ := Naming.fullMatch_settingPattern.1 h
    rw [Naming.settingName_injective hname]
  refine ⟨hmatch, fun x a keyId credential => ?_, hcapture, fun s s' a hs hs' => ?_,
    fun cluster w m s x hs hx => ⟨KeyIndex.get?_keys_of_ofSecret ?_,
      fun setting => KeyIndex.mem_unknownSettings⟩⟩
  · rw [KeyIndex.record_isOk_iff, ← Naming.isAlias_iff_fullMatch]
    constructor
    · intro ha
      exact ⟨[a], Naming.fullMatch_settingPattern.2 ⟨a, rfl, rfl, ha⟩⟩
    · rintro ⟨captures, h⟩
      obtain rfl := hcapture a captures h
      exact (Naming.aliasOf?_eq_some.1 (Naming.aliasOf?_eq_some_iff_fullMatch.2 h)).2
  · rw [((hmatch s a).1 hs).1, ((hmatch s' a).1 hs').1]
  · rw [KeyIndex.run_load, SecretStore.indexOf, hs] at hx
    exact hx

/-- One of three data entries is the setting of an alias; the others have a dot in the name or a
line feed behind it. -/
theorem settingPattern_names_aliases_trailing :
    let data : KeyMap (List UInt8) := .ofList
      [("cluster.remote.a-1.credentials", [107]), ("cluster.remote.a.b.credentials", [108]),
        ("cluster.remote.a.credentials\n", [109])]
    let cluster : Cluster := ⟨"es", "ns", "uid", [], "v1", "Elasticsearch"⟩
    let m := (SecretStore.empty fun _ => "uid-1").after
      [.create ⟨"es-es-remote-api-keys", "ns", .empty, .empty, data, [], [], []⟩]
    ∃ s x, m.secrets.get? cluster.secretKey = some s ∧ s.data = data ∧
      (SecretStore.run (KeyIndex.load cluster).run .bare m).1 = .ok x ∧
      x.keys.entries = [(Text.ofString "a-1", Text.ofString "k")] ∧
      (∀ a c, x.keys.get? a = some c ↔
        ∃ setting bytes, Naming.settingPattern.FullMatch setting [a] ∧
          s.data.get? setting = some bytes ∧ c = Utf8.decode bytes) := by
  intro data cluster m
  let s : Secret := ⟨"es-es-remote-api-keys", "ns", .empty, .empty, data, [], "uid-1", "1"⟩
  have hs : m.secrets.get? cluster.secretKey = some s := by decide +kernel
  have hx : (SecretStore.run (KeyIndex.load cluster).run .bare m).1 =
      .ok ⟨.empty, KeyIndex.credentials data⟩ := by
    rw [KeyIndex.run_load, SecretStore.indexOf, hs]
    rfl
  exact ⟨s, _, hs, rfl, hx, by decide +kernel,
    (settingPattern_names_aliases.2.2.2.2 cluster .bare m s _ hs hx).1⟩

end CrossClusterKeys
