import CrossClusterKeys.Cluster

/-!
# Names of settings and their aliases

**Results.**
* `after?_append`, `eq_append_of_after?`: what follows a start is what was put behind it; the same
  for ends.
* `aliasOf?_eq_some`: a setting holds the credential of an alias exactly if it is that alias's
  setting.
* `settingName_injective`: two aliases never share a setting.
-/

namespace CrossClusterKeys
namespace Text

theorem after?_append (start t : Text) : after? start (start ++ t) = some t := by
  unfold after?
  rw [if_pos (List.isPrefixOf_iff_prefix.2 (List.prefix_append start t)), List.drop_left]

theorem eq_append_of_after? {start s t : Text} (h : after? start s = some t) : s = start ++ t := by
  simp only [after?] at h
  split at h
  · next hp =>
    obtain ⟨u, rfl⟩ := List.isPrefixOf_iff_prefix.1 hp
    rw [List.drop_left, Option.some.injEq] at h
    rw [h]
  · cases h

theorem before?_append (stop t : Text) : before? stop (t ++ stop) = some t := by
  unfold before?
  rw [if_pos (List.isSuffixOf_iff_suffix.2 (List.suffix_append t stop)), List.length_append,
    Nat.add_sub_cancel, List.take_left]

theorem eq_append_of_before? {stop s t : Text} (h : before? stop s = some t) : s = t ++ stop := by
  simp only [before?] at h
  split at h
  · next hp =>
    obtain ⟨u, rfl⟩ := List.isSuffixOf_iff_suffix.1 hp
    rw [List.length_append, Nat.add_sub_cancel, List.take_left, Option.some.injEq] at h
    rw [h]
  · cases h

end Text

namespace Naming

/-- An alias has ASCII code points only. -/
theorem lt_of_isAliasPoint {c : CodePoint} (h : isAliasPoint c = true) : c.val < 128 := by
  simp only [isAliasPoint, Bool.or_eq_true, Bool.and_eq_true, decide_eq_true_eq] at h
  rcases h with (((h | h) | h) | rfl) | rfl
  · omega
  · omega
  · omega
  · decide
  · decide

/-- A setting holds the credential of an alias exactly if it is that alias's setting. -/
theorem aliasOf?_eq_some {setting remote : Text} :
    aliasOf? setting = some remote ↔ setting = settingName remote ∧ isAlias remote = true := by
  unfold aliasOf? settingName
  simp only [Option.bind_eq_bind, Option.bind_eq_some_iff]
  constructor
  · rintro ⟨rest, hrest, found, hfound, h⟩
    split at h
    · next hname =>
      cases h
      rw [Text.eq_append_of_after? hrest, Text.eq_append_of_before? hfound, List.append_assoc]
      exact ⟨rfl, hname⟩
    · cases h
  · rintro ⟨rfl, hname⟩
    refine ⟨remote ++ settingEnd, ?_, remote, Text.before?_append _ _, by rw [if_pos hname]⟩
    rw [List.append_assoc]
    exact Text.after?_append _ _

theorem aliasOf?_settingName {remote : Text} (h : isAlias remote = true) :
    aliasOf? (settingName remote) = some remote :=
  aliasOf?_eq_some.2 ⟨rfl, h⟩

theorem settingName_injective {a b : Text} (h : settingName a = settingName b) : a = b := by
  unfold settingName at h
  rw [List.append_assoc, List.append_assoc] at h
  exact List.append_cancel_right (List.append_cancel_left h)

/-- Two clusters never share a namespace and the name of their Secret. -/
theorem secretKey_injective {«namespace» «namespace'» a b : Text}
    (h : («namespace», secretName a) = («namespace'», secretName b)) :
    «namespace» = «namespace'» ∧ a = b := by
  obtain ⟨hn, hs⟩ := Prod.mk.inj h
  exact ⟨hn, secretName_injective hs⟩

end Naming
end CrossClusterKeys
