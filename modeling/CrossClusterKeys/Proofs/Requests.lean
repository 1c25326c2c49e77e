import CrossClusterKeys.KeyIndex.Persistence
import CrossClusterKeys.Proofs.Execution

/-!
# What is asked after a read

The removal of a Secret and an attempt to bring it to an expected state begin with a read, and the
reply decides what is asked next.

**Input.**  Whatever answers the calls, and its reply to the read.

**Results.**
* `ensures_attempt_missing`, `ensures_attempt_current`, `ensures_attempt_outdated`: what is left of
  an attempt after each reply.
* `ensures_discard_error`, `ensures_discard_found`: what is left of a removal.
-/

namespace CrossClusterKeys

variable {σ : Type} {h : (c : Store.Call) → σ → Store.Answer c × σ} {x : σ}

namespace Convergence

variable {desired : Secret} {Q : Except Raised Secret → σ → Prop}

theorem ensures_attempt_missing {e : Raised}
    (hget : (h (.get desired.namespace desired.name) x).1 = (.error e : Except Raised Secret))
    (he : e.isNotFound = true) :
    (attempt desired).run.Ensures h x Q ↔
      Q (h (.create desired) (h (.get desired.namespace desired.name) x).2).1
        (h (.create desired) (h (.get desired.namespace desired.name) x).2).2 := by
  refine (Program.ensures_bind _ _ _ _).trans ((Program.ensures_call _ _ _).trans ?_)
  rw [hget]
  simp only [he, if_true]
  exact Iff.rfl

theorem ensures_attempt_current {s : Secret}
    (hget : (h (.get desired.namespace desired.name) x).1 = (.ok s : Except Raised Secret))
    (hcurrent : desired.outdated s = false) :
    (attempt desired).run.Ensures h x Q ↔
      Q (.ok s) (h (.get desired.namespace desired.name) x).2 := by
  refine (Program.ensures_bind _ _ _ _).trans ((Program.ensures_call _ _ _).trans ?_)
  rw [hget]
  simp only [hcurrent, Bool.false_eq_true, if_false]
  exact Iff.rfl

theorem ensures_attempt_outdated {s : Secret}
    (hget : (h (.get desired.namespace desired.name) x).1 = (.ok s : Except Raised Secret))
    (hold : desired.outdated s = true) :
    (attempt desired).run.Ensures h x Q ↔
      Q (h (.update (desired.overlay s)) (h (.get desired.namespace desired.name) x).2).1
        (h (.update (desired.overlay s)) (h (.get desired.namespace desired.name) x).2).2 := by
  refine (Program.ensures_bind _ _ _ _).trans ((Program.ensures_call _ _ _).trans ?_)
  rw [hget]
  simp only [hold, if_true]
  exact Iff.rfl

end Convergence

namespace KeyIndex

variable {cluster : Cluster}

/-- The result of a removal: a Secret that is missing is no failure. -/
def removalResult : Except Raised Unit → Except Raised Unit
  | .error e => if e.isNotFound then .ok () else .error e
  | .ok _ => .ok ()

variable {Q : Except Raised Unit → σ → Prop}

theorem ensures_discard_error {e : Raised}
    (hget : (h (.get cluster.namespace (Naming.secretName cluster.name)) x).1 =
      (.error e : Except Raised Secret)) :
    (discard cluster).run.Ensures h x Q ↔
      Q (removalResult (.error e))
        (h (.get cluster.namespace (Naming.secretName cluster.name)) x).2 := by
  refine (Program.ensures_bind _ _ _ _).trans ((Program.ensures_call _ _ _).trans ?_)
  rw [hget]
  exact Iff.rfl

theorem ensures_discard_found {s : Secret}
    (hget : (h (.get cluster.namespace (Naming.secretName cluster.name)) x).1 =
      (.ok s : Except Raised Secret)) :
    let fetched := h (.get cluster.namespace (Naming.secretName cluster.name)) x
    let deleted :=
      h (.delete cluster.namespace (Naming.secretName cluster.name) (some s.uid)) fetched.2
    (discard cluster).run.Ensures h x Q ↔ Q (removalResult deleted.1) deleted.2 := by
  intro fetched deleted
  refine (Program.ensures_bind _ _ _ _).trans ((Program.ensures_call _ _ _).trans ?_)
  rw [hget]
  refine (Program.ensures_bind _ _ _ _).trans ((Program.ensures_call _ _ _).trans ?_)
  split
  · next e he =>
    rw [show deleted.1 = (.error e : Except Raised Unit) from he]
    exact Iff.rfl
  · next u hu =>
    rw [show deleted.1 = (.ok u : Except Raised Unit) from hu]
    exact Iff.rfl

end KeyIndex
end CrossClusterKeys
