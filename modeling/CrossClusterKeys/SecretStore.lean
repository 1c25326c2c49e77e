import CrossClusterKeys.StoreCall

/-!
# A resource store in memory

The store keeps its Secrets in a table.  It gives every new Secret a UID and every write a version.

**Rules.**
* A UID is given on creation and stays until the Secret is deleted; an update cannot change it.
* Versions are numbered from 1 through all writes of the store and never given twice.
* An update that names a version fails if that version is no longer the stored one; a deletion
  that names a UID fails if the Secret was created anew.

**Results.**
* `create_error`, `update_error`, `delete_error`: a call that fails changes nothing.
-/

namespace CrossClusterKeys

/-- The Secrets of a store, with what it gives next. -/
structure SecretStore where
  /-- The Secrets by namespace and name. -/
  secrets : Table (Text × Text) Secret
  /-- The number of versions given so far. -/
  versions : Nat
  /-- The UIDs that can be drawn. -/
  uids : Nat → Text
  /-- The number of UIDs drawn so far. -/
  drawn : Nat

namespace SecretStore

/-- The name of this store in failures and in the log. -/
def backend : Text := "memory"

/-- The logger of this module. -/
def logger : Text := "libs.k8s.memory_backend"

/-- The store without Secrets. -/
def empty (uids : Nat → Text) : SecretStore := ⟨.empty, 0, uids, 0⟩

/-- The namespace and name under which a Secret is stored. -/
def keyOf (s : Secret) : Text × Text := (s.namespace, s.name)

/-- The failure of a call for a Secret that does not exist. -/
def missing (resource : Text) : Raised := .ofStore (.notFound resource backend [])

/-- The failure of a call whose precondition does not hold. -/
def clash (resource reason : Text) : Raised := .ofStore (.conflict resource backend reason)

/-- The stored Secret of a name. -/
def get (m : SecretStore) («namespace» name : Text) : Except Raised Secret :=
  match m.secrets.get? («namespace», name) with
  | some s => .ok s
  | none => .error (missing (namespaced «namespace» name))

/-- The next version. -/
def nextVersion (m : SecretStore) : Text := Digits.ofNat (m.versions + 1)

/-- The next UID. -/
def nextUid (m : SecretStore) : Text := m.uids (m.drawn + 1)

/-- The Secret as a new one of this store. -/
def newborn (m : SecretStore) (s : Secret) : Secret :=
  { s with uid := m.nextUid, version := m.nextVersion }

/-- The Secret as the next version of the stored one. -/
def successor (m : SecretStore) (current s : Secret) : Secret :=
  { s with uid := current.uid, version := m.nextVersion }

/-- Stores a new Secret. -/
def create (m : SecretStore) (s : Secret) : Except Raised Secret × SecretStore :=
  match m.secrets.get? (keyOf s) with
  | some _ => (.error (clash s.namespacedName "secret already exists"), m)
  | none =>
    (.ok (m.newborn s),
      { m with
        secrets := m.secrets.insert (keyOf s) (m.newborn s)
        versions := m.versions + 1
        drawn := m.drawn + 1 })

/-- Whether a Secret may replace the stored one: it names no version, or the stored one. -/
def isCurrent (current s : Secret) : Bool := s.version.isEmpty || s.version = current.version

/-- Replaces a stored Secret. -/
def update (m : SecretStore) (s : Secret) : Except Raised Secret × SecretStore :=
  match m.secrets.get? (keyOf s) with
  | none => (.error (missing s.namespacedName), m)
  | some current =>
    if isCurrent current s then
      (.ok (m.successor current s),
        { m with
          secrets := m.secrets.insert (keyOf s) (m.successor current s)
          versions := m.versions + 1 })
    else
      (.error (clash s.namespacedName
        ("resourceVersion " ++ s.version ++ " is stale (current: " ++ current.version ++ ")")), m)

/-- Removes a stored Secret. -/
def delete (m : SecretStore) («namespace» name : Text) (uid : Option Text) :
    Except Raised Unit × SecretStore :=
  match m.secrets.get? («namespace», name) with
  | none => (.error (missing (namespaced «namespace» name)), m)
  | some current =>
    match uid with
    | some u =>
      if u = current.uid then
        (.ok (), { m with secrets := m.secrets.erase («namespace», name) })
      else
        (.error (clash (namespaced «namespace» name)
          ("UID precondition failed (expected " ++ u ++ ", found " ++ current.uid ++ ")")), m)
    | none => (.ok (), { m with secrets := m.secrets.erase («namespace», name) })

/-- The answer to a call, and the store after it. -/
def answer (c : StoreCall) (m : SecretStore) : c.Answer × SecretStore :=
  match c with
  | .get n s => (m.get n s, m)
  | .create s => m.create s
  | .update s => m.update s
  | .delete n s u => m.delete n s u
  | .close => (.ok (), m)

/-- The store with several new Secrets, refused at the first that exists already. -/
def createAll (m : SecretStore) : List Secret → Except Raised SecretStore
  | [] => .ok m
  | s :: ss =>
    match m.create s with
    | (.ok _, m) => m.createAll ss
    | (.error e, _) => .error e

/-- What is logged about a write. -/
def writeEvent (what resource : Text) : Log.Event :=
  .plain logger Level.debug what [("resource", .text resource), ("backend", .text backend)]

/-- What is logged about a call that is answered without a failure. -/
def report? : StoreCall → Option Log.Event
  | .get .. => none
  | .create s => some (writeEvent "Secret created" s.namespacedName)
  | .update s => some (writeEvent "Secret updated" s.namespacedName)
  | .delete n s _ => some (writeEvent "Secret deleted" (namespaced n s))
  | .close => none

/-- Reports a call to the log if it is a write that was answered without a failure. -/
def report {S : Service} (c : StoreCall) (a : c.Answer) : Program S Unit :=
  match report? c with
  | some e => if c.succeeded a then Program.log e else pure ()
  | none => pure ()

/-- A call that is reported to the log if it writes. -/
def reported (c : StoreCall) : Program Store c.Answer := do
  let a ← Program.call (S := Store) c
  report c a
  return a

/-- The answer to a call, reported to the log if it writes, and the store after it. -/
def respond {S : Service} (c : StoreCall) (m : SecretStore) :
    Program S (c.Answer × SecretStore) := do
  report c (answer c m).1
  return answer c m

/-- A program over this store, with the writes reported to the log. -/
def run {α : Type} (p : Program Store α) (w : Surroundings) (m : SecretStore) :
    α × Surroundings × SecretStore :=
  (p.serve reported).run answer w m

theorem create_error {m n : SecretStore} {s : Secret} {e : Raised}
    (h : m.create s = (.error e, n)) : n = m := by
  unfold create at h
  split at h <;> simp_all

theorem update_error {m n : SecretStore} {s : Secret} {e : Raised}
    (h : m.update s = (.error e, n)) : n = m := by
  unfold update at h
  split at h
  · simp_all
  · split at h <;> simp_all

theorem delete_error {m n : SecretStore} {ns name : Text} {uid : Option Text} {e : Raised}
    (h : m.delete ns name uid = (.error e, n)) : n = m := by
  unfold delete at h
  split at h
  · simp_all
  · split at h
    · split at h <;> simp_all
    · simp_all

end SecretStore
end CrossClusterKeys
