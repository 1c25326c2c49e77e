import CrossClusterKeys.KeyIndex.Persistence

/-!
# A pass over the keys of a cluster

A pass makes the index of a cluster hold the keys that are expected, and nothing else.

**Algorithm.**  The index is loaded.  Aliases that are not expected are forgotten.  An expected
alias that is unknown is added; one whose key ID or key differs is rotated; all others are left as
they are.  Then the index is saved.  The whole pass runs under one reconcile ID.

**Rules.**
* Of several expected keys for one alias the last one counts.
* Added, rotated and removed aliases are reported in order.
-/

namespace CrossClusterKeys

/-- A key that was issued for an alias. -/
structure IssuedKey where
  remote : Text
  keyId : Text
  encoded : Text
  deriving DecidableEq

/-- The key as it is shown, without its secret part. -/
def IssuedKey.shown (k : IssuedKey) : Text :=
  Value.shownRecord "RemoteClusterKey"
    [("alias", Quoted.text k.remote), ("key_id", Quoted.text k.keyId)]

namespace Pass

/-- What a pass did, with the index it left. -/
structure Report where
  index : KeyIndex
  added : List Text
  rotated : List Text
  removed : List Text

namespace Report

/-- Whether anything was added, rotated or removed. -/
def changed (r : Report) : Bool := !(r.added.isEmpty && r.rotated.isEmpty && r.removed.isEmpty)

/-- The report as it is shown. -/
def shown (r : Report) : Text :=
  let aliases (ts : List Text) : Text := Value.shownTuple (ts.map Quoted.text)
  Value.shownRecord "ReconcileResult"
    [("store", r.index.shown), ("added", aliases r.added), ("rotated", aliases r.rotated),
      ("removed", aliases r.removed)]

end Report

/-- The logger of this module. -/
def logger : Text := "libs.remote_cluster.reconcile"

/-- The expected keys by alias. -/
def wanted (expected : List IssuedKey) : KeyMap IssuedKey :=
  .ofList (expected.map fun k => (k.remote, k))

/-- The aliases of the index that are not expected, in order. -/
def unwanted (x : KeyIndex) (keys : KeyMap IssuedKey) : List Text :=
  Text.sort (x.aliases.keys.filter fun remote => !keys.contains remote)

/-- The index without some aliases. -/
def forgetAll (x : KeyIndex) (aliases : List Text) : KeyIndex := aliases.foldl KeyIndex.forget x

/-- Whether the index has the alias with another key ID or key. -/
def isStale (x : KeyIndex) (k : IssuedKey) : Bool :=
  x.keyIdFor k.remote ≠ k.keyId || x.credentialFor k.remote ≠ k.encoded

/-- The report after the expected keys were recorded one after the other. -/
def recordAll (r : Report) : List IssuedKey → Except IndexFailure Report
  | [] => .ok r
  | k :: ks =>
    if !r.index.contains k.remote then do
      let x ← r.index.record k.remote k.keyId k.encoded
      recordAll { r with index := x, added := r.added ++ [k.remote] } ks
    else if isStale r.index k then do
      let x ← r.index.record k.remote k.keyId k.encoded
      recordAll { r with index := x, rotated := r.rotated ++ [k.remote] } ks
    else recordAll r ks

/-- What a pass does to an index. -/
def apply (x : KeyIndex) (expected : List IssuedKey) : Except IndexFailure Report :=
  let keys := wanted expected
  let removed := unwanted x keys
  recordAll ⟨forgetAll x removed, [], [], removed⟩ (keys.sorted.map Prod.snd)

/-- What is logged about a pass. -/
def event (cluster : Cluster) (r : Report) : Log.Event :=
  let outcome : List (Text × Value) :=
    [("added", .ofTexts r.added), ("rotated", .ofTexts r.rotated),
      ("removed", .ofTexts r.removed), ("aliases", .int r.index.size)]
  .withContext logger Level.info "Reconciled remote cluster API keys"
    (KeyIndex.clusterFields cluster ++ outcome)

/-- The pass under its reconcile ID. -/
def body [Json.Nesting] (cluster : Cluster) (expected : List IssuedKey) (attempts : Int) :
    Action Store Report := do
  let x ← KeyIndex.load cluster
  let r ← Action.ofExcept ((apply x expected).mapError Raised.ofIndex)
  r.index.save cluster attempts
  Action.log (event cluster r)
  return r

/-- Makes the index of a cluster hold exactly the expected keys. -/
def run [Json.Nesting] (cluster : Cluster) (expected : List IssuedKey) (attempts : Int)
    (id : Option Text) : Action Store Report :=
  Action.underId id (body cluster expected attempts)

end Pass
end CrossClusterKeys
