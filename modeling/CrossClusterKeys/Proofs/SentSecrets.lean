import CrossClusterKeys.ApiServer.Object
import CrossClusterKeys.Proofs.Base64
import CrossClusterKeys.Proofs.Tables

/-!
# Secrets that are sent and received

An object of the API server says nothing of parts that are empty, and has its data in Base64.  What
is received says the same as what was sent, with the UID left to the server.

**Input.**  Any Secret; each of its parts may be empty, and its data are any bytes.

**Results.**
* `getD_orMissing`, `getD_mapOrMissing`: a part that is left out is read as an empty one.
* `decodeData_encode`: the data are read back entry by entry.
* `toSecret_ofSecret`: a Secret that was sent is received as it was, without its UID.
-/

namespace CrossClusterKeys
namespace ApiServer

namespace Owner

/-- A reference is received with the flags that it was sent with. -/
theorem toReference_ofReference (r : OwnerReference) : (ofReference r).toReference = r := rfl

theorem map_toReference_ofReference (rs : List OwnerReference) :
    (rs.map ofReference).map toReference = rs := by
  rw [List.map_map]
  exact List.map_id'' toReference_ofReference rs

end Owner

namespace Object

section Parts

theorem getD_orMissing {α : Type} (items : List α) : (orMissing items).getD [] = items := by
  unfold orMissing
  split
  · next hempty => exact (List.isEmpty_iff.1 hempty).symm
  · rfl

theorem getD_mapOrMissing (m : KeyMap Text) : (mapOrMissing m).getD .empty = m := by
  unfold mapOrMissing
  split
  · next hempty => exact Table.ext_entries (List.isEmpty_iff.1 hempty).symm
  · rfl

end Parts

/-- The data are read back entry by entry. -/
theorem decodeData_encode (es : List (Text × List UInt8)) :
    decodeData (es.map fun e => (e.1, Base64.encode e.2)) = .ok es := by
  induction es with
  | nil => rfl
  | cons e es ih =>
    rw [List.map_cons, decodeData, Base64.decode_encode, ih]
    rfl

/-- A Secret that was sent is received as it was, without its UID. -/
theorem toSecret_ofSecret (s : Secret) : (ofSecret s).toSecret = .ok { s with uid := [] } := by
  have hdata : decodeData ((ofSecret s).data.getD .empty).entries = .ok s.data.entries :=
    decodeData_encode s.data.entries
  simp only [toSecret, hdata, Table.ofList_entries]
  simp only [ofSecret, getD_orMissing, getD_mapOrMissing, Option.getD_none,
    Owner.map_toReference_ofReference]

end Object
end ApiServer
end CrossClusterKeys
