import CrossClusterKeys.Text.Blank
import CrossClusterKeys.Text.Casing

/-!
# Kinds of resource stores

**Rule.**  A store is chosen by its name, in capital or small letters and with blanks around it.

**Results.**
* `ofName?_name`: every store is found by its name.
-/

namespace CrossClusterKeys

/-- The resource stores that can be chosen. -/
inductive Backend
  /-- The API server. -/
  | kubernetes
  /-- A store of the process. -/
  | memory
  deriving DecidableEq, Repr

namespace Backend

/-- The name of a store. -/
def name : Backend → Text
  | .kubernetes => "kubernetes"
  | .memory => "memory"

/-- All stores. -/
def all : List Backend := [.kubernetes, .memory]

/-- The store with exactly this name. -/
def ofName? (t : Text) : Option Backend := all.find? fun b => b.name = t

theorem ofName?_name (b : Backend) : ofName? b.name = some b := by
  cases b <;> decide

/-- A name as it is compared. -/
def plainName (t : Text) : Text := t.lower.strip

end Backend
end CrossClusterKeys
