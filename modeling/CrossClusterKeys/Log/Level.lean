import CrossClusterKeys.Text.Casing
import CrossClusterKeys.Text.Digits

/-!
# Levels of log records

A level is an integer, the greater the more severe; zero is no level of its own.  Five levels have
names that are written, and some of these have a second name that is only read.
-/

namespace CrossClusterKeys
namespace Level

/-- Details for whoever looks for a fault. -/
def debug : Int := 10

/-- What happened in the normal course. -/
def info : Int := 20

/-- Something an operator may have to look at. -/
def warning : Int := 30

/-- Something failed. -/
def error : Int := 40

/-- Nothing works any more. -/
def critical : Int := 50

/-- The levels that have a name, with the name that is written. -/
def names : List (Int × Text) :=
  [(0, "NOTSET"), (10, "DEBUG"), (20, "INFO"), (30, "WARNING"), (40, "ERROR"), (50, "CRITICAL")]

/-- The name of a level as it is written. -/
def name (level : Int) : Text := (names.lookup level).getD ("Level " ++ Digits.ofInt level)

/-- Further names that are read. -/
def otherNames : List (Text × Int) := [("WARN", 30), ("FATAL", 50)]

/-- The level with a name, capital or small. -/
def ofName? (t : Text) : Option Int :=
  (names.map fun e => (e.2, e.1)) ++ otherNames |>.lookup t.upper

end Level
end CrossClusterKeys
