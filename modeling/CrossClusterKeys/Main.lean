import CrossClusterKeys.ApiServer.Isolated
import CrossClusterKeys.Cli
import CrossClusterKeys.Uuid

/-!
# The program

The program gathers the environment, the files that a run may read and the standard input, runs the
command line over them, and writes what the run printed, reported and logged.  It has no network:
every configuration of an API server is refused.
-/

namespace CrossClusterKeys
namespace Main

/-- The bytes of a file; a directory counts as a place with a file in it. -/
def readFile (path : Text) : IO (List (Text × List UInt8)) := do
  match path.toString? with
  | none => return []
  | some p =>
    try
      let bytes ← IO.FS.readBinFile p
      return [(path, bytes.toList)]
    catch
      | .inappropriateType .. => return [(path ++ "/.", [])]
      | _ => return []

/-- The variables of the environment. -/
def readEnvironment : IO (KeyMap Text) := do
  let bytes ← try IO.FS.readBinFile "/proc/self/environ" catch _ => return .empty
  let pairs := (Utf8.decode bytes.toList).foldr
    (fun c parts => match parts with
      | [] => if c.val = 0 then [[]] else [[c]]
      | p :: ps => if c.val = 0 then [] :: p :: ps else (c :: p) :: ps)
    ([] : List Text)
  return .ofList (pairs.filterMap (Text.cut? '='))

/-- The file that a run reads its key from. -/
def keyFile? (arguments : List Text) : Option Text :=
  match Cli.Invocation.read arguments with
  | .ok i => match i.command with
    | .set _ _ file => some file
    | _ => none
  | .error _ => none

/-- What surrounds the run. -/
def gather (arguments : List Text) : IO Cli.Place := do
  let environment ← readEnvironment
  let settings ← readFile ".env"
  match keyFile? arguments with
  | none => return ⟨environment, ⟨.ofList settings⟩, []⟩
  | some file =>
    if file = "-" then
      let input ← (← IO.getStdin).readBinToEnd
      return ⟨environment, ⟨.ofList settings⟩, Utf8.decode input.toList⟩
    else return ⟨environment, ⟨.ofList (settings ++ (← readFile file))⟩, []⟩

/-- Writes a text to a stream. -/
def write (stream : IO.FS.Stream) (t : Text) : IO Unit := do
  match Utf8.encode t with
  | .ok bytes => stream.write ⟨bytes.toArray⟩
  | .error _ => stream.putStr "?\n"
  stream.flush

/-- Identifiers that differ from run to run. -/
def drawIds : IO (Nat → Text) := do
  let start ← IO.rand 0 (Nat.pow 2 Uuid.freeBits - 1)
  return fun n => Uuid.text (start + n)

/-- The present moment in seconds. -/
def now : IO Value := do
  let ms ← IO.monoMsNow
  return .real (.ofRatio false ms 1000)

end Main
end CrossClusterKeys

open CrossClusterKeys in
/-- Runs the command line. -/
def main (arguments : List String) : IO UInt32 := do
  let arguments := arguments.map Text.ofString
  let place ← Main.gather arguments
  let ids ← Main.drawIds
  let uids ← Main.drawIds
  let session : Log.Session := { Log.Session.initial ids with clock := ← Main.now }
  let (ending, around, _) := (Cli.run uids arguments place).run
    (ApiServer.Isolated.answer place.environment) ⟨session, []⟩ ()
  let errors ← IO.getStderr
  for document in around.session.written do
    Main.write errors (document.write Json.spaced ++ "\n")
  match ending with
  | .ok o => do
    Main.write (← IO.getStdout) o.output
    Main.write errors o.errors
    return o.code.toUInt32
  | .error e => do
    Main.write errors e.trace
    return 1
