import CrossClusterKeys.Failure

/-!
# Files of the working directory

The files that can be read are given by their paths, which start in the working directory or at a
root.  A directory exists if a file lies in it.

**Rules.**
* A path is normalised before it is used: empty parts and parts `.` are dropped, and the empty
  path is the working directory itself.
* A path is walked step by step: every step but the last one has to be a directory, also in front
  of a step to the parent directory.
* A text file is UTF-8, read strictly, and every line ends with a line feed once it is read.

**Results.**
* `isDirectory_of_file`: every directory in front of a file exists.
-/

namespace CrossClusterKeys

/-- Files by their paths, with their bytes. -/
structure Files where
  contents : KeyMap (List UInt8)

namespace Files

/-- The parts of a path between its slashes. -/
def parts : Text → List Text
  | [] => [[]]
  | c :: t =>
    if c = '/' then [] :: parts t
    else match parts t with
      | [] => [[c]]
      | p :: ps => (c :: p) :: ps

/-- What a path starts with if it does not start in the working directory. -/
def root (path : Text) : Text :=
  let slashes := (path.takeWhile fun c : CodePoint => c = '/').length
  if slashes = 0 then [] else if slashes = 2 then "//" else "/"

/-- The parts of a path that name files and directories. -/
def names (path : Text) : List Text :=
  (parts path).filter fun p => !p.isEmpty && p ≠ Text.ofString "."

/-- The steps to the file at a path, the first one to its root if it has one. -/
def steps (path : Text) : List Text :=
  if (root path).isEmpty then names path else root path :: names path

/-- The path as it is used and shown. -/
def normalised (path : Text) : Text :=
  let joined := root path ++ Text.join "/" (names path)
  if joined.isEmpty then "." else joined

/-- Whether steps lead to a directory: the working directory, a root, or one with a file below. -/
def isDirectory (f : Files) (path : List Text) : Bool :=
  path.all (fun p => !(root p).isEmpty) ||
    f.contents.keys.any fun k => path.isPrefixOf (steps k) && path.length < (steps k).length

/-- The bytes of the file that steps lead to. -/
def find? (f : Files) (path : List Text) : Option (List UInt8) :=
  (f.contents.entries.find? fun e => steps e.1 = path).map Prod.snd

/-- The longest name of a file or directory, in bytes. -/
def longestName : Nat := 255

/-- The longest path, in bytes. -/
def longestPath : Nat := 4095

/-- The number of bytes of a path. -/
def byteLength (t : Text) : Nat := ((Utf8.encode t).toOption.getD []).length

/-- The directory above a directory, none if that is outside the working directory.  A root is its
own parent. -/
def parent? : List Text → Option (List Text)
  | [] => none
  | [p] => if (root p).isEmpty then some [] else some [p]
  | path => some path.dropLast

/-- The bytes at the end of a walk from a directory, whose path is `shown`; the directory is none
once the walk has left the working directory, where nothing but directories above is known. -/
def walk (f : Files) (shown : Text) : Option (List Text) → List Text → Except Failure (List UInt8)
  | _, [] => .error (.file .directory shown)
  | none, p :: ps =>
    if p = Text.ofString ".." then f.walk shown none ps else .error (.file .missing shown)
  | some here, p :: ps =>
    if p = Text.ofString ".." then f.walk shown (parent? here) ps
    else if longestName < byteLength p then .error (.file .tooLong shown)
    else
      match f.find? (here ++ [p]) with
      | some bytes => if ps.isEmpty then .ok bytes else .error (.file .notDirectory shown)
      | none =>
        if f.isDirectory (here ++ [p]) then f.walk shown (some (here ++ [p])) ps
        else .error (.file .missing shown)

/-- The bytes of the file at a path. -/
def bytes (f : Files) (path : Text) : Except Failure (List UInt8) := do
  let shown := normalised path
  let _ ← (Utf8.encode shown).mapError .unencodable
  if shown.any fun c => c.val = 0 then throw (.ofValue "embedded null byte")
  if longestPath < byteLength shown then throw (.file .tooLong shown)
  f.walk shown (some []) (steps path)

/-- The text with a line feed for every ending of a line. -/
def unifyLines : Text → Text
  | [] => []
  | [c] => if c = '\r' then [↑ '\n'] else [c]
  | c :: d :: t =>
    if c = '\r' then
      if d = '\n' then ↑ '\n' :: unifyLines t else ↑ '\n' :: unifyLines (d :: t)
    else c :: unifyLines (d :: t)

/-- The text of bytes in a file. -/
def decode (bs : List UInt8) : Except Failure Text :=
  ((Utf8.read bs).map unifyLines).mapError .undecodable

/-- The text of the file at a path. -/
def text (f : Files) (path : Text) : Except Failure Text := do decode (← f.bytes path)

theorem isDirectory_of_file (f : Files) (k : Text) (path : List Text) (hk : k ∈ f.contents.keys)
    (h : path.isPrefixOf (steps k) = true) (hlt : path.length < (steps k).length) :
    f.isDirectory path = true := by
  unfold isDirectory
  rw [Bool.or_eq_true, List.any_eq_true]
  exact Or.inr ⟨k, hk, by simp [h, hlt]⟩

end Files
end CrossClusterKeys
