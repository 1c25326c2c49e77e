import CrossClusterKeys.Text.Basic

/-!
# UTF-8, with bytes that are not UTF-8 kept as surrogates

**Input.**  Credentials are stored as bytes.  Most are UTF-8 text, but any byte string may be
stored, and what is read has to be written back unchanged.

**Rules.**
* Reading decodes the well-formed sequences; a byte `b` that belongs to none of them is read as
  the surrogate `U+DC00 + b`.
* Writing turns the surrogates `U+DC80` to `U+DCFF` back into bytes and encodes every other code
  point; any other surrogate has no bytes, and the text is refused.
* Files are read strictly: the first ill-formed sequence is an error that says where it stands
  and what is wrong with it.
-/

namespace CrossClusterKeys
namespace Utf8

/-- A text is refused for the surrogates from `start` to before `stop`. -/
structure Unencodable where
  /-- The first code point without bytes. -/
  first : CodePoint
  /-- Its index. -/
  start : Nat
  /-- The index after the run of surrogates that it opens. -/
  stop : Nat
  deriving DecidableEq, Repr

/-- What is wrong with an ill-formed sequence. -/
inductive Flaw
  | startByte
  | continuationByte
  | truncated
  deriving DecidableEq, Repr

/-- Bytes are refused for the sequence from `start` to before `stop`. -/
structure Undecodable where
  /-- The first byte of the ill-formed sequence. -/
  first : UInt8
  /-- Its index. -/
  start : Nat
  /-- The index after the last byte that still fits the sequence. -/
  stop : Nat
  /-- What is wrong. -/
  flaw : Flaw
  deriving DecidableEq, Repr

/-- A continuation byte with six payload bits. -/
def continuation (payload : Nat) : UInt8 := .ofNat (0x80 + payload % 64)

/-- The bytes of a code point, by the number of its bits. -/
def bytesOf (c : CodePoint) : List UInt8 :=
  let n := c.val
  if n < 0x80 then [.ofNat n]
  else if n < 0x800 then [.ofNat (0xC0 + n / 64), continuation n]
  else if n < 0x10000 then [.ofNat (0xE0 + n / 4096), continuation (n / 64), continuation n]
  else [.ofNat (0xF0 + n / 262144), continuation (n / 4096), continuation (n / 64), continuation n]

/-- The byte that a surrogate stands for. -/
def keptByte? (c : CodePoint) : Option UInt8 :=
  if 0xDC80 ≤ c.val && c.val ≤ 0xDCFF then some (.ofNat (c.val - 0xDC00)) else none

/-- The surrogate that stands for a byte. -/
def keep (b : UInt8) : CodePoint := .ofNat (0xDC00 + b.toNat)

/-- The bytes of one code point, none for a surrogate that stands for no byte. -/
def encodeOne? (c : CodePoint) : Option (List UInt8) :=
  match keptByte? c with
  | some b => some [b]
  | none => if c.isSurrogate then none else some (bytesOf c)

/-- The bytes of a text whose first code point has the index `index`. -/
def encodeFrom (index : Nat) : Text → Except Unencodable (List UInt8)
  | [] => .ok []
  | c :: t =>
    match encodeOne? c with
    | some bs => (encodeFrom (index + 1) t).map (bs ++ ·)
    | none =>
      let run := (t.takeWhile CodePoint.isSurrogate).length
      .error ⟨c, index, index + 1 + run⟩

/-- The bytes of a text. -/
def encode (t : Text) : Except Unencodable (List UInt8) := encodeFrom 0 t

/-- The payload of a continuation byte. -/
def payload? (b : UInt8) : Option Nat :=
  if 0x80 ≤ b.toNat && b.toNat < 0xC0 then some (b.toNat - 0x80) else none

/-- The code point of the well-formed sequence that `lead` opens, and the number of bytes of
`rest` that belong to it. -/
def sequence? (lead : UInt8) (rest : List UInt8) : Option (Nat × Nat) :=
  let n := lead.toNat
  if n < 0x80 then some (n, 0)
  else if n < 0xC2 then none
  else if n < 0xE0 then
    match rest with
    | b :: _ => do
      let x ← payload? b
      return ((n - 0xC0) * 64 + x, 1)
    | [] => none
  else if n < 0xF0 then
    match rest with
    | b :: c :: _ => do
      let x ← payload? b
      let y ← payload? c
      let v := (n - 0xE0) * 4096 + x * 64 + y
      if v < 0x800 || (0xD800 ≤ v && v < 0xE000) then none else return (v, 2)
    | _ => none
  else if n < 0xF5 then
    match rest with
    | b :: c :: d :: _ => do
      let x ← payload? b
      let y ← payload? c
      let z ← payload? d
      let v := (n - 0xF0) * 262144 + x * 4096 + y * 64 + z
      if v < 0x10000 || 0x110000 ≤ v then none else return (v, 3)
    | _ => none
  else none

/-- The text of the bytes after the first `skip` ones. -/
def decodeAfter : Nat → List UInt8 → Text
  | _, [] => []
  | skip + 1, _ :: rest => decodeAfter skip rest
  | 0, b :: rest =>
    match sequence? b rest with
    | some (n, size) => .ofNat n :: decodeAfter size rest
    | none => keep b :: decodeAfter 0 rest

/-- The text of any bytes. -/
def decode (bs : List UInt8) : Text := decodeAfter 0 bs

/-- Whether `second` may follow the lead byte `lead`. -/
def fits (lead second : UInt8) : Bool :=
  let n := lead.toNat
  let m := second.toNat
  if n = 0xE0 then 0xA0 ≤ m && m < 0xC0
  else if n = 0xED then 0x80 ≤ m && m < 0xA0
  else if n = 0xF0 then 0x90 ≤ m && m < 0xC0
  else if n = 0xF4 then 0x80 ≤ m && m < 0x90
  else 0x80 ≤ m && m < 0xC0

/-- The number of bytes of a sequence that starts with `lead`, none for no lead byte. -/
def size? (lead : UInt8) : Option Nat :=
  let n := lead.toNat
  if n < 0x80 then some 1
  else if n < 0xC2 then none
  else if n < 0xE0 then some 2
  else if n < 0xF0 then some 3
  else if n < 0xF5 then some 4
  else none

/-- The bytes behind `lead` that still fit its sequence. -/
def fitting (lead : UInt8) (size : Nat) : List UInt8 → Nat
  | [] => 0
  | b :: rest =>
    if fits lead b then
      1 + ((rest.take (size - 2)).takeWhile fun c => (payload? c).isSome).length
    else 0

/-- The flaw of the sequence that `lead` opens at `index`. -/
def flawAt (index : Nat) (lead : UInt8) (rest : List UInt8) : Undecodable :=
  match size? lead with
  | none => ⟨lead, index, index + 1, .startByte⟩
  | some size =>
    let good := fitting lead size rest
    let flaw := if good = rest.length then .truncated else .continuationByte
    ⟨lead, index, index + 1 + good, flaw⟩

/-- The text of bytes that have to be well-formed; `index` counts the bytes before them. -/
def readAfter (index : Nat) : Nat → List UInt8 → Except Undecodable Text
  | _, [] => .ok []
  | skip + 1, _ :: rest => readAfter (index + 1) skip rest
  | 0, b :: rest =>
    match sequence? b rest with
    | some (n, size) => (readAfter (index + 1) size rest).map (.ofNat n :: ·)
    | none => .error (flawAt index b rest)

/-- The text of a file, refused at its first ill-formed sequence. -/
def read (bs : List UInt8) : Except Undecodable Text := readAfter 0 0 bs

end Utf8
end CrossClusterKeys
