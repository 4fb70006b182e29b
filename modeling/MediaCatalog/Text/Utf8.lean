/-!
Texts from bytes in UTF-8. Bytes arrive in chunks; the places of faults are counted from the beginning of the
chunk, or of the character that the chunk before broke off.
-/

namespace MediaCatalog.Text.Utf8

inductive FaultKind where
  | invalidStart
  | invalidContinuation
  | unexpectedEnd
deriving DecidableEq

namespace FaultKind

def message : FaultKind → String
  | invalidStart => "invalid start byte"
  | invalidContinuation => "invalid continuation byte"
  | unexpectedEnd => "unexpected end of data"

end FaultKind

/-- Bytes that stand for no character: their number, their place and the first of them. -/
structure Fault where
  kind : FaultKind
  position : Nat
  length : Nat
  byte : UInt8
deriving DecidableEq

namespace Fault

def byteDigits (byte : UInt8) : String :=
  String.ofList [Nat.digitChar (byte.toNat / 16), Nat.digitChar (byte.toNat % 16)]

def message (fault : Fault) : String :=
  let place :=
    if fault.length = 1 then
      "byte 0x" ++ byteDigits fault.byte ++ " in position " ++ fault.position.repr
    else
      "bytes in position " ++ fault.position.repr ++ "-" ++ (fault.position + fault.length - 1).repr
  "'utf-8' codec can't decode " ++ place ++ ": " ++ fault.kind.message

end Fault

/-- The number of bytes of a character by its first byte, and the least and greatest second byte. -/
def leadOf (byte : UInt8) : Option (Nat × UInt8 × UInt8) :=
  if byte < 0x80 then some (1, 0x80, 0xBF)
  else if byte < 0xC2 then none
  else if byte < 0xE0 then some (2, 0x80, 0xBF)
  else if byte = 0xE0 then some (3, 0xA0, 0xBF)
  else if byte = 0xED then some (3, 0x80, 0x9F)
  else if byte < 0xF0 then some (3, 0x80, 0xBF)
  else if byte = 0xF0 then some (4, 0x90, 0xBF)
  else if byte < 0xF4 then some (4, 0x80, 0xBF)
  else if byte = 0xF4 then some (4, 0x80, 0x8F)
  else none

/-- The first character of bytes: it and the number of its bytes, a fault of some bytes, or the beginning of a
character that the bytes break off. -/
inductive First where
  | char (c : Char) (length : Nat)
  | fault (kind : FaultKind) (length : Nat)
  | partialChar

/-- The number of bytes that continue a character, of those it needs after the first. -/
def continued (low high : UInt8) : (needed : Nat) → List UInt8 → Nat
  | 0, _ => 0
  | _, [] => 0
  | needed + 1, byte :: rest =>
    if low ≤ byte && byte ≤ high then 1 + continued 0x80 0xBF needed rest else 0

def codePoint (length : Nat) (lead : UInt8) (rest : List UInt8) : Nat :=
  rest.foldl (fun n byte => n * 64 + byte.toNat % 64) (lead.toNat % Nat.pow 2 (7 - length))

def first (byte : UInt8) (rest : List UInt8) : First :=
  match leadOf byte with
  | none => .fault .invalidStart 1
  | some (length, low, high) =>
    if length = 1 then .char (Char.ofNat byte.toNat) 1
    else
      let found := continued low high (length - 1) rest
      if found = length - 1 then
        .char (Char.ofNat (codePoint length byte (rest.take found))) length
      else if rest.length = found then .partialChar
      else .fault .invalidContinuation (found + 1)

/-- Bytes that a surrogate would begin with are taken for a broken off character when they are last. -/
def looksBrokenOff : List UInt8 → Bool
  | [a, b] => a = 0xED && 0xA0 ≤ b && b ≤ 0xBF
  | _ => false

/-- Reads the characters of bytes that begin at a position. Bytes of a character that is broken off are left
over, unless the bytes are the last. -/
def decodeFrom (isLast : Bool) (position : Nat) (bytes : List UInt8) :
    Except Fault (List Char × List UInt8) :=
  match bytes with
  | [] => .ok ([], [])
  | byte :: rest =>
    match first byte rest with
    | .char c length =>
      (decodeFrom isLast (position + length) (rest.drop (length - 1))).map fun (text, left) =>
        (c :: text, left)
    | .partialChar =>
      if isLast then .error ⟨.unexpectedEnd, position, rest.length + 1, byte⟩
      else .ok ([], byte :: rest)
    | .fault kind length =>
      if !isLast && looksBrokenOff (byte :: rest) then .ok ([], byte :: rest)
      else .error ⟨kind, position, length, byte⟩
termination_by bytes.length
decreasing_by
  simp only [List.length_cons, List.length_drop]
  omega

def chunkSize : Nat :=
  8192

/-- Reads the characters of bytes chunk by chunk; `left` was left over by the chunk before. -/
def decodeChunks (left bytes : List UInt8) : Except Fault (List Char) :=
  if bytes = [] then (decodeFrom true 0 left).map Prod.fst
  else do
    let (text, left) ← decodeFrom false 0 (left ++ bytes.take chunkSize)
    let rest ← decodeChunks left (bytes.drop chunkSize)
    return text ++ rest
termination_by bytes.length
decreasing_by
  rename_i h
  have := List.length_pos_iff.mpr h
  simp only [List.length_drop, chunkSize]
  omega

def decode (bytes : List UInt8) : Except Fault (List Char) :=
  decodeChunks [] bytes

end MediaCatalog.Text.Utf8
