import MediaCatalog.Text.Numeral

/-!
The SHA-256 digest of bytes.
-/

namespace MediaCatalog.Files.Sha256

def roundConstants : Array UInt32 :=
  #[
    0x428a2f98, 0x71374491, 0xb5c0fbcf, 0xe9b5dba5, 0x3956c25b, 0x59f111f1, 0x923f82a4, 0xab1c5ed5,
    0xd807aa98, 0x12835b01, 0x243185be, 0x550c7dc3, 0x72be5d74, 0x80deb1fe, 0x9bdc06a7, 0xc19bf174,
    0xe49b69c1, 0xefbe4786, 0x0fc19dc6, 0x240ca1cc, 0x2de92c6f, 0x4a7484aa, 0x5cb0a9dc, 0x76f988da,
    0x983e5152, 0xa831c66d, 0xb00327c8, 0xbf597fc7, 0xc6e00bf3, 0xd5a79147, 0x06ca6351, 0x14292967,
    0x27b70a85, 0x2e1b2138, 0x4d2c6dfc, 0x53380d13, 0x650a7354, 0x766a0abb, 0x81c2c92e, 0x92722c85,
    0xa2bfe8a1, 0xa81a664b, 0xc24b8b70, 0xc76c51a3, 0xd192e819, 0xd6990624, 0xf40e3585, 0x106aa070,
    0x19a4c116, 0x1e376c08, 0x2748774c, 0x34b0bcb5, 0x391c0cb3, 0x4ed8aa4a, 0x5b9cca4f, 0x682e6ff3,
    0x748f82ee, 0x78a5636f, 0x84c87814, 0x8cc70208, 0x90befffa, 0xa4506ceb, 0xbef9a3f7, 0xc67178f2
  ]

structure State where
  a : UInt32
  b : UInt32
  c : UInt32
  d : UInt32
  e : UInt32
  f : UInt32
  g : UInt32
  h : UInt32

def initialState : State :=
  ⟨0x6a09e667, 0xbb67ae85, 0x3c6ef372, 0xa54ff53a, 0x510e527f, 0x9b05688c, 0x1f83d9ab, 0x5be0cd19⟩

def rotate (x : UInt32) (n : UInt32) : UInt32 :=
  (x >>> n) ||| (x <<< (32 - n))

/-- The byte at an index, or zero behind the last one. -/
def byteAt (bytes : ByteArray) (i : Nat) : UInt32 :=
  if h : i < bytes.size then bytes[i].toUInt32 else 0

/-- The word of four bytes, the most significant one first. -/
def wordAt (bytes : ByteArray) (i : Nat) : UInt32 :=
  (byteAt bytes i <<< 24) ||| (byteAt bytes (i + 1) <<< 16) ||| (byteAt bytes (i + 2) <<< 8) |||
    byteAt bytes (i + 3)

def nextWord (words : Array UInt32) (t : Nat) : UInt32 :=
  let x := words.getD (t - 15) 0
  let y := words.getD (t - 2) 0
  let s := rotate x 7 ^^^ rotate x 18 ^^^ (x >>> 3)
  let s' := rotate y 17 ^^^ rotate y 19 ^^^ (y >>> 10)
  words.getD (t - 16) 0 + s + words.getD (t - 7) 0 + s'

def schedule (bytes : ByteArray) (i : Nat) : Array UInt32 :=
  (List.range 64).foldl
    (fun words t => words.push (if t < 16 then wordAt bytes (i + 4 * t) else nextWord words t)) #[]

def round (s : State) (constant word : UInt32) : State :=
  let choice := (s.e &&& s.f) ^^^ ((~~~s.e) &&& s.g)
  let majority := (s.a &&& s.b) ^^^ (s.a &&& s.c) ^^^ (s.b &&& s.c)
  let t := s.h + (rotate s.e 6 ^^^ rotate s.e 11 ^^^ rotate s.e 25) + choice + constant + word
  let t' := (rotate s.a 2 ^^^ rotate s.a 13 ^^^ rotate s.a 22) + majority
  ⟨t + t', s.a, s.b, s.c, s.d + t, s.e, s.f, s.g⟩

def compress (bytes : ByteArray) (s : State) (i : Nat) : State :=
  let words := schedule bytes i
  let r := (List.range 64).foldl
    (fun r t => round r (roundConstants.getD t 0) (words.getD t 0)) s
  ⟨s.a + r.a, s.b + r.b, s.c + r.c, s.d + r.d, s.e + r.e, s.f + r.f, s.g + r.g, s.h + r.h⟩

/-- The bytes filled up to whole blocks of 64: a one bit, zeros and the length in bits. -/
def padded (bytes : ByteArray) : ByteArray :=
  let zeros := (119 - bytes.size % 64) % 64
  let filled := (List.range zeros).foldl (fun b _ => b.push 0) (bytes.push 0x80)
  (List.range 8).foldl
    (fun b k => b.push (UInt8.ofNat (bytes.size * 8 / Nat.pow 256 (7 - k) % 256))) filled

def finalState (bytes : ByteArray) : State :=
  let message := padded bytes
  (List.range (message.size / 64)).foldl (fun s k => compress message s (64 * k)) initialState

def hexDigest (bytes : ByteArray) : String :=
  let s := finalState bytes
  String.ofList ([s.a, s.b, s.c, s.d, s.e, s.f, s.g, s.h].flatMap fun word =>
    Text.fixedNumeral 16 8 word.toNat)

end MediaCatalog.Files.Sha256
