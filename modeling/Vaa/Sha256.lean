import Mathlib.Algebra.Group.Nat.Defs
import Mathlib.Data.Nat.Notation

/-!
# SHA-256

The hash function, executable: the message is padded to blocks of 64 bytes,
each compressed into a state of eight 32-bit words by 64 rounds, over a window of
sixteen words of the message schedule.
-/

namespace Vaa.Sha256

/-- The working state. -/
structure State where
  a : UInt32
  b : UInt32
  c : UInt32
  d : UInt32
  e : UInt32
  f : UInt32
  g : UInt32
  h : UInt32

/-- The state before the first block. -/
def State.init : State where
  a := 0x6a09e667
  b := 0xbb67ae85
  c := 0x3c6ef372
  d := 0xa54ff53a
  e := 0x510e527f
  f := 0x9b05688c
  g := 0x1f83d9ab
  h := 0x5be0cd19

/-- The constants of the 64 rounds. -/
def roundConstants : List UInt32 :=
  [0x428a2f98, 0x71374491, 0xb5c0fbcf, 0xe9b5dba5, 0x3956c25b, 0x59f111f1, 0x923f82a4, 0xab1c5ed5,
   0xd807aa98, 0x12835b01, 0x243185be, 0x550c7dc3, 0x72be5d74, 0x80deb1fe, 0x9bdc06a7, 0xc19bf174,
   0xe49b69c1, 0xefbe4786, 0x0fc19dc6, 0x240ca1cc, 0x2de92c6f, 0x4a7484aa, 0x5cb0a9dc, 0x76f988da,
   0x983e5152, 0xa831c66d, 0xb00327c8, 0xbf597fc7, 0xc6e00bf3, 0xd5a79147, 0x06ca6351, 0x14292967,
   0x27b70a85, 0x2e1b2138, 0x4d2c6dfc, 0x53380d13, 0x650a7354, 0x766a0abb, 0x81c2c92e, 0x92722c85,
   0xa2bfe8a1, 0xa81a664b, 0xc24b8b70, 0xc76c51a3, 0xd192e819, 0xd6990624, 0xf40e3585, 0x106aa070,
   0x19a4c116, 0x1e376c08, 0x2748774c, 0x34b0bcb5, 0x391c0cb3, 0x4ed8aa4a, 0x5b9cca4f, 0x682e6ff3,
   0x748f82ee, 0x78a5636f, 0x84c87814, 0x8cc70208, 0x90befffa, 0xa4506ceb, 0xbef9a3f7, 0xc67178f2]

def rotr (x n : UInt32) : UInt32 := (x >>> n) ||| (x <<< (32 - n))

def bigSigma0 (x : UInt32) : UInt32 := rotr x 2 ^^^ rotr x 13 ^^^ rotr x 22
def bigSigma1 (x : UInt32) : UInt32 := rotr x 6 ^^^ rotr x 11 ^^^ rotr x 25
def smallSigma0 (x : UInt32) : UInt32 := rotr x 7 ^^^ rotr x 18 ^^^ (x >>> 3)
def smallSigma1 (x : UInt32) : UInt32 := rotr x 17 ^^^ rotr x 19 ^^^ (x >>> 10)
def ch (x y z : UInt32) : UInt32 := (x &&& y) ^^^ (~~~x &&& z)
def maj (x y z : UInt32) : UInt32 := (x &&& y) ^^^ (x &&& z) ^^^ (y &&& z)

/-- One round, with its constant `k` and schedule word `w`. -/
def round (s : State) (k w : UInt32) : State :=
  let t₁ := s.h + bigSigma1 s.e + ch s.e s.f s.g + k + w
  let t₂ := bigSigma0 s.a + maj s.a s.b s.c
  ⟨t₁ + t₂, s.a, s.b, s.c, s.d + t₁, s.e, s.f, s.g⟩

/-- The word following a window of sixteen words of the message schedule. -/
def nextWord : List UInt32 → UInt32
  | [w₀, w₁, _, _, _, _, _, _, _, w₉, _, _, _, _, w₁₄, _] =>
    smallSigma1 w₁₄ + w₉ + smallSigma0 w₁ + w₀
  | _ => 0

/-- The rounds of the constants `ks`, from a window of the message schedule. -/
def rounds : State → List UInt32 → List UInt32 → State
  | s, [], _ => s
  | s, k :: ks, window =>
    rounds (round s k (window.headD 0)) ks (window.tail ++ [nextWord window])

/-- Compress a block of sixteen words into the state. -/
def compress (s : State) (block : List UInt32) : State :=
  let t := rounds s roundConstants block
  ⟨s.a + t.a, s.b + t.b, s.c + t.c, s.d + t.d, s.e + t.e, s.f + t.f, s.g + t.g, s.h + t.h⟩

/-- The big-endian words of a list of bytes. -/
def words : List UInt8 → List UInt32
  | b₀ :: b₁ :: b₂ :: b₃ :: rest =>
    ((b₀.toUInt32 <<< 24) ||| (b₁.toUInt32 <<< 16) ||| (b₂.toUInt32 <<< 8) ||| b₃.toUInt32) ::
      words rest
  | _ => []

/-- The big-endian bytes of a word. -/
def wordBytes (w : UInt32) : List UInt8 :=
  [(w >>> 24).toUInt8, (w >>> 16).toUInt8, (w >>> 8).toUInt8, w.toUInt8]

/-- The message, a one bit, zeros up to a multiple of 64 bytes, and at the end
    the length of the message in bits, on eight bytes. -/
def pad (msg : List UInt8) : List UInt8 :=
  msg ++ [0x80] ++ List.replicate ((119 - msg.length % 64) % 64) 0 ++
    (List.range 8).map fun i => UInt8.ofNat (msg.length * 8 / 256 ^ (7 - i))

/-- Compress `n` blocks of sixteen words. -/
def blocks : ℕ → State → List UInt32 → State
  | 0, s, _ => s
  | n + 1, s, ws => blocks n (compress s (ws.take 16)) (ws.drop 16)

/-- The 32 bytes of a state. -/
def State.bytes (s : State) : Vector UInt8 32 :=
  ⟨([s.a, s.b, s.c, s.d, s.e, s.f, s.g, s.h].flatMap wordBytes).toArray, rfl⟩

/-- SHA-256. -/
def digest (msg : List UInt8) : Vector UInt8 32 :=
  let padded := pad msg
  (blocks (padded.length / 64) State.init (words padded)).bytes

end Vaa.Sha256
