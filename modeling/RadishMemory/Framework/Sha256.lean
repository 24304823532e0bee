import Mathlib.Data.List.Basic
import Mathlib.Tactic.IntervalCases

/-!
# SHA-256

The hash function of FIPS 180-4 on byte strings, over natural numbers below `2 ^ 32`, so that
the kernel can evaluate it.  A digest is thirty-two bytes (`digest`), or sixty-four lower-case
hexadecimal digits (`hash_length`, `hash_hex`).
-/

namespace Sha256

/-! ## Words -/

def word (n : Nat) : Nat :=
  n % 4294967296

def rotr (x n : Nat) : Nat :=
  word (Nat.lor (Nat.shiftRight x n) (Nat.shiftLeft x (32 - n)))

def xor3 (a b c : Nat) : Nat :=
  Nat.xor (Nat.xor a b) c

def smallSigma0 (x : Nat) : Nat :=
  xor3 (rotr x 7) (rotr x 18) (Nat.shiftRight x 3)

def smallSigma1 (x : Nat) : Nat :=
  xor3 (rotr x 17) (rotr x 19) (Nat.shiftRight x 10)

def bigSigma0 (x : Nat) : Nat :=
  xor3 (rotr x 2) (rotr x 13) (rotr x 22)

def bigSigma1 (x : Nat) : Nat :=
  xor3 (rotr x 6) (rotr x 11) (rotr x 25)

def ch (e f g : Nat) : Nat :=
  Nat.xor (Nat.land e f) (Nat.land (4294967295 - e) g)

def maj (a b c : Nat) : Nat :=
  xor3 (Nat.land a b) (Nat.land a c) (Nat.land b c)

/-! ## Compression -/

/-- The eight words of the hash state. -/
structure State where
  (a b c d e f g h : Nat)

def initial : State :=
  ⟨0x6a09e667, 0xbb67ae85, 0x3c6ef372, 0xa54ff53a, 0x510e527f, 0x9b05688c, 0x1f83d9ab,
    0x5be0cd19⟩

def constants : List Nat :=
  [0x428a2f98, 0x71374491, 0xb5c0fbcf, 0xe9b5dba5, 0x3956c25b, 0x59f111f1, 0x923f82a4,
    0xab1c5ed5, 0xd807aa98, 0x12835b01, 0x243185be, 0x550c7dc3, 0x72be5d74, 0x80deb1fe,
    0x9bdc06a7, 0xc19bf174, 0xe49b69c1, 0xefbe4786, 0x0fc19dc6, 0x240ca1cc, 0x2de92c6f,
    0x4a7484aa, 0x5cb0a9dc, 0x76f988da, 0x983e5152, 0xa831c66d, 0xb00327c8, 0xbf597fc7,
    0xc6e00bf3, 0xd5a79147, 0x06ca6351, 0x14292967, 0x27b70a85, 0x2e1b2138, 0x4d2c6dfc,
    0x53380d13, 0x650a7354, 0x766a0abb, 0x81c2c92e, 0x92722c85, 0xa2bfe8a1, 0xa81a664b,
    0xc24b8b70, 0xc76c51a3, 0xd192e819, 0xd6990624, 0xf40e3585, 0x106aa070, 0x19a4c116,
    0x1e376c08, 0x2748774c, 0x34b0bcb5, 0x391c0cb3, 0x4ed8aa4a, 0x5b9cca4f, 0x682e6ff3,
    0x748f82ee, 0x78a5636f, 0x84c87814, 0x8cc70208, 0x90befffa, 0xa4506ceb, 0xbef9a3f7,
    0xc67178f2]

def round (s : State) (k w : Nat) : State :=
  let t₁ := s.h + bigSigma1 s.e + ch s.e s.f s.g + k + w
  ⟨word (t₁ + bigSigma0 s.a + maj s.a s.b s.c), s.a, s.b, s.c, word (s.d + t₁), s.e, s.f, s.g⟩

/-- The rounds of one block; the window holds the next sixteen words of the schedule. -/
def rounds : List Nat → List Nat → State → State
  | k :: ks, w :: window, s =>
    let next := word (w + smallSigma0 (window.getD 0 0) + window.getD 8 0 +
      smallSigma1 (window.getD 13 0))
    rounds ks (window ++ [next]) (round s k w)
  | _, _, s => s

def compress (s : State) (block : List Nat) : State :=
  let t := rounds constants block s
  ⟨word (s.a + t.a), word (s.b + t.b), word (s.c + t.c), word (s.d + t.d), word (s.e + t.e),
    word (s.f + t.f), word (s.g + t.g), word (s.h + t.h)⟩

/-! ## Padding and the digest -/

/-- The big-endian words of a byte string. -/
def words : List UInt8 → List Nat
  | b₀ :: b₁ :: b₂ :: b₃ :: rest =>
    (((b₀.toNat * 256 + b₁.toNat) * 256 + b₂.toNat) * 256 + b₃.toNat) :: words rest
  | _ => []

def lengthBytes (n : Nat) : List UInt8 :=
  [56, 48, 40, 32, 24, 16, 8, 0].map fun shift => UInt8.ofNat (Nat.shiftRight n shift % 256)

def pad (message : List UInt8) : List UInt8 :=
  message ++ 0x80 :: List.replicate ((119 - message.length % 64) % 64) 0 ++
    lengthBytes (message.length * 8)

def compressBlocks : Nat → List Nat → State → State
  | 0, _, s => s
  | n + 1, rest, s => compressBlocks n (rest.drop 16) (compress s (rest.take 16))

def hexDigit (n : Nat) : Char :=
  "0123456789abcdef".toList.getD (n % 16) '0'

def hexWord (n : Nat) : List Char :=
  [28, 24, 20, 16, 12, 8, 4, 0].map fun shift => hexDigit (Nat.shiftRight n shift)

/-- The hexadecimal digits of the hash of a message. -/
def hash (message : List UInt8) : List Char :=
  let padded := words (pad message)
  let s := compressBlocks (padded.length / 16) padded initial
  [s.a, s.b, s.c, s.d, s.e, s.f, s.g, s.h].flatMap hexWord

/-- The bytes of the hash of a message. -/
def digest (message : List UInt8) : List UInt8 :=
  let padded := words (pad message)
  let s := compressBlocks (padded.length / 16) padded initial
  [s.a, s.b, s.c, s.d, s.e, s.f, s.g, s.h].flatMap fun w =>
    [24, 16, 8, 0].map fun shift => UInt8.ofNat (Nat.shiftRight w shift % 256)

theorem digest_length (message : List UInt8) : (digest message).length = 32 := by
  simp [digest]

theorem hash_length (message : List UInt8) : (hash message).length = 64 := by
  simp [hash, hexWord]

theorem hexDigit_mem (n : Nat) : hexDigit n ∈ "0123456789abcdef".toList := by
  have hlt : n % 16 < 16 := Nat.mod_lt n (by decide)
  unfold hexDigit
  generalize n % 16 = digit at hlt
  interval_cases digit <;> decide

/-- Every character of a digest is a lower-case hexadecimal digit. -/
theorem hash_hex {message : List UInt8} {c : Char} (h : c ∈ hash message) :
    c ∈ "0123456789abcdef".toList := by
  simp only [hash, List.mem_flatMap, hexWord, List.mem_map] at h
  obtain ⟨_, -, _, -, rfl⟩ := h
  exact hexDigit_mem _

example : hash [0x61, 0x62, 0x63] =
    "ba7816bf8f01cfea414140de5dae2223b00361a396177a9cb410ff61f20015ad".toList := by
  decide +kernel

end Sha256
