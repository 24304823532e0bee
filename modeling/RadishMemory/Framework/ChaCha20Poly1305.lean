import RadishMemory.Framework.Bytes

/-!
# XChaCha20-Poly1305

The stream cipher ChaCha20 and the authenticator Poly1305, combined under a nonce of twenty-four
bytes, over natural numbers below `2 ^ 32`, so that the kernel can evaluate them.  Encryption succeeds on every message that the
block counter reaches and adds a tag of sixteen bytes (`encrypt_length`); decryption inverts it
(`decrypt_of_encrypt`).
-/

namespace ChaCha20Poly1305

/-! ## Words -/

def word (n : Nat) : Nat :=
  n % 4294967296

def rotl (x n : Nat) : Nat :=
  word (Nat.lor (Nat.shiftLeft x n) (Nat.shiftRight x (32 - n)))

/-- The number that a byte string is, least significant byte first. -/
def ofLittleEndian (bytes : List UInt8) : Nat :=
  bytes.foldr (fun byte n => byte.toNat + 256 * n) 0

/-- The last `width` bytes of a number, least significant first. -/
def littleEndian : Nat → Nat → List UInt8
  | 0, _ => []
  | width + 1, n => UInt8.ofNat (n % 256) :: littleEndian width (n / 256)

theorem littleEndian_length (width n : Nat) : (littleEndian width n).length = width := by
  induction width generalizing n with
  | zero => rfl
  | succ width ih => rw [littleEndian, List.length_cons, ih]

/-- The word at an index of a byte string. -/
def wordAt (bytes : List UInt8) (i : Nat) : Nat :=
  ofLittleEndian ((bytes.drop (4 * i)).take 4)

/-! ## The block function -/

structure State where
  (x₀ x₁ x₂ x₃ x₄ x₅ x₆ x₇ x₈ x₉ x₁₀ x₁₁ x₁₂ x₁₃ x₁₄ x₁₅ : Nat)

/-- The quarter round, one word of its result after the other. -/
def quarterRound (a b c d : Nat) (next : Nat → Nat → Nat → Nat → State) : State :=
  let a₁ := word (a + b)
  let d₁ := rotl (Nat.xor d a₁) 16
  let c₁ := word (c + d₁)
  let b₁ := rotl (Nat.xor b c₁) 12
  let a₂ := word (a₁ + b₁)
  let d₂ := rotl (Nat.xor d₁ a₂) 8
  let c₂ := word (c₁ + d₂)
  next a₂ (rotl (Nat.xor b₁ c₂) 7) c₂ d₂

def columnRound (s : State) : State :=
  quarterRound s.x₀ s.x₄ s.x₈ s.x₁₂ fun x₀ x₄ x₈ x₁₂ =>
  quarterRound s.x₁ s.x₅ s.x₉ s.x₁₃ fun x₁ x₅ x₉ x₁₃ =>
  quarterRound s.x₂ s.x₆ s.x₁₀ s.x₁₄ fun x₂ x₆ x₁₀ x₁₄ =>
  quarterRound s.x₃ s.x₇ s.x₁₁ s.x₁₅ fun x₃ x₇ x₁₁ x₁₅ =>
  ⟨x₀, x₁, x₂, x₃, x₄, x₅, x₆, x₇, x₈, x₉, x₁₀, x₁₁, x₁₂, x₁₃, x₁₄, x₁₅⟩

def diagonalRound (s : State) : State :=
  quarterRound s.x₀ s.x₅ s.x₁₀ s.x₁₅ fun x₀ x₅ x₁₀ x₁₅ =>
  quarterRound s.x₁ s.x₆ s.x₁₁ s.x₁₂ fun x₁ x₆ x₁₁ x₁₂ =>
  quarterRound s.x₂ s.x₇ s.x₈ s.x₁₃ fun x₂ x₇ x₈ x₁₃ =>
  quarterRound s.x₃ s.x₄ s.x₉ s.x₁₄ fun x₃ x₄ x₉ x₁₄ =>
  ⟨x₀, x₁, x₂, x₃, x₄, x₅, x₆, x₇, x₈, x₉, x₁₀, x₁₁, x₁₂, x₁₃, x₁₄, x₁₅⟩

def doubleRounds : Nat → State → State
  | 0, s => s
  | n + 1, s => doubleRounds n (diagonalRound (columnRound s))

/-- The constants, a key, and the four words after it. -/
def initial (key : List UInt8) (y₀ y₁ y₂ y₃ : Nat) : State :=
  ⟨0x61707865, 0x3320646e, 0x79622d32, 0x6b206574, wordAt key 0, wordAt key 1, wordAt key 2,
    wordAt key 3, wordAt key 4, wordAt key 5, wordAt key 6, wordAt key 7, y₀, y₁, y₂, y₃⟩

/-- A block of the key stream. -/
def block (key nonce : List UInt8) (counter : Nat) : List UInt8 :=
  let s := initial key (word counter) (wordAt nonce 0) (wordAt nonce 1) (wordAt nonce 2)
  let t := doubleRounds 10 s
  [word (s.x₀ + t.x₀), word (s.x₁ + t.x₁), word (s.x₂ + t.x₂), word (s.x₃ + t.x₃),
    word (s.x₄ + t.x₄), word (s.x₅ + t.x₅), word (s.x₆ + t.x₆), word (s.x₇ + t.x₇),
    word (s.x₈ + t.x₈), word (s.x₉ + t.x₉), word (s.x₁₀ + t.x₁₀), word (s.x₁₁ + t.x₁₁),
    word (s.x₁₂ + t.x₁₂), word (s.x₁₃ + t.x₁₃), word (s.x₁₄ + t.x₁₄),
    word (s.x₁₅ + t.x₁₅)].flatMap (littleEndian 4)

theorem block_length (key nonce : List UInt8) (counter : Nat) :
    (block key nonce counter).length = 64 := by
  simp [block, littleEndian_length]

/-- The key for the second half of a nonce of twenty-four bytes. -/
def subkey (key nonce : List UInt8) : List UInt8 :=
  let t := doubleRounds 10
    (initial key (wordAt nonce 0) (wordAt nonce 1) (wordAt nonce 2) (wordAt nonce 3))
  [t.x₀, t.x₁, t.x₂, t.x₃, t.x₁₂, t.x₁₃, t.x₁₄, t.x₁₅].flatMap (littleEndian 4)

/-- The key stream from the first block on, long enough for `n` bytes. -/
def keyStream (key nonce : List UInt8) (n : Nat) : List UInt8 :=
  (List.range ((n + 63) / 64)).flatMap fun i => block key nonce (i + 1)

theorem le_keyStream_length (key nonce : List UInt8) (n : Nat) :
    n ≤ (keyStream key nonce n).length := by
  have hlength : (keyStream key nonce n).length = (n + 63) / 64 * 64 := by
    simp only [keyStream, List.length_flatMap, block_length, List.map_const',
      List.sum_replicate_nat, List.length_range]
  omega

/-! ## The authenticator -/

def modulus : Nat := 2 ^ 130 - 5

def poly1305 (key message : List UInt8) : List UInt8 :=
  let r := Nat.land (ofLittleEndian (key.take 16)) 0x0ffffffc0ffffffc0ffffffc0fffffff
  let s := ofLittleEndian ((key.drop 16).take 16)
  let sum := (chunks 16 message).foldl (fun sum piece =>
    (sum + ofLittleEndian piece + 256 ^ piece.length) * r % modulus) 0
  littleEndian 16 (sum + s)

/-- A string filled up to a multiple of sixteen bytes. -/
def padded (bytes : List UInt8) : List UInt8 :=
  bytes ++ List.replicate ((16 - bytes.length % 16) % 16) 0

def tag (key nonce associatedData ciphertext : List UInt8) : List UInt8 :=
  poly1305 ((block key nonce 0).take 32)
    (padded associatedData ++ padded ciphertext ++ littleEndian 8 associatedData.length ++
      littleEndian 8 ciphertext.length)

theorem tag_length (key nonce associatedData ciphertext : List UInt8) :
    (tag key nonce associatedData ciphertext).length = 16 :=
  littleEndian_length 16 _

/-! ## The cipher -/

def applyKeyStream (key nonce bytes : List UInt8) : List UInt8 :=
  List.zipWith (· ^^^ ·) bytes (keyStream key nonce bytes.length)

/-- The nonce of the inner cipher. -/
def innerNonce (nonce : List UInt8) : List UInt8 :=
  [0, 0, 0, 0] ++ nonce.drop 16

/-- The number of blocks that the counter reaches. -/
def maxBlocks : Nat := 4294967295

def encrypt (key nonce associatedData message : List UInt8) : Option (List UInt8) :=
  if message.length / 64 < maxBlocks then
    let inner := subkey key (nonce.take 16)
    let ciphertext := applyKeyStream inner (innerNonce nonce) message
    some (ciphertext ++ tag inner (innerNonce nonce) associatedData ciphertext)
  else none

def decrypt (key nonce associatedData message : List UInt8) : Option (List UInt8) :=
  let ciphertext := message.take (message.length - 16)
  let inner := subkey key (nonce.take 16)
  if 16 ≤ message.length ∧ ciphertext.length / 64 < maxBlocks ∧
      message.drop (message.length - 16) = tag inner (innerNonce nonce) associatedData ciphertext
  then some (applyKeyStream inner (innerNonce nonce) ciphertext)
  else none

theorem applyKeyStream_length (key nonce bytes : List UInt8) :
    (applyKeyStream key nonce bytes).length = bytes.length := by
  rw [applyKeyStream, List.length_zipWith, Nat.min_eq_left (le_keyStream_length _ _ _)]

theorem zipWith_xor_self {bytes stream : List UInt8} (h : bytes.length ≤ stream.length) :
    List.zipWith (· ^^^ ·) (List.zipWith (· ^^^ ·) bytes stream) stream = bytes := by
  induction bytes generalizing stream with
  | nil => rfl
  | cons byte bytes ih =>
    cases stream with
    | nil => cases h
    | cons key stream =>
      rw [List.zipWith_cons_cons, List.zipWith_cons_cons, ih (Nat.le_of_succ_le_succ h),
        UInt8.xor_assoc, UInt8.xor_self, UInt8.xor_zero]

/-- The key stream applied twice changes nothing. -/
theorem applyKeyStream_applyKeyStream (key nonce bytes : List UInt8) :
    applyKeyStream key nonce (applyKeyStream key nonce bytes) = bytes := by
  rw [applyKeyStream, applyKeyStream_length, applyKeyStream,
    zipWith_xor_self (le_keyStream_length _ _ _)]

theorem encrypt_length {key nonce associatedData message ciphertext : List UInt8}
    (h : encrypt key nonce associatedData message = some ciphertext) :
    ciphertext.length = message.length + 16 := by
  unfold encrypt at h
  split at h
  · rw [← Option.some.inj h, List.length_append, applyKeyStream_length, tag_length]
  · cases h

theorem decrypt_of_encrypt {key nonce associatedData message ciphertext : List UInt8}
    (h : encrypt key nonce associatedData message = some ciphertext) :
    decrypt key nonce associatedData ciphertext = some message := by
  have hlength := encrypt_length h
  unfold encrypt at h
  split at h
  · rename_i hblocks
    rw [Option.some.injEq] at h
    generalize hinner : subkey key (nonce.take 16) = inner at h
    have hsplit : ciphertext.length - 16 =
        (applyKeyStream inner (innerNonce nonce) message).length := by
      rw [applyKeyStream_length]
      omega
    unfold decrypt
    rw [hinner, hsplit]
    dsimp only
    have htake : ciphertext.take (applyKeyStream inner (innerNonce nonce) message).length =
        applyKeyStream inner (innerNonce nonce) message := by
      rw [← h, List.take_left]
    have hdrop : ciphertext.drop (applyKeyStream inner (innerNonce nonce) message).length =
        tag inner (innerNonce nonce) associatedData
          (applyKeyStream inner (innerNonce nonce) message) := by
      rw [← h, List.drop_left]
    rw [htake, hdrop, applyKeyStream_length, if_pos ⟨by omega, hblocks, rfl⟩,
      applyKeyStream_applyKeyStream]
  · cases h

/-- The first bytes of the published vector of the cipher. -/
example : (encrypt ((List.range 32).map fun i => UInt8.ofNat (0x80 + i))
    ((List.range 24).map fun i => UInt8.ofNat (0x40 + i))
    [0x50, 0x51, 0x52, 0x53, 0xc0, 0xc1, 0xc2, 0xc3, 0xc4, 0xc5, 0xc6, 0xc7]
    [0x4c, 0x61, 0x64, 0x69, 0x65, 0x73]).map (List.take 6) =
      some [0xbd, 0x6d, 0x17, 0x9d, 0x3e, 0x83] := by
  decide +kernel

end ChaCha20Poly1305
