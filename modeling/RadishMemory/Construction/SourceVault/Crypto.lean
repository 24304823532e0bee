import RadishMemory.Construction.SourceVault.Aad

/-!
# Sealing and opening an object

An object is encrypted in segments of one mebibyte under a key of its own, which is wrapped with
the key of the library.  The cipher and the nonces of its stream are parameters; the stream itself
is a counter, and the counter of an object stays below nine.

A call that indexes or slices out of bounds panics; `Fault` keeps this apart from an error.
-/

namespace RadishMemory

/-! ## Faults -/

/-- How a call ends without a value. -/
inductive Fault where
  | panicked
  | returned (error : SourceVaultError)
deriving DecidableEq, Repr

def fail {α : Type} (code : SourceVaultErrorCode) (reason : String) : Except Fault α :=
  .error (.returned (failure code reason))

section Slices

variable {α : Type}

/-- `&values[..stop]` -/
def sliceTo (values : List α) (stop : Nat) : Except Fault (List α) :=
  if stop ≤ values.length then .ok (values.take stop) else .error .panicked

/-- `&values[start..]` -/
def sliceFrom (values : List α) (start : Nat) : Except Fault (List α) :=
  if start ≤ values.length then .ok (values.drop start) else .error .panicked

/-- `&values[..values.len() - 1]`, which no empty slice has. -/
def sliceInit (values : List α) : Except Fault (List α) :=
  if values.isEmpty then .error .panicked else sliceTo values (values.length - 1)

end Slices

/-! ## The cipher -/

/-- The libraries the vault calls: SHA-256, XChaCha20-Poly1305 under a key, a nonce and associated
data, and the nonce that the stream over it gives to a position, which also says whether the
segment is the last. -/
class ObjectCipher where
  sha256 : List UInt8 → FixedBytes 32
  encrypt : FixedBytes keyBytes → FixedBytes wrapNonceBytes → List UInt8 → List UInt8 →
    Option (List UInt8)
  decrypt : FixedBytes keyBytes → FixedBytes wrapNonceBytes → List UInt8 → List UInt8 →
    Option (List UInt8)
  streamNonce : FixedBytes streamNoncePrefixBytes → Nat → Bool → FixedBytes wrapNonceBytes

/-- The state of an `EncryptorBE32` or a `DecryptorBE32`. -/
structure StreamBE32 where
  key : FixedBytes keyBytes
  noncePrefix : FixedBytes streamNoncePrefixBytes
  position : Nat

def StreamBE32.new (key : FixedBytes keyBytes)
    (noncePrefix : FixedBytes streamNoncePrefixBytes) : StreamBE32 :=
  { key, noncePrefix, position := 0 }

def StreamBE32.advance (stream : StreamBE32) : StreamBE32 :=
  { stream with position := stream.position + 1 }

/-- `encrypt` or `decrypt`. -/
abbrev CipherCall :=
  FixedBytes keyBytes → FixedBytes wrapNonceBytes → List UInt8 → List UInt8 →
    Option (List UInt8)

variable [ObjectCipher]

/-- `encrypt_next` or `decrypt_next`; the last value of the counter is not used. -/
def StreamBE32.next (call : CipherCall) (associatedData : List UInt8) (stream : StreamBE32)
    (segment : List UInt8) : Option (List UInt8 × StreamBE32) :=
  if stream.position = maxU32 then none
  else
    (call stream.key (ObjectCipher.streamNonce stream.noncePrefix stream.position false)
      associatedData segment).map fun result => (result, stream.advance)

/-- `encrypt_last` or `decrypt_last` -/
def StreamBE32.last (call : CipherCall) (associatedData : List UInt8) (stream : StreamBE32)
    (segment : List UInt8) : Option (List UInt8) :=
  call stream.key (ObjectCipher.streamNonce stream.noncePrefix stream.position true)
    associatedData segment

/-- A loop over all segments but the last. -/
def StreamBE32.all (call : CipherCall) (error : SourceVaultError) (associatedData : List UInt8) :
    StreamBE32 → List (List UInt8) → Except Fault (List (List UInt8) × StreamBE32)
  | stream, [] => .ok ([], stream)
  | stream, segment :: rest => do
    let (result, stream) ← (stream.next call associatedData segment).orError (.returned error)
    let (results, stream) ← StreamBE32.all call error associatedData stream rest
    return (result :: results, stream)

/-! ## Objects -/

structure SealedObject where
  streamNoncePrefix : FixedBytes streamNoncePrefixBytes
  wrapNonce : FixedBytes wrapNonceBytes
  wrappedDek : FixedBytes (keyBytes + aeadTagBytes)
  segments : List (List UInt8)
deriving DecidableEq

def KeyEncryptionKey.fixed (key : KeyEncryptionKey) : FixedBytes keyBytes :=
  ⟨key.bytes, key.length_eq⟩

def encryptionFailed : SourceVaultError :=
  failure .encryptionFailed "authenticated encryption operation failed"

def malformedCiphertext : SourceVaultError :=
  failure .malformedCiphertext "ciphertext segment layout does not match authenticated metadata"

def authenticationFailed : SourceVaultError :=
  failure .authenticationFailed "ciphertext stream authentication failed"

/-- What the metadata says of a plaintext of its length; a plaintext that is at hand is compared
with its length and its digest. -/
def validateDeclaredPlaintext (metadata : ObjectMetadata) (plaintext : Option (List UInt8)) :
    Except Fault Unit := do
  require (metadata.params.plaintextLen.toNat ≤ maxObjectPlaintextBytes)
    (.returned (failure .plaintextTooLarge "plaintext length exceeds the Phase 1 object limit"))
  match plaintext with
  | none => return ()
  | some plaintext => do
    require (plaintext.length = metadata.params.plaintextLen.toNat)
      (.returned (failure .lengthMismatch "plaintext length does not match object metadata"))
    require (ObjectCipher.sha256 plaintext = metadata.params.exactDigest)
      (.returned (failure .digestMismatch "plaintext digest does not match object metadata"))

/-! ## Segments -/

def expectedSegmentCount (plaintextLen : Nat) : Nat :=
  if plaintextLen = 0 then 1
  else (plaintextLen + segmentPlaintextBytes - 1) / segmentPlaintextBytes

def finalPlaintextLen (plaintextLen : Nat) : Nat :=
  if plaintextLen = 0 then 0 else (plaintextLen - 1) % segmentPlaintextBytes + 1

def validateSegmentLayout (plaintextLen : Nat) (segments : List (List UInt8)) :
    Except Fault Unit := do
  require (segments.length = expectedSegmentCount plaintextLen) (.returned malformedCiphertext)
  let full ← sliceInit segments
  require (∀ segment ∈ full, segment.length = segmentPlaintextBytes + aeadTagBytes)
    (.returned malformedCiphertext)
  require (segments.getLast?.map List.length = some (finalPlaintextLen plaintextLen + aeadTagBytes))
    (.returned malformedCiphertext)

/-- Where the last segment of a plaintext begins. -/
def finalOffset (plaintext : List UInt8) : Nat :=
  if plaintext.isEmpty then 0
  else (plaintext.length - 1) / segmentPlaintextBytes * segmentPlaintextBytes

def encryptStream (dek : FixedBytes keyBytes)
    (streamNoncePrefix : FixedBytes streamNoncePrefixBytes)
    (plaintext associatedData : List UInt8) : Except Fault (List (List UInt8)) := do
  let encryptor := StreamBE32.new dek streamNoncePrefix
  let head ← sliceTo plaintext (finalOffset plaintext)
  let (segments, encryptor) ← encryptor.all ObjectCipher.encrypt encryptionFailed associatedData
    (chunks segmentPlaintextBytes head)
  let tail ← sliceFrom plaintext (finalOffset plaintext)
  let last ← (encryptor.last ObjectCipher.encrypt associatedData tail).orError
    (.returned encryptionFailed)
  return segments ++ [last]

def decryptStream (dek : FixedBytes keyBytes)
    (streamNoncePrefix : FixedBytes streamNoncePrefixBytes) (segments : List (List UInt8))
    (associatedData : List UInt8) : Except Fault (List UInt8) := do
  let decryptor := StreamBE32.new dek streamNoncePrefix
  let full ← sliceInit segments
  let (pieces, decryptor) ← decryptor.all ObjectCipher.decrypt authenticationFailed
    associatedData full
  let segment ← segments.getLast?.orError .panicked
  let last ← (decryptor.last ObjectCipher.decrypt associatedData segment).orError
    (.returned authenticationFailed)
  return pieces.flatten ++ last

/-! ## The wrapped key -/

def wrapDek (key : KeyEncryptionKey) (dek : FixedBytes keyBytes)
    (nonce : FixedBytes wrapNonceBytes) (associatedData : List UInt8) :
    Except Fault (FixedBytes (keyBytes + aeadTagBytes)) := do
  let encrypted ← (ObjectCipher.encrypt key.fixed nonce associatedData dek.val).orError
    (.returned encryptionFailed)
  (FixedBytes.ofList (keyBytes + aeadTagBytes) encrypted).orError (.returned encryptionFailed)

def unwrapDek (key : KeyEncryptionKey) (nonce : FixedBytes wrapNonceBytes)
    (wrappedDek : FixedBytes (keyBytes + aeadTagBytes)) (associatedData : List UInt8) :
    Except Fault (FixedBytes keyBytes) := do
  let plaintext ← (ObjectCipher.decrypt key.fixed nonce associatedData wrappedDek.val).orError
    (.returned (failure .authenticationFailed
      "wrapped data encryption key authentication failed"))
  (FixedBytes.ofList keyBytes plaintext).orError
    (.returned (failure .malformedCiphertext "wrapped data encryption key has an invalid length"))

/-! ## Sealing and opening -/

/-- A source of random bytes, which may be unavailable. -/
abbrev RandomSource (σ : Type) :=
  (n : Nat) → σ → Except SourceVaultError (FixedBytes n × σ)

/-- The source that hands out the bytes of a stream in turn. -/
def randomStream : RandomSource (Nat → UInt8) :=
  fun n s => .ok (⟨(List.range n).map s, by simp⟩, fun i => s (n + i))

def RandomSource.fill {σ : Type} (random : RandomSource σ) (n : Nat) (s : σ) :
    Except Fault (FixedBytes n × σ) :=
  (random n s).mapError .returned

/-- The part of `sealObjectWithRandom` after its random bytes are drawn. -/
def sealWith (key : KeyEncryptionKey) (metadata : ObjectMetadata) (plaintext : List UInt8)
    (dek : FixedBytes keyBytes) (streamNoncePrefix : FixedBytes streamNoncePrefixBytes)
    (wrapNonce : FixedBytes wrapNonceBytes) : Except Fault SealedObject := do
  let segments ← encryptStream dek streamNoncePrefix plaintext
    (objectAad metadata streamNoncePrefix)
  let wrappedDek ← wrapDek key dek wrapNonce (wrapAad metadata streamNoncePrefix)
  return { streamNoncePrefix, wrapNonce, wrappedDek, segments }

def sealObjectWithRandom {σ : Type} (key : KeyEncryptionKey) (metadata : ObjectMetadata)
    (plaintext : List UInt8) (random : RandomSource σ) (s : σ) :
    Except Fault (SealedObject × σ) := do
  validateDeclaredPlaintext metadata (some plaintext)
  let (dek, s) ← random.fill keyBytes s
  let (streamNoncePrefix, s) ← random.fill streamNoncePrefixBytes s
  let (wrapNonce, s) ← random.fill wrapNonceBytes s
  let object ← sealWith key metadata plaintext dek streamNoncePrefix wrapNonce
  return (object, s)

def openObject (key : KeyEncryptionKey) (metadata : ObjectMetadata) (object : SealedObject) :
    Except Fault (List UInt8) := do
  validateDeclaredPlaintext metadata none
  validateSegmentLayout metadata.params.plaintextLen.toNat object.segments
  let dek ← unwrapDek key object.wrapNonce object.wrappedDek
    (wrapAad metadata object.streamNoncePrefix)
  let plaintext ← decryptStream dek object.streamNoncePrefix object.segments
    (objectAad metadata object.streamNoncePrefix)
  require (plaintext.length = metadata.params.plaintextLen.toNat)
    (.returned (failure .lengthMismatch
      "decrypted plaintext length does not match authenticated metadata"))
  require (ObjectCipher.sha256 plaintext = metadata.params.exactDigest)
    (.returned (failure .digestMismatch
      "decrypted plaintext digest does not match authenticated metadata"))
  return plaintext

end RadishMemory
