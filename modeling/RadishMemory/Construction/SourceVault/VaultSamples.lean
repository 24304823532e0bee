import RadishMemory.Construction.SourceVault.Envelope
import RadishMemory.Framework.ChaCha20Poly1305
import RadishMemory.Framework.Sha256

/-!
# Sample objects

The cipher that the vault is built with, and objects of a few bytes that are sealed with it.
-/

namespace RadishMemory

namespace VaultSample

/-! ## The cipher -/

/-- The nonce of a segment: the prefix, the position in four bytes, and the flag of the last. -/
def streamNonce (noncePrefix : FixedBytes streamNoncePrefixBytes) (position : Nat)
    (isLast : Bool) : FixedBytes wrapNonceBytes :=
  ⟨noncePrefix.val ++ bigEndian 4 position ++ [if isLast then 1 else 0], by
    simp [noncePrefix.property, streamNoncePrefixBytes, wrapNonceBytes]⟩

def sha256 (bytes : List UInt8) : FixedBytes 32 :=
  ⟨Sha256.digest bytes, Sha256.digest_length bytes⟩

def encrypt (key : FixedBytes keyBytes) (nonce : FixedBytes wrapNonceBytes)
    (associatedData message : List UInt8) : Option (List UInt8) :=
  ChaCha20Poly1305.encrypt key.val nonce.val associatedData message

def decrypt (key : FixedBytes keyBytes) (nonce : FixedBytes wrapNonceBytes)
    (associatedData message : List UInt8) : Option (List UInt8) :=
  ChaCha20Poly1305.decrypt key.val nonce.val associatedData message

namespace Actual

/-- XChaCha20-Poly1305 and SHA-256. -/
scoped instance cipher : ObjectCipher where
  sha256 := sha256
  encrypt := encrypt
  decrypt := decrypt
  streamNonce := streamNonce

end Actual

/-! ## Objects -/

def repeated (n : Nat) (byte : UInt8) : FixedBytes n :=
  ⟨List.replicate n byte, List.length_replicate⟩

def libraryKey : KeyEncryptionKey :=
  ⟨List.replicate 32 0x11, by rfl⟩

def metadata (plaintext : List UInt8) (plaintextLen : UInt64) : ObjectMetadata :=
  ⟨{ namespaceId := "namespace-synthetic"
     sourceId := "source-synthetic"
     exactDigest := sha256 plaintext
     plaintextLen
     mediaType := "text/markdown" }, by
    simp only [ObjectMetadataParams.check, checkAll_eq_ok_iff]
    decide +kernel⟩

/-- A wrapped key that was computed by the vault. -/
def wrappedVector : List UInt8 :=
  [0xfd, 0x30, 0xa3, 0x3a, 0x3a, 0x00, 0xe2, 0x4b, 0x95, 0xb4, 0xfc, 0xbd, 0xfc, 0x1a, 0x25, 0x8e,
    0x6b, 0x91, 0xab, 0xef, 0x38, 0x5f, 0x38, 0x66, 0xfd, 0xa5, 0x06, 0xcc, 0x40, 0x77, 0xa3, 0x60,
    0xea, 0x10, 0xea, 0x44, 0x19, 0x5c, 0x5e, 0xa6, 0x8e, 0x31, 0xeb, 0xb5, 0x36, 0x7a, 0x85, 0x7d]

example : encrypt libraryKey.fixed (repeated 24 0x44)
    (wrapAad (metadata (utf8Bytes "synthetic wrap vector") 21) (repeated 19 0x33))
    (repeated 32 0x22).val = some wrappedVector := by
  decide +kernel

/-! ## A sealed text -/

def plaintext : List UInt8 :=
  utf8Bytes "alpha"

def dek : FixedBytes keyBytes :=
  repeated 32 0x22

def noncePrefix : FixedBytes streamNoncePrefixBytes :=
  repeated 19 0x33

def wrapNonce : FixedBytes wrapNonceBytes :=
  repeated 24 0x44

def alphaMetadata : ObjectMetadata :=
  metadata plaintext 5

/-- The text, sealed with these keys and nonces. -/
def alpha : SealedObject :=
  { streamNoncePrefix := noncePrefix
    wrapNonce
    wrappedDek :=
      ⟨[0xfd, 0x30, 0xa3, 0x3a, 0x3a, 0x00, 0xe2, 0x4b, 0x95, 0xb4, 0xfc, 0xbd, 0xfc, 0x1a, 0x25,
        0x8e, 0x6b, 0x91, 0xab, 0xef, 0x38, 0x5f, 0x38, 0x66, 0xfd, 0xa5, 0x06, 0xcc, 0x40, 0x77,
        0xa3, 0x60, 0x40, 0x54, 0xeb, 0xd8, 0x5c, 0x98, 0x48, 0x71, 0xe2, 0xc1, 0x18, 0x0d, 0x73,
        0x2c, 0xfa, 0x73], by rfl⟩
    segments :=
      [[0x24, 0x33, 0x8b, 0x33, 0x6e, 0x89, 0xd7, 0x24, 0xda, 0x2d, 0x76, 0xfd, 0xee, 0xde, 0xe7,
        0xbc, 0x1c, 0x7c, 0x25, 0x09, 0xe9]] }

namespace Ideal

/-- The cipher calls that seal the text: the wrapped key and the one segment. -/
def calls : List (FixedBytes keyBytes × FixedBytes wrapNonceBytes × List UInt8 × List UInt8) :=
  [(libraryKey.fixed, wrapNonce, wrapAad alphaMetadata noncePrefix, dek.val),
    (dek, streamNonce noncePrefix 0 true, objectAad alphaMetadata noncePrefix, plaintext)]

/-- The ciphertext is the one of such a call. -/
def issued (key : FixedBytes keyBytes) (nonce : FixedBytes wrapNonceBytes)
    (associatedData ciphertext : List UInt8) : Bool :=
  calls.any fun call => call.1 == key && call.2.1 == nonce && call.2.2.1 == associatedData &&
    encrypt key nonce associatedData call.2.2.2 == some ciphertext

/-- The same cipher without forgeries: nothing else decrypts. -/
scoped instance idealCipher : ObjectCipher where
  sha256 := sha256
  encrypt := encrypt
  decrypt key nonce associatedData ciphertext :=
    if issued key nonce associatedData ciphertext then
      decrypt key nonce associatedData ciphertext
    else none
  streamNonce := streamNonce

end Ideal

end VaultSample

end RadishMemory
