import RadishMemory.Construction.Core.Model
import RadishMemory.Construction.SourceVault.KeyProvider
import RadishMemory.Framework.Bytes

/-!
# Object metadata and associated data

The metadata of an encrypted object, and the two strings of associated data that bind it: one for
the segments of the object and one for its wrapped key.  Both are a prefix, a domain and the
profiles, followed by every field of the metadata and the nonce prefix of the stream.
-/

namespace RadishMemory

/-! ## Profiles and sizes -/

def envelopeProfile : String := "radishmemory.phase1-encrypted-source-vault/1"

def objectCipherProfile : String := "radishmemory.xchacha20poly1305-stream-be32/1"

def dekWrapProfile : String := "radishmemory.xchacha20poly1305-dek-wrap/1"

def digestProfile : String := "exact-bytes-v1"

def segmentPlaintextBytes : Nat := 1024 * 1024

def maxObjectPlaintextBytes : Nat := 8 * 1024 * 1024

def streamNoncePrefixBytes : Nat := 19

def wrapNonceBytes : Nat := 24

def aeadTagBytes : Nat := 16

/-- `u32::MAX` -/
def maxU32 : Nat := 4294967295

/-! ## Metadata -/

structure ObjectMetadataParams where
  namespaceId : String
  sourceId : String
  exactDigest : FixedBytes 32
  plaintextLen : UInt64
  mediaType : String
deriving DecidableEq

def ObjectMetadataParams.check (params : ObjectMetadataParams) :
    Except SourceVaultError Unit :=
  checkAll (fun value => require (utf8Bytes value ≠ [] ∧ (utf8Bytes value).length ≤ maxU32)
      (failure .invalidMetadata "object metadata contains an empty or oversized field"))
    [params.namespaceId, params.sourceId, params.mediaType]

abbrev ObjectMetadata :=
  Checked ObjectMetadataParams.check

def ObjectMetadata.new (params : ObjectMetadataParams) :
    Except SourceVaultError ObjectMetadata :=
  Checked.new ObjectMetadataParams.check params

/-! ## Associated data -/

/-- `b"RMAAD\x01"` -/
def aadCodecPrefix : List UInt8 :=
  [0x52, 0x4d, 0x41, 0x41, 0x44, 0x01]

def objectAadDomain : String := "radishmemory.source-object-aad/1"

def wrapAadDomain : String := "radishmemory.source-object-dek-wrap-aad/1"

/-- The fields of the associated data of an object, in order. -/
def objectAadFields (metadata : ObjectMetadata)
    (streamNoncePrefix : FixedBytes streamNoncePrefixBytes) : List (UInt8 × List UInt8) :=
  [(1, utf8Bytes objectAadDomain),
    (2, utf8Bytes envelopeProfile),
    (3, utf8Bytes objectCipherProfile),
    (4, utf8Bytes metadata.params.namespaceId),
    (5, utf8Bytes metadata.params.sourceId),
    (6, utf8Bytes digestProfile),
    (7, metadata.params.exactDigest.val),
    (8, bigEndian 8 metadata.params.plaintextLen.toNat),
    (9, utf8Bytes metadata.params.mediaType),
    (10, bigEndian 4 segmentPlaintextBytes),
    (11, streamNoncePrefix.val),
    (12, utf8Bytes dekWrapProfile),
    (13, utf8Bytes providerProfile)]

/-- The fields of the associated data of a wrapped key, in order. -/
def wrapAadFields (metadata : ObjectMetadata)
    (streamNoncePrefix : FixedBytes streamNoncePrefixBytes) : List (UInt8 × List UInt8) :=
  [(1, utf8Bytes wrapAadDomain),
    (2, utf8Bytes envelopeProfile),
    (3, utf8Bytes dekWrapProfile),
    (4, utf8Bytes providerProfile),
    (5, utf8Bytes metadata.params.namespaceId),
    (6, utf8Bytes metadata.params.sourceId),
    (7, utf8Bytes digestProfile),
    (8, metadata.params.exactDigest.val),
    (9, bigEndian 8 metadata.params.plaintextLen.toNat),
    (10, utf8Bytes metadata.params.mediaType),
    (11, streamNoncePrefix.val)]

/-- `output.push(tag)`, the length in four bytes, and the value. -/
def pushField (output : List UInt8) (tag : UInt8) (value : List UInt8) : List UInt8 :=
  output ++ taggedField tag value

def pushFields (output : List UInt8) (fields : List (UInt8 × List UInt8)) : List UInt8 :=
  fields.foldl (fun output field => pushField output field.1 field.2) output

def objectAad (metadata : ObjectMetadata)
    (streamNoncePrefix : FixedBytes streamNoncePrefixBytes) : List UInt8 :=
  pushFields aadCodecPrefix (objectAadFields metadata streamNoncePrefix)

def wrapAad (metadata : ObjectMetadata)
    (streamNoncePrefix : FixedBytes streamNoncePrefixBytes) : List UInt8 :=
  pushFields aadCodecPrefix (wrapAadFields metadata streamNoncePrefix)

end RadishMemory
