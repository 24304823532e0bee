import RadishMemory.Construction.SourceVault.Crypto

/-!
# The envelope of an object file

Sixteen tagged fields in a fixed order: the profiles, the metadata, the nonces, the wrapped key
and the segments, written one after the other and cut again by their length.  A decoder is told
the metadata it has to find; what stands in the file is compared with it and never used instead.
-/

namespace RadishMemory

namespace Envelope

/-- `b"RMOBJ\x01"` -/
def magic : List UInt8 :=
  [0x52, 0x4d, 0x4f, 0x42, 0x4a, 0x01]

def generator : String := "radishmemory.source-object-writer/1"

def maxMetadataField : Nat := 4096

def maxEnvelopeBytes : Nat :=
  maxObjectPlaintextBytes + 3 * maxMetadataField + 2048

def malformed : SourceVaultError :=
  failure .invalidEnvelope "unsupported or malformed object envelope"

def validateMetadata (metadata : ObjectMetadata) : Except Fault Unit := do
  require (metadata.params.plaintextLen.toNat ≤ maxObjectPlaintextBytes)
    (.returned (failure .plaintextTooLarge "object length exceeds the filesystem adapter limit"))
  require (∀ value ∈ [metadata.params.namespaceId, metadata.params.sourceId,
      metadata.params.mediaType], (utf8Bytes value).length ≤ maxMetadataField)
    (.returned (failure .invalidMetadata
      "filesystem envelope metadata field exceeds its limit"))

/-! ## Fields -/

/-- The fields that every envelope has. -/
def profileFields : List (UInt8 × List UInt8) :=
  [(1, utf8Bytes envelopeProfile),
    (2, utf8Bytes generator),
    (3, utf8Bytes objectCipherProfile),
    (4, utf8Bytes dekWrapProfile),
    (5, utf8Bytes providerProfile),
    (6, utf8Bytes digestProfile)]

def metadataFields (metadata : ObjectMetadata) : List (UInt8 × List UInt8) :=
  [(7, utf8Bytes metadata.params.namespaceId),
    (8, utf8Bytes metadata.params.sourceId),
    (9, metadata.params.exactDigest.val),
    (10, bigEndian 8 metadata.params.plaintextLen.toNat),
    (11, utf8Bytes metadata.params.mediaType)]

def sealedFields (object : SealedObject) : List (UInt8 × List UInt8) :=
  [(12, bigEndian 4 segmentPlaintextBytes),
    (13, object.streamNoncePrefix.val),
    (14, object.wrapNonce.val),
    (15, object.wrappedDek.val)]

def field (out : List UInt8) (tag : UInt8) (bytes : List UInt8) : List UInt8 :=
  out ++ taggedField tag bytes

/-- `&mut input` of the decoder: what is left of the envelope. -/
abbrev Input := List UInt8

def index (input : Input) (position : Nat) : Except Fault UInt8 :=
  input[position]?.orError .panicked

/-- `input.get(start..)`, and `malformed` where there is none. -/
def getFrom (input : Input) (start : Nat) : Except Fault Input :=
  if start ≤ input.length then .ok (input.drop start) else .error (.returned malformed)

/-- `input.get(..stop)`, and `malformed` where there is none. -/
def getTo (input : Input) (stop : Nat) : Except Fault Input :=
  if stop ≤ input.length then .ok (input.take stop) else .error (.returned malformed)

/-- The value of the next field, which has this tag, and the input after it. -/
def take (input : Input) (tag : UInt8) : Except Fault (List UInt8 × Input) := do
  require (5 ≤ input.length) (.returned malformed)
  let first ← index input 0
  require (first = tag) (.returned malformed)
  let header ← sliceTo input 5
  let size ← sliceFrom header 1
  let body ← getFrom input 5
  let value ← getTo body (ofBigEndian size)
  let rest ← sliceFrom body (ofBigEndian size)
  return (value, rest)

/-- Take fields in turn and compare each with the value it must have. -/
def takeExpected (error : SourceVaultError) :
    Input → List (UInt8 × List UInt8) → Except Fault Input
  | input, [] => .ok input
  | input, (tag, expected) :: fields => do
    let (value, input) ← take input tag
    require (value = expected) (.returned error)
    takeExpected error input fields

/-- Take a field of a fixed length. -/
def takeFixed (n : Nat) (input : Input) (tag : UInt8) :
    Except Fault (FixedBytes n × Input) := do
  let (value, input) ← take input tag
  let fixed ← (FixedBytes.ofList n value).orError (.returned malformed)
  return (fixed, input)

/-! ## The codec -/

def encode (metadata : ObjectMetadata) (object : SealedObject) : Except Fault (List UInt8) := do
  validateMetadata metadata
  let out := (profileFields ++ metadataFields metadata ++ sealedFields object).foldl
    (fun out entry => field out entry.1 entry.2) magic
  let length := (object.segments.map List.length).sum
  return out ++ (16 :: bigEndian 4 length) ++ object.segments.flatten

/-- `length.div_ceil(SEGMENT_PLAINTEXT_BYTES).max(1)` -/
def segmentCount (length : Nat) : Nat :=
  max ((length + segmentPlaintextBytes - 1) / segmentPlaintextBytes) 1

def decode (bytes : List UInt8) (expected : ObjectMetadata) : Except Fault SealedObject := do
  validateMetadata expected
  require (bytes.length ≤ maxEnvelopeBytes ∧ bytes.take magic.length = magic)
    (.returned malformed)
  let input ← sliceFrom bytes magic.length
  let input ← takeExpected malformed input profileFields
  let input ← takeExpected
    (failure .metadataMismatch "envelope does not match expected object metadata") input
    (metadataFields expected)
  let (segmentBytes, input) ← take input 12
  require (segmentBytes = bigEndian 4 segmentPlaintextBytes) (.returned malformed)
  let (streamNoncePrefix, input) ← takeFixed streamNoncePrefixBytes input 13
  let (wrapNonce, input) ← takeFixed wrapNonceBytes input 14
  let (wrappedDek, input) ← takeFixed (keyBytes + aeadTagBytes) input 15
  let (ciphertext, input) ← take input 16
  let length := expected.params.plaintextLen.toNat
  require (input.isEmpty ∧
      ciphertext.length = length + segmentCount length * aeadTagBytes) (.returned malformed)
  return { streamNoncePrefix, wrapNonce, wrappedDek,
           segments := chunks (segmentPlaintextBytes + aeadTagBytes) ciphertext }

end Envelope

end RadishMemory
