import RadishMemory.Construction.Core.Invariants
import RadishMemory.Framework.Codes
import Mathlib.Data.List.Sort

/-!
# The fingerprint of a capture request

A prepared capture is bound to its request by a digest of the request: the binding, all metadata
of the source and of its fragments, each text and each list after its length.  The contents are
represented by their digests.
-/

namespace RadishMemory

/-! ## Stored words -/

def sourceKindStr : SourceKind → String
  | .text => "text"
  | .markdown => "markdown"

def MediaType.asStr : MediaType → String
  | .textPlain => "text/plain"
  | .textMarkdown => "text/markdown"

def sourceOriginKindStr : SourceOriginKind → String
  | .syntheticFixture => "synthetic_fixture"
  | .explicitUserInput => "explicit_user_input"

def sensitivityStr : Sensitivity → String
  | .personal => "personal"
  | .sensitive => "sensitive"
  | .restricted => "restricted"

def egressPolicyStr : EgressPolicy → String
  | .localOnly => "local_only"
  | .trustedDeviceOnly => "trusted_device_only"
  | .trustedServerOnly => "trusted_server_only"
  | .cloudAllowed => "cloud_allowed"

def retentionModeStr : RetentionMode → String
  | .untilDeleted => "until_deleted"
  | .untilTime => "until_time"
  | .policy => "policy"

def deletionStateStr : DeletionState → String
  | .active => "active"
  | .pending => "pending"
  | .failed => "failed"
  | .deleted => "deleted"

def producerTypeStr : ProducerType → String
  | .rule => "rule"
  | .parser => "parser"
  | .testFixture => "test_fixture"
  | .system => "system"

def DigestProfile.asStr : DigestProfile → String
  | .exactBytesV1 => "exact-bytes-v1"
  | .utf8NfcTextV1 => "utf8-nfc-text-v1"
  | .canonicalJsonV1 => "canonical-json-v1"
  | .fixtureSuiteV1 => "fixture-suite-v1"
  | .contextPackV1 => "context-pack-v1"
  | .deletionEvidenceV1 => "deletion-evidence-v1"

/-- The algorithm of every digest. -/
def Digest.algorithm (_ : Digest) : String :=
  "sha256"

/-! ## The codec -/

namespace CaptureCodec

def number (n : Nat) : List UInt8 :=
  bigEndian 8 n

def text (value : String) : List UInt8 :=
  framed (utf8Bytes value)

/-- `for s in [..] { codec.text(s) }` -/
def texts (values : List String) : List UInt8 :=
  values.flatMap text

def optional (value : Option String) : List UInt8 :=
  optionalCode text value

def governance (value : Governance) : List UInt8 :=
  texts [sensitivityStr value.sensitivity, egressPolicyStr value.egressPolicy,
      retentionModeStr value.retention.mode, deletionStateStr value.deletionState,
      value.policyBasis.asStr] ++
    optional (value.retention.expiresAt.map Timestamp.original) ++
    optional (value.retention.policyId.map Identifier.asStr)

def producer (value : ProducerRef) : List UInt8 :=
  texts [producerTypeStr value.producerType, value.producerId.asStr,
    value.producerVersion.asStr]

/-- Every field of the source but its content. -/
def source (value : SourceArtifactParams) : List UInt8 :=
  texts [value.sourceId.asStr, value.lineageId.asStr, value.namespaceId.asStr,
      sourceKindStr value.sourceKind, value.mediaType.asStr, value.contentDigest.algorithm,
      value.contentDigest.profile.asStr, value.contentDigest.value.text,
      sourceOriginKindStr value.originKind, value.observedAt.original, value.capturedAt.original,
      value.createdAt.original] ++
    number value.version.get ++
    number value.contentLength ++
    optional (value.title.map NonEmptyText.asStr) ++
    optional (value.originRef.map NonEmptyText.asStr) ++
    countedList (fun id : Identifier => text id.asStr) value.supersedesSourceIds ++
    governance value.governance ++
    producer value.producer

/-- `None` is a zero, `Some` a one before the counted headings. -/
def headings : Option (List NonEmptyText) → List UInt8 :=
  optionalCode (countedList fun heading => text heading.asStr)

def fragment (value : SourceFragmentParams) : List UInt8 :=
  texts [value.fragmentId.asStr, value.namespaceId.asStr, value.sourceId.asStr,
      value.contentDigest.algorithm, value.contentDigest.profile.asStr,
      value.contentDigest.value.text, value.createdAt.original] ++
    number value.ordinal ++
    number value.byteStart ++
    number value.byteEnd ++
    headings value.headingPath ++
    governance value.governance ++
    producer value.segmenter

end CaptureCodec

section Fingerprint

variable [Platform]

def fingerprintPrefix : List UInt8 :=
  utf8Bytes "radishmemory.capture-attempt/1\x00"

/-- `sort_by_key`, which is stable. -/
def sortedFragments (fragments : List SourceFragment) : List SourceFragment :=
  fragments.insertionSort fun a b => a.params.ordinal ≤ b.params.ordinal

def fingerprintBytes (capture : SourceCapture) : List UInt8 :=
  fingerprintPrefix ++ CaptureCodec.text capture.params.originBindingId.asStr ++
    CaptureCodec.source capture.params.source.params ++
    countedList (fun fragment : SourceFragment => CaptureCodec.fragment fragment.params)
      (sortedFragments capture.params.fragments)

def fingerprint (capture : SourceCapture) : Sha256Hex :=
  (computeExactBytesDigest (fingerprintBytes capture)).value

end Fingerprint

end RadishMemory
