import RadishMemory.Construction.Core.Model

/-!
# Sources and fragments

A source artifact is an immutable text with its metadata; a fragment is an exact byte range of
it.  Both are `Checked` values: the constructor of the program is the check, and every value of
the type has passed it.  The complete capture of a file (`SourceCapture`) needs the
cross-object rules and is defined with them in `Construction.Core.Invariants`.
-/

namespace RadishMemory

inductive SourceKind where
  | text
  | markdown
deriving DecidableEq, Repr

inductive MediaType where
  | textPlain
  | textMarkdown
deriving DecidableEq, Repr

inductive SourceOriginKind where
  | syntheticFixture
  | explicitUserInput
deriving DecidableEq, Repr

inductive SourceCaptureOutcome where
  | created
  | idempotent
  | versioned
deriving DecidableEq, Repr

def sourceOriginBindingPrefix : String :=
  "origin-binding-"

/-- The suffix of a binding id holds ASCII letters, digits, `-`, `_` and `.` only. -/
def isBindingChar (c : Char) : Bool :=
  c.isAlphanum || c == '-' || c == '_' || c == '.'

def sourceOriginBindingIdIsValid (value : String) : Bool :=
  let start := sourceOriginBindingPrefix.toList
  start.isPrefixOf value.toList &&
    !(value.toList.drop start.length).isEmpty &&
    decide (value.utf8ByteSize ≤ 128) &&
    (value.toList.drop start.length).all isBindingChar

structure SourceArtifactParams where
  sourceId : Identifier
  lineageId : Identifier
  version : Version
  namespaceId : Identifier
  sourceKind : SourceKind
  mediaType : MediaType
  content : NonEmptyText
  contentLength : Nat
  contentDigest : Digest
  title : Option NonEmptyText
  originKind : SourceOriginKind
  originRef : Option NonEmptyText
  observedAt : Timestamp
  capturedAt : Timestamp
  supersedesSourceIds : List Identifier
  governance : Governance
  producer : ProducerRef
  createdAt : Timestamp

def expectedMediaType : SourceKind → MediaType
  | .text => .textPlain
  | .markdown => .textMarkdown

structure SourceFragmentParams where
  fragmentId : Identifier
  namespaceId : Identifier
  sourceId : Identifier
  ordinal : Nat
  byteStart : Nat
  byteEnd : Nat
  headingPath : Option (List NonEmptyText)
  content : NonEmptyText
  contentDigest : Digest
  segmenter : ProducerRef
  governance : Governance
  createdAt : Timestamp

variable [Platform]

def SourceArtifactParams.check (params : SourceArtifactParams) : Except CoreError Unit := do
  require (params.mediaType = expectedMediaType params.sourceKind)
    (.invalidCanonicalObject .invalidFieldCombination)
  require (params.contentLength = params.content.utf8Len)
    (.invalidCanonicalObject .contentLengthMismatch)
  requireProfile params.contentDigest .exactBytesV1
  require (computeExactBytesDigest (utf8Bytes params.content.asStr) = params.contentDigest)
    .digestMismatch
  requireUnique params.supersedesSourceIds
  require ((params.version.get = 1) ↔ (params.supersedesSourceIds = []))
    (.invalidCanonicalObject .invalidFieldCombination)

abbrev SourceArtifact :=
  Checked SourceArtifactParams.check

def SourceArtifact.new (params : SourceArtifactParams) : Except CoreError SourceArtifact :=
  Checked.new SourceArtifactParams.check params

def SourceFragmentParams.check (params : SourceFragmentParams) : Except CoreError Unit := do
  require (params.byteStart < params.byteEnd) (.invalidCanonicalObject .invalidByteRange)
  require (params.byteEnd - params.byteStart = params.content.utf8Len)
    (.invalidCanonicalObject .contentLengthMismatch)
  require (params.headingPath ≠ some []) (.invalidCanonicalObject .emptyRequiredCollection)
  requireProfile params.contentDigest .exactBytesV1
  require (computeExactBytesDigest (utf8Bytes params.content.asStr) = params.contentDigest)
    .digestMismatch

abbrev SourceFragment :=
  Checked SourceFragmentParams.check

def SourceFragment.new (params : SourceFragmentParams) : Except CoreError SourceFragment :=
  Checked.new SourceFragmentParams.check params

/-! ## Byte slices -/

/-- Split a text at a byte offset; there is no split inside a character or past the end. -/
def splitBytes : Nat → List Char → Option (List Char × List Char)
  | 0, rest => some ([], rest)
  | _ + 1, [] => none
  | n + 1, c :: rest =>
    if c.utf8Size ≤ n + 1 then
      (splitBytes (n + 1 - c.utf8Size) rest).map fun (taken, left) => (c :: taken, left)
    else none

/-- `str::get(start..end)`: the slice, when both offsets are character boundaries. -/
def sliceBytes (text : String) (start «end» : Nat) : Option String :=
  if start ≤ «end» then
    (splitBytes start text.toList).bind fun (_, rest) =>
      (splitBytes («end» - start) rest).map fun (taken, _) => String.ofList taken
  else none

end RadishMemory
