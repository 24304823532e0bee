import RadishMemory.Construction.Core.Context
import RadishMemory.Construction.Library
import RadishMemory.Construction.Application.LocalLibrary
import RadishMemory.Construction.Sqlite.Concurrency
import RadishMemory.Framework.Sha256

/-!
# A concrete platform and small objects

An instance of `Platform` that computes the real SHA-256, and builders for sources, captures and
delete requests with arbitrary ids.  Statements about the library never mention them; they are
what concrete runs of it are made of.

All texts are ASCII, where normalization form C is the identity.  The digest of the one text
that every sample source has is tabulated, so that evaluating a run does not hash it again for
every read; `sha256_text` says that the table changes nothing.
-/

namespace RadishMemory

namespace Sample

/-! ## The platform -/

def hashHex (input : List UInt8) : Sha256Hex where
  text := String.ofList (Sha256.hash input)
  wellFormed := by
    simp only [isSha256Hex, String.toList_ofList, Sha256.hash_length, Bool.and_eq_true, beq_iff_eq,
      true_and, List.all_eq_true]
    intro c hc
    have hdigits : ("0123456789abcdef".toList.all fun c =>
        c.isDigit || ('a' ≤ c && c ≤ 'f')) = true := by
      rfl
    exact List.all_eq_true.mp hdigits c (Sha256.hash_hex hc)

def sha256 (input : List UInt8) : Sha256Hex :=
  if input = utf8Bytes "alpha" then
    ⟨"8ed3f6ad685b959ead7022518e1af76cd816f8e8ec7ccdda1ed4018e8f2223f8", by decide +kernel⟩
  else hashHex input

theorem hash_alpha : Sha256.hash (utf8Bytes "alpha") =
    "8ed3f6ad685b959ead7022518e1af76cd816f8e8ec7ccdda1ed4018e8f2223f8".toList := by
  decide +kernel

/-- The platform hashes with SHA-256. -/
theorem sha256_text (input : List UInt8) :
    (sha256 input).text = String.ofList (Sha256.hash input) := by
  unfold sha256
  split
  · rename_i heq
    rw [heq, hash_alpha, String.ofList_toList]
  · rfl

scoped instance platform : Platform where
  sha256 := sha256
  nfc := id

/-- A full-text engine that knows the answer for an empty table and refuses any other query. -/
scoped instance fullText : FullText where
  matchKeys _ rows := if rows.isEmpty then some [] else none

/-! ## Values -/

def identifier (value : String) (h : value ≠ "" := by decide) : Identifier :=
  ⟨value, h⟩

def text (value : String) (h : value ≠ "" := by decide) : NonEmptyText :=
  ⟨value, h⟩

/-- A second of the first ten of the year 2026; `second` is a digit. -/
def time (second : Nat) : Timestamp :=
  { original := "2026-01-01T00:00:0" ++ toString second ++ "Z"
    utcSecondKey := 2 * (1767225600 + second)
    fractionalSeconds := []
    offsetSeconds := 0 }

def namespaceId : Identifier :=
  identifier "library"

def governance (state : DeletionState) : Governance :=
  { sensitivity := .personal
    egressPolicy := .localOnly
    retention :=
      { mode := .untilDeleted, expiresAt := none, policyId := none, fieldsMatch := rfl }
    deletionState := state
    policyBasis := identifier "policy"
    localOnly := rfl }

def producer : ProducerRef :=
  { producerType := .parser
    producerId := identifier "parser"
    producerVersion := text "1" }

def actor : ActorRef :=
  { actorType := .user, actorId := identifier "user", actorVersion := none }

/-! ## Sources -/

/-- The first version of a lineage: captured under a binding, or synthetic without one. -/
def sourceParams (sourceId lineageId : Identifier) (binding : Option Identifier) :
    SourceArtifactParams :=
  { sourceId
    lineageId
    version := ⟨1, by decide⟩
    namespaceId
    sourceKind := .text
    mediaType := .textPlain
    content := text "alpha"
    contentLength := 5
    contentDigest := computeExactBytesDigest (utf8Bytes "alpha")
    title := none
    originKind := if binding.isSome then .explicitUserInput else .syntheticFixture
    originRef := binding.map fun id => ⟨id.asStr, id.nonempty⟩
    observedAt := time 0
    capturedAt := time 0
    supersedesSourceIds := []
    governance := governance .active
    producer
    createdAt := time 0 }

theorem sourceParams_check (sourceId lineageId : Identifier) (binding : Option Identifier) :
    (sourceParams sourceId lineageId binding).check = .ok () := by
  simp only [SourceArtifactParams.check, sourceParams, requireProfile, requireUnique,
    computeExactBytesDigest, makeDigest, expectedMediaType, text]
  rfl

def source (sourceId lineageId : Identifier) (binding : Option Identifier) : SourceArtifact :=
  ⟨sourceParams sourceId lineageId binding, sourceParams_check sourceId lineageId binding⟩

/-- The fragment that is the whole source. -/
def fragmentParams (fragmentId sourceId : Identifier) (ordinal : Nat) (state : DeletionState) :
    SourceFragmentParams :=
  { fragmentId
    namespaceId
    sourceId
    ordinal
    byteStart := 0
    byteEnd := 5
    headingPath := none
    content := text "alpha"
    contentDigest := computeExactBytesDigest (utf8Bytes "alpha")
    segmenter := producer
    governance := governance state
    createdAt := time 0 }

theorem fragmentParams_check (fragmentId sourceId : Identifier) (ordinal : Nat)
    (state : DeletionState) : (fragmentParams fragmentId sourceId ordinal state).check = .ok () := by
  simp only [SourceFragmentParams.check, fragmentParams, requireProfile, computeExactBytesDigest,
    makeDigest, text]
  rfl

def fragment (fragmentId sourceId : Identifier) (ordinal : Nat) (state : DeletionState) :
    SourceFragment :=
  ⟨fragmentParams fragmentId sourceId ordinal state,
    fragmentParams_check fragmentId sourceId ordinal state⟩

def captureParams (sourceId lineageId fragmentId binding : Identifier) : SourceCaptureParams :=
  { originBindingId := binding
    source := source sourceId lineageId (some binding)
    fragments := [fragment fragmentId sourceId 0 .active] }

/-- The capture of a file with one fragment. -/
def capture (sourceId lineageId fragmentId binding : Identifier)
    (h : (captureParams sourceId lineageId fragmentId binding).check = .ok () := by
      decide +kernel) : SourceCapture :=
  ⟨captureParams sourceId lineageId fragmentId binding, h⟩

/-! ## Memories -/

def memoryValue : MemoryValue :=
  ⟨{ text := text "alpha", contentDigest := computeNfcTextDigest "alpha" }, rfl⟩

def unknownTime : ValidTime :=
  { mode := .unknown
    startAt := none
    endAt := none
    precision := .unknown
    boundaries := rfl
    ordered := rfl }

def fromStart : ValidTime :=
  { mode := .openEnded
    startAt := some (time 0)
    endAt := none
    precision := .exact
    boundaries := rfl
    ordered := rfl }

def certainty : UnitInterval :=
  ⟨0x3FF0000000000000, le_refl _⟩

/-- A proposal that cites the fragments; with targets, one that supersedes them. -/
def proposalParams (proposalId : Identifier) (fragmentIds targets : List Identifier)
    (validTime : ValidTime) : MemoryProposalParams :=
  { proposalId
    namespaceId
    operation := if targets.isEmpty then .create else .supersede
    memoryType := .claim
    subjectRef := identifier "subject"
    proposedContent := memoryValue
    sourceFragmentRefs := fragmentIds
    targetMemoryIds := targets
    observedAt := time 0
    validTime
    confidence := certainty
    importance := certainty
    governance := governance .active
    producer
    reasonCode := text "observed"
    proposedAt := time 0 }

def proposal (proposalId : Identifier) (fragmentIds targets : List Identifier)
    (validTime : ValidTime)
    (h : (proposalParams proposalId fragmentIds targets validTime).check = .ok () := by
      decide +kernel) : MemoryProposal :=
  ⟨proposalParams proposalId fragmentIds targets validTime, h⟩

/-- The first decision of a proposal, which accepts it as the given memory. -/
def accept (decisionId proposalId memoryId : Identifier) : MemoryDecision :=
  ⟨{ decisionId
     namespaceId
     proposalId
     previousDecisionId := none
     decision := .accept
     decidedBy := actor
     authorizationBasis := text "user-request"
     reasonCode := text "agreed"
     reasonText := none
     resultMemoryId := some memoryId
     decidedAt := time 0 }, rfl⟩

/-- The record that an accepted proposal of the same fragments and targets becomes. -/
def recordParams (memoryId lineageId : Identifier) (version : Version)
    (proposalId decisionId eventId : Identifier) (fragmentIds targets : List Identifier)
    (validTime : ValidTime) : MemoryRecordParams :=
  { memoryId
    lineageId
    version
    namespaceId
    memoryType := .claim
    subjectRef := identifier "subject"
    content := memoryValue
    sourceFragmentRefs := fragmentIds
    originProposalId := proposalId
    acceptedByDecisionId := decisionId
    observedAt := time 0
    validTime
    confidence := certainty
    importance := certainty
    governance := governance .active
    currentState := .confirmed
    lastStateEventId := eventId
    supersedesMemoryIds := targets
    contradictsMemoryIds := []
    contentDigest := computeNfcTextDigest "alpha"
    createdAt := time 0 }

def record (memoryId lineageId : Identifier) (version : Version)
    (proposalId decisionId eventId : Identifier) (fragmentIds targets : List Identifier)
    (validTime : ValidTime)
    (h : (recordParams memoryId lineageId version proposalId decisionId eventId fragmentIds targets
      validTime).check = .ok () := by decide +kernel) : MemoryRecord :=
  ⟨recordParams memoryId lineageId version proposalId decisionId eventId fragmentIds targets
    validTime, h⟩

/-- The event that starts a record. -/
def confirmed (eventId memoryId decisionId : Identifier) : MemoryStateEvent :=
  ⟨{ eventId
     namespaceId
     memoryId
     previousEventId := none
     eventType := .confirmed
     fromState := none
     causeRef := ⟨.memoryDecision, decisionId⟩
     relatedMemoryIds := []
     actor
     reasonCode := text "agreed"
     effectiveAt := none
     occurredAt := time 0 }, rfl⟩

/-- The event that closes a record because another one supersedes it. -/
def superseded (eventId previousEventId memoryId newMemoryId : Identifier) : MemoryStateEvent :=
  ⟨{ eventId
     namespaceId
     memoryId
     previousEventId := some previousEventId
     eventType := .superseded
     fromState := some .confirmed
     causeRef := ⟨.memoryRecord, newMemoryId⟩
     relatedMemoryIds := [newMemoryId]
     actor
     reasonCode := text "superseded"
     effectiveAt := some (time 0)
     occurredAt := time 0 }, rfl⟩

/-! ## A context pack over one memory -/

/-- A record of the one fragment of the first file. -/
def packRecord : MemoryRecord :=
  record (identifier "memory-1") (identifier "memory-lineage-1") ⟨1, by decide⟩
    (identifier "proposal-1") (identifier "decision-1") (identifier "event-1")
    [identifier "fragment-1"] [] fromStart

def packOrigin : ResolvedSource :=
  { fragment := fragment (identifier "fragment-1") (identifier "source-1") 0 .active
    source := source (identifier "source-1") (identifier "lineage-1")
      (some (identifier "origin-binding-1")) }

def packCitation : Citation :=
  { citationId := identifier "citation-1"
    sourceId := identifier "source-1"
    fragmentId := identifier "fragment-1"
    byteStart := 0
    byteEnd := 5
    fragmentDigest := computeExactBytesDigest (utf8Bytes "alpha")
    rangeNonempty := by decide
    exactBytes := rfl }

def packItem : ContextItem :=
  ⟨{ itemId := identifier "item-1"
     ordinal := 0
     itemType := .memoryRecord
     objectRefs := [⟨.memoryRecord, identifier "memory-1"⟩]
     renderedContent := text "alpha"
     contentDigest := computeNfcTextDigest "alpha"
     evidenceRefs := [⟨.memoryRecord, identifier "memory-1"⟩]
     citationIds := [identifier "citation-1"]
     selectionReasonCodes := [text "matched"]
     temporalRole := .current
     truncation := ⟨false, 5, 5, none, rfl⟩ }, by decide +kernel⟩

def pack : ContextPack :=
  ⟨{ contextPackId := identifier "pack-1"
     namespaceId
     requestId := identifier "request-1"
     task := text "alpha"
     taskDigest := computeNfcTextDigest "alpha"
     asOf := time 1
     compiledAt := time 1
     governance := governance .active
     budget := ⟨100, 5, by decide⟩
     items := [packItem]
     citationMap := [packCitation]
     filterSummary := []
     contentDigest := ⟨.contextPackV1, sha256 []⟩ }, by decide +kernel⟩

/-! ## Deletion -/

def config : LocalLibraryConfig :=
  { namespaceId
    deletion :=
      { requestedBy := actor
        authorizationBasis := text "user-request"
        deviceId := identifier "device"
        reasonCode := text "user-delete"
        retentionPolicyBasis := identifier "retention-policy"
        verifiedBy := producer } }

def requestParams (deleteRequestId : Identifier) (targetRefs : List ObjectRef) :
    DeleteRequestParams :=
  { deleteRequestId
    namespaceId
    requestedBy := config.deletion.requestedBy
    authorizationBasis := config.deletion.authorizationBasis
    requestedGuarantee := .localPurge
    deviceId := config.deletion.deviceId
    targetRefs
    plannedComponents :=
      match buildLocalPurgeTargets targetRefs with
      | .ok components => components
      | .error _ => []
    reasonCode := config.deletion.reasonCode
    requestedAt := time 1 }

def request (deleteRequestId : Identifier) (targetRefs : List ObjectRef)
    (h : (requestParams deleteRequestId targetRefs).check = .ok () := by decide +kernel) :
    DeleteRequest :=
  ⟨requestParams deleteRequestId targetRefs, h⟩

def execution : LocalDeletionExecution :=
  config.execution (time 2)

/-! ## Operations on two files -/

def captureFirst : Op :=
  .captureSource (capture (identifier "source-1") (identifier "lineage-1")
    (identifier "fragment-1") (identifier "origin-binding-1"))

def captureSecond : Op :=
  .captureSource (capture (identifier "source-2") (identifier "lineage-2")
    (identifier "fragment-2") (identifier "origin-binding-2"))

/-- Another file whose fragment has the id that the fragment of the first file had. -/
def captureReusing : Op :=
  .captureSource (capture (identifier "source-2") (identifier "lineage-2")
    (identifier "fragment-1") (identifier "origin-binding-2"))

/-- A memory of the first file, proposed, accepted and materialized. -/
def proposeFirst : Op :=
  .storeMemoryProposal (proposal (identifier "proposal-1") [identifier "fragment-1"] [] fromStart)

def acceptFirst : Op :=
  .storeMemoryDecision
    (accept (identifier "decision-1") (identifier "proposal-1") (identifier "memory-1"))

def materializeFirst : Op :=
  .materializeAcceptedMemory
    (record (identifier "memory-1") (identifier "memory-lineage-1") ⟨1, by decide⟩
      (identifier "proposal-1") (identifier "decision-1") (identifier "event-1")
      [identifier "fragment-1"] [] fromStart)
    (confirmed (identifier "event-1") (identifier "memory-1") (identifier "decision-1")) []

def deleteFirst : DeleteRequest :=
  request (identifier "delete-1") [⟨.sourceArtifact, identifier "source-1"⟩]

def executeFirst : Op :=
  .executeDeletion namespaceId (identifier "delete-1") execution (fun _ => false) none

/-- The execution in which the body of the file cannot be removed. -/
def executeFirstWithoutBody : Op :=
  .executeDeletion namespaceId (identifier "delete-1") execution (· == .sourceBody) none

/-- The results of an execution of the first request. -/
def resultsOfFirst (db : Database) (faulty : DeletionComponentType → Bool) :
    List ComponentResult :=
  match ((executeDeletion namespaceId (identifier "delete-1") execution faulty).run db).1 with
  | .ok results => results
  | .error _ => []

def evidenceParams (deletionEvidenceId : Identifier) (previousEvidenceId : Option Identifier)
    (componentResults : List ComponentResult) : DeletionEvidenceParams :=
  { deletionEvidenceId
    deleteRequestId := identifier "delete-1"
    previousEvidenceId
    namespaceId
    deviceId := config.deletion.deviceId
    overallStatus := expectedStatus componentResults
    componentResults
    startedAt := time 2
    finishedAt := some (time 3)
    verifiedBy := producer
    evidenceDigest := ⟨.deletionEvidenceV1, sha256 []⟩ }

/-- The first file captured and its deletion requested. -/
def firstRequested : List Op :=
  [captureFirst, .storeDeleteRequest deleteFirst]

def completedFirst : DeletionEvidence :=
  ⟨evidenceParams (identifier "evidence-1") none
    (resultsOfFirst (runOps .empty firstRequested) fun _ => false), by decide +kernel⟩

/-- The same evidence with the digest of another text. -/
def relabelledFirst : DeletionEvidence :=
  ⟨{ completedFirst.params with
      evidenceDigest := ⟨.deletionEvidenceV1, sha256 (utf8Bytes "alpha")⟩ }, by decide +kernel⟩

/-- The first file deleted, with evidence that the deletion is complete. -/
def firstCompleted : List Op :=
  firstRequested ++ [executeFirst, .storeDeletionEvidence completedFirst none]

def failedFirst : DeletionEvidence :=
  ⟨evidenceParams (identifier "evidence-2") (some (identifier "evidence-1"))
    (resultsOfFirst (runOps .empty firstCompleted) (· == .sourceBody)), by decide +kernel⟩

/-- The first file as a source that is written without a capture. -/
def storeFirst : Op :=
  .storeSourceArtifact (source (identifier "source-1") (identifier "lineage-1") none)

/-- A fragment of the first file that is already waiting to be deleted when it is written. -/
def writePendingFirst : Op :=
  .storeSourceFragments [fragment (identifier "fragment-1") (identifier "source-1") 0 .pending]

/-- A second fragment over the bytes of the first file. -/
def overlapping : SourceFragment :=
  fragment (identifier "fragment-2") (identifier "source-1") 1 .active

def pendingWritten : List Op :=
  [storeFirst, writePendingFirst]

def completedPending : DeletionEvidence :=
  ⟨evidenceParams (identifier "evidence-1") none
    (resultsOfFirst (runOps .empty (pendingWritten ++ [.storeDeleteRequest deleteFirst]))
      fun _ => false), by decide +kernel⟩

/-- A proposal that cites the fragments of both files. -/
def proposeBoth : Op :=
  .storeMemoryProposal (proposal (identifier "proposal-1")
    [identifier "fragment-1", identifier "fragment-2"] [] fromStart)

def deleteSecond : DeleteRequest :=
  request (identifier "delete-2") [⟨.sourceArtifact, identifier "source-2"⟩]

/-- Two files that one proposal cites, and the deletion of both requested. -/
def bothRequested : List Op :=
  [captureFirst, captureSecond, proposeBoth, .storeDeleteRequest deleteFirst,
    .storeDeleteRequest deleteSecond]

/-- A clock that goes back after the request, and fresh ids. -/
def backwardRuntime : DeletionRuntime :=
  { requestedAt := some (time 2)
    startedAt := some (time 1)
    finishedAt := some (time 3)
    deleteRequestId := some (identifier "delete-1")
    deletionEvidenceId := some (identifier "evidence-1") }

/-! ## Two connections -/

/-- Evidence of the second execution of the first request, as if it were the first evidence. -/
def completedAgain : DeletionEvidence :=
  ⟨evidenceParams (identifier "evidence-2") none
    (resultsOfFirst (runOps .empty (firstRequested ++ [executeFirst])) fun _ => false),
    by decide +kernel⟩

/-- The first connection stores evidence of the first execution, up to the given access. -/
def storingFirst (accesses : Nat) : Connections :=
  .advanceFor .first accesses
    ((Connections.opened (runOps .empty (firstRequested ++ [executeFirst]))).starting .first
      (discard (storeDeletionEvidence completedFirst)))

/-- Meanwhile the second connection executes the request again. -/
def executingAgain : Connections :=
  .advanceFor .second 40 ((storingFirst 25).starting .second
    (discard (executeDeletion namespaceId (identifier "delete-1") execution fun _ => false)))

/-- The second connection stores evidence of its execution. -/
def storingAgain : Connections :=
  .advanceFor .second 40 (executingAgain.starting .second
    (discard (storeDeletionEvidence completedAgain)))

end Sample

end RadishMemory
