import RadishMemory.Construction.Sqlite.EncryptedCapture

/-!
# Deletions that began in the plaintext library

A request that was stored, and perhaps executed in part, before the bodies were migrated is
adopted: its frozen closure is checked against what is left of the rows it names, and a row that
is missing needs the result of the execution that has removed it.

The sets of the program are lists, compared as sets.
-/

namespace RadishMemory

/-- `invalid()` of legacy deletions. -/
def legacyInvalid : SqliteError :=
  .deletionInvariant .deletionExecution

section Rows

def DeletionState.isClosed : DeletionState → Bool
  | .pending | .failed | .deleted => true
  | .active => false

/-- `require_closed_target`, for each of its tables. -/
def requireClosedSource (db : Database) (namespaceId sourceId : Identifier) :
    Except SqliteError Unit :=
  require ((db.sources.any fun row => row.sourceId == sourceId &&
    row.namespaceId == namespaceId && row.governance.deletionState.isClosed) = true) legacyInvalid

def requireClosedFragment (db : Database) (namespaceId fragmentId : Identifier) :
    Except SqliteError Unit :=
  require ((db.fragments.any fun row => row.fragmentId == fragmentId &&
    row.namespaceId == namespaceId && row.governance.deletionState.isClosed) = true) legacyInvalid

def requireClosedRecord (db : Database) (namespaceId memoryId : Identifier) :
    Except SqliteError Unit :=
  require ((db.records.any fun row => row.memoryId == memoryId &&
    row.namespaceId == namespaceId && row.governance.deletionState.isClosed) = true) legacyInvalid

def requireClosedProposal (db : Database) (namespaceId proposalId : Identifier) :
    Except SqliteError Unit :=
  require ((db.proposals.any fun row => row.proposalId == proposalId &&
    row.namespaceId == namespaceId && row.governance.deletionState.isClosed) = true) legacyInvalid

end Rows

variable [Platform]

/-- The ids of one component's closure, which are of one type and different. -/
def closureIds (db : Database) (request : DeleteRequest) (component : DeletionComponentType)
    (kind : CanonicalObjectType) : Except SqliteError (List Identifier) := do
  let rows ← loadExecutionClosure db request.params.deleteRequestId component
  require ((∀ row ∈ rows, row.objectType = kind) ∧ (rows.map ObjectRef.objectId).Nodup)
    legacyInvalid
  return rows.map ObjectRef.objectId

/-- How a component of an old execution reports success. -/
def legacyMethod : DeletionComponentType → Except SqliteError (String × ComponentOutcome)
  | .sourceBody | .sourceFragment => .ok ("sqlite-row-absence-v1", .deleted)
  | .memoryProposal => .ok ("sqlite-content-redaction-v1", .redacted)
  | _ => .error legacyInvalid

/-- The first attempt whose result says that the component has succeeded. -/
def legacyComponentProof (db : Database) (request : DeleteRequest)
    (component : DeletionComponentType) (ordinal : Option Nat) : Except SqliteError Nat := do
  let definition ← (request.params.plannedComponents.find? fun planned =>
    planned.params.componentType == component).orError legacyInvalid
  let (method, outcome) ← legacyMethod component
  let proofs := db.results.filter fun row =>
    row.deleteRequestId == request.params.deleteRequestId &&
      row.componentKey == definition.params.componentKey &&
      (ordinal.all fun wanted => row.attemptOrdinal == wanted) && row.status == .succeeded &&
      (row.outcome == outcome || row.outcome == .notFound) &&
      row.verificationMethod.asStr == method &&
      row.processedCount == definition.params.targetCount && row.errorCode.isNone &&
      row.retryable.isNone && row.retentionBasis.isNone &&
      db.attempts.any fun attempt => attempt.deleteRequestId == row.deleteRequestId &&
        attempt.attemptOrdinal == row.attemptOrdinal
  let row ← (proofs.insertionSort fun a b => a.attemptOrdinal ≤ b.attemptOrdinal).head?.orError
    legacyInvalid
  let attempt ← (db.attempts.find? fun attempt =>
    attempt.deleteRequestId == row.deleteRequestId &&
      attempt.attemptOrdinal == row.attemptOrdinal).orError legacyInvalid
  require ((row.checkedAt == attempt.checkedAt) = true ∧
    request.params.requestedAt ≤ row.checkedAt) legacyInvalid
  return row.attemptOrdinal

/-! ## Checking a closure -/

/-- The closures of a request. -/
structure LegacyClosure where
  sources : List Identifier
  memories : List Identifier
  fragments : List Identifier
  proposals : List Identifier
  decisions : List Identifier
  events : List Identifier

def requireSameRefs (actual expected : List ObjectRef) : Except SqliteError Unit :=
  require ((∀ ref ∈ actual, ref ∈ expected) ∧ ∀ ref ∈ expected, ref ∈ actual) legacyInvalid

def loadLegacyClosure (db : Database) (request : DeleteRequest) :
    Except SqliteError LegacyClosure := do
  let value := request.params
  let load := loadExecutionClosure db value.deleteRequestId
  let bodies ← closureIds db request .sourceBody .sourceArtifact
  require (sameIdentifierSet bodies value.sourceTargets = true) legacyInvalid
  let metadata ← closureIds db request .sourceMetadata .sourceArtifact
  require (sameIdentifierSet metadata value.sourceTargets = true) legacyInvalid
  let records ← closureIds db request .memoryRecord .memoryRecord
  require (sameIdentifierSet records value.memoryTargets = true) legacyInvalid
  let contexts ← load .contextCache
  require (contexts.isEmpty = true) legacyInvalid
  let audit ← load .minimalAudit
  requireSameRefs audit ((value.targetRefs.filter (·.objectType == .sourceArtifact)) ++
    [⟨.deleteRequest, value.deleteRequestId⟩])
  let fragments ← closureIds db request .sourceFragment .sourceFragment
  let proposals ← closureIds db request .memoryProposal .memoryProposal
  let decisions ← closureIds db request .memoryDecision .memoryDecision
  let events ← closureIds db request .memoryStateEvent .memoryStateEvent
  let indexed ← load .fullTextIndex
  requireSameRefs indexed (refsOf .sourceFragment fragments ++
    refsOf .memoryRecord value.memoryTargets)
  return {
    sources := value.sourceTargets.dedup
    memories := value.memoryTargets.dedup
    fragments, proposals, decisions, events }

/-- A target without an object was deleted before the migration; the attempt that did so is its
proof. -/
def checkLegacySource (db : VaultDatabase) (request : DeleteRequest) (closure : LegacyClosure)
    (sourceId : Identifier) : Except SqliteError (Identifier × Option Nat) := do
  let library := db.library
  requireClosedSource library request.params.namespaceId sourceId
  require (∀ row ∈ library.sources, row.sourceId = sourceId → ∀ other ∈ library.sources,
      other.namespaceId = row.namespaceId → other.lineageId = row.lineageId →
        other.governance.deletionState ≠ .deleted → other.sourceId ∈ closure.sources)
    legacyInvalid
  require (∀ row ∈ library.fragments, row.sourceId = sourceId →
      row.fragmentId ∈ closure.fragments) legacyInvalid
  require (∀ row ∈ library.bodies, row.sourceId ≠ sourceId) legacyInvalid
  match db.attemptOf sourceId with
  | none => do
    let ordinal ← legacyComponentProof library request .sourceBody none
    return (sourceId, some ordinal)
  | some row => do
    require ((row.phase = .retired ∨ row.phase = .committed) ∧
      (db.referenceOf sourceId).isSome = true) legacyInvalid
    return (sourceId, none)

/-- A fragment of the closure, with the proposals that cite it. -/
def checkLegacyFragment (db : Database) (request : DeleteRequest) (closure : LegacyClosure)
    (fragmentId : Identifier) : Except SqliteError (List Identifier) := do
  match lookup FragmentRow.fragmentId db.fragments fragmentId with
  | some row => do
    require (row.sourceId ∈ closure.sources) legacyInvalid
    requireClosedFragment db request.params.namespaceId fragmentId
  | none => do
    let _ ← legacyComponentProof db request .sourceFragment none
  require (∀ link ∈ db.recordFragments, link.value = fragmentId → link.owner ∈ closure.memories)
    legacyInvalid
  return (db.proposalFragments.filter (·.value == fragmentId)).map Child.owner

/-- A record of the closure, with the proposals that it was accepted from. -/
def checkLegacyMemory (db : Database) (request : DeleteRequest) (closure : LegacyClosure)
    (memoryId : Identifier) : Except SqliteError (List Identifier) := do
  requireClosedRecord db request.params.namespaceId memoryId
  require (∀ link ∈ db.recordSupersedes, link.value = memoryId → ∀ row ∈ db.records,
      row.memoryId = link.owner → row.governance.deletionState ≠ .deleted →
        link.owner ∈ closure.memories) legacyInvalid
  return (db.records.filter (·.memoryId == memoryId)).map RecordRow.originProposalId

/-- A proposal that nothing of the closure cites any more has been redacted. -/
def checkLegacyProposal (db : Database) (request : DeleteRequest) (cited : List Identifier)
    (proposalId : Identifier) : Except SqliteError Unit := do
  requireClosedProposal db request.params.namespaceId proposalId
  if proposalId ∉ cited then do
    let _ ← legacyComponentProof db request .memoryProposal none
    require ((db.proposals.any fun row => row.proposalId == proposalId &&
        row.content.text == redactionMarker &&
        row.content.contentDigest.value ==
          (computeNfcTextDigest redactionMarker.asStr).value) = true ∧
      ∀ link ∈ db.proposalFragments, link.owner ≠ proposalId) legacyInvalid

/-- The decisions and the events of a closure are those of its proposals and records. -/
def checkLegacyEvents (db : Database) (request : DeleteRequest) (closure : LegacyClosure) :
    Except SqliteError Unit := do
  let value := request.params
  let decisions := (db.decisions.filter fun row =>
    closure.proposals.contains row.proposalId).map MemoryDecisionParams.decisionId
  let events := (db.events.filter fun row =>
    closure.memories.contains row.memoryId).map EventRow.eventId
  require (sameIdentifierSet decisions closure.decisions = true ∧
    sameIdentifierSet events closure.events = true) legacyInvalid
  require ((∀ row ∈ db.decisions, row.decisionId ∈ closure.decisions →
      row.namespaceId = value.namespaceId) ∧
    ∀ row ∈ db.events, row.eventId ∈ closure.events → row.namespaceId = value.namespaceId)
    legacyInvalid

/-- The source targets of a stored request, each with the attempt that has deleted its body. -/
def validateResume (db : VaultDatabase) (request : DeleteRequest) :
    Except SqliteError (List (Identifier × Option Nat)) := do
  validateRequestProfile request
  let closure ← loadLegacyClosure db.library request
  let bodies ← closure.sources.mapM (checkLegacySource db request closure)
  let citing ← closure.fragments.mapM (checkLegacyFragment db.library request closure)
  let origins ← closure.memories.mapM (checkLegacyMemory db.library request closure)
  let cited := citing.flatten ++ origins.flatten
  require (∀ proposalId ∈ cited, proposalId ∈ closure.proposals) legacyInvalid
  checkAll (checkLegacyProposal db.library request cited) closure.proposals
  checkLegacyEvents db.library request closure
  return bodies

/-! ## Receipts -/

/-- The body of a source was deleted before the migration, and nothing has taken its place. -/
def verifyRecordedBodyAbsence (db : VaultDatabase) (request : DeleteRequest)
    (sourceId : Identifier) : Except SqliteError Unit := do
  require (sourceId ∈ request.params.sourceTargets) legacyInvalid
  requireClosedSource db.library request.params.namespaceId sourceId
  let row ← (db.legacyRetirements.find? fun row => row.sourceId == sourceId &&
    row.deleteRequestId == request.params.deleteRequestId).orError storageError
  let _ ← legacyComponentProof db.library request .sourceBody (some row.attemptOrdinal)
  require ((∀ body ∈ db.library.bodies, body.sourceId ≠ sourceId) ∧
    (db.attemptOf sourceId).isNone = true ∧ (db.referenceOf sourceId).isNone = true ∧
    (db.deletionOf sourceId).isNone = true) legacyInvalid

def verifyReceipts (db : VaultDatabase) (namespaceId : Identifier) : Except SqliteError Unit :=
  checkAll (fun row => do
    let request ← (← loadRequest db.library namespaceId row.deleteRequestId).orError legacyInvalid
    verifyRecordedBodyAbsence db request row.sourceId) db.legacyRetirements

end RadishMemory
