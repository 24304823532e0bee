import RadishMemory.Construction.Core.Invariants
import RadishMemory.Framework.Table

/-!
# The SQLite schema

The tables of the plaintext library at schema version 6, and the statements that insert into
them under the declared `CHECK`, `UNIQUE` and `FOREIGN KEY` constraints.

A column holds the decoded value of its text: enumerations are inductive types, timestamps are
parsed, governance is a `Governance`.  The `CHECK`s those types already enforce are not
repeated; the ones that remain are the `length(...) > 0` checks, which count characters up to
the first NUL and so refuse an identifier that starts with one, and the checks that relate
several columns.  The columns `canonical_schema_version`, `object_type` and `scope` are
constants of their table and are left out.

Ordered lists (superseded sources, headings, cited fragments, targets, closures) are `Child`
rows.  The full-text table has no constraints.
-/

namespace RadishMemory

/-! ## Errors of the adapter -/

inductive SqliteErrorCode where
  | storage
  | search
  | conflict
  | invalidStoredData
  | sourceInvariant
  | memoryInvariant
  | deletionInvariant
  | unsupportedSchemaVersion
deriving DecidableEq, Repr

inductive SqliteStorageReason where
  | emptyFragmentBatch
  | mixedFragmentBatch
  | duplicateFragment
  | duplicateObject
  | numericRange
  | missingSource
  | namespaceMismatch
  | sourceResolution
  | invalidCanonicalObject
  | storedIntegrityMismatch
  | duplicateProposal
  | missingFragment
  | proposalSourceResolution
  | missingProposal
  | decisionChain
  | terminalDecision
  | missingDecision
  | materialization
  | missingMemory
  | memoryReference
  | eventChain
  | unsupportedCause
  | derivedDataMismatch
  | missingDeleteTarget
  | deletionPlan
  | missingDeleteRequest
  | deletionExecution
  | evidenceChain
  | originBindingMismatch
  | lineageTipMismatch
  | captureStateMismatch
  | keyProfileMismatch
deriving DecidableEq, Repr

structure SqliteError where
  code : SqliteErrorCode
  storageReason : Option SqliteStorageReason
deriving DecidableEq, Repr

namespace SqliteError

/-- A refused statement: a uniqueness conflict is reported as such, anything else is storage. -/
def storage : ConstraintViolation → SqliteError
  | .unique => { code := .conflict, storageReason := some .duplicateObject }
  | _ => { code := .storage, storageReason := none }

def conflict (reason : SqliteStorageReason) : SqliteError :=
  { code := .conflict, storageReason := some reason }

def sourceInvariant (reason : SqliteStorageReason) : SqliteError :=
  { code := .sourceInvariant, storageReason := some reason }

def memoryInvariant (reason : SqliteStorageReason) : SqliteError :=
  { code := .memoryInvariant, storageReason := some reason }

def deletionInvariant (reason : SqliteStorageReason) : SqliteError :=
  { code := .deletionInvariant, storageReason := some reason }

def invalidStored (reason : SqliteStorageReason) : SqliteError :=
  { code := .invalidStoredData, storageReason := some reason }

end SqliteError

/-- How the adapter reports a canonical object that no longer validates when it is read. -/
def invalidCore (source : CoreError) : SqliteError :=
  if source = .digestMismatch then .invalidStored .storedIntegrityMismatch
  else .invalidStored .invalidCanonicalObject

/-- Signed 64-bit range of a stored integer. -/
def toI64 (value : Nat) : Except SqliteError Nat :=
  if value < 2 ^ 63 then .ok value else .error (.sourceInvariant .numericRange)

def memoryToI64 (value : Nat) : Except SqliteError Nat :=
  if value < 2 ^ 63 then .ok value else .error (.memoryInvariant .numericRange)

/-! ## Row checks -/

/-- `length(x)`: the characters before the first NUL. -/
def sqlLength (text : String) : Nat :=
  (text.toList.takeWhile (· ≠ '\x00')).length

def textOk (text : String) : Bool :=
  decide (0 < sqlLength text)

def idOk (id : Identifier) : Bool :=
  textOk id.asStr

def optionalTextOk (text : Option NonEmptyText) : Bool :=
  text.all fun value => textOk value.asStr

def governanceOk (governance : Governance) : Bool :=
  idOk governance.policyBasis

def producerOk (producer : ProducerRef) : Bool :=
  idOk producer.producerId && textOk producer.producerVersion.asStr

def actorOk (actor : ActorRef) : Bool :=
  idOk actor.actorId && optionalTextOk actor.actorVersion

/-! ## Source tables -/

structure SourceRow where
  sourceId : Identifier
  lineageId : Identifier
  version : Version
  namespaceId : Identifier
  sourceKind : SourceKind
  mediaType : MediaType
  contentLength : Nat
  contentDigest : Digest
  title : Option NonEmptyText
  originKind : SourceOriginKind
  originRef : Option NonEmptyText
  observedAt : Timestamp
  capturedAt : Timestamp
  governance : Governance
  producer : ProducerRef
  createdAt : Timestamp

def SourceRow.check (row : SourceRow) : Bool :=
  idOk row.sourceId && idOk row.lineageId && idOk row.namespaceId &&
  decide (0 < row.contentLength) && row.contentDigest.profile == .exactBytesV1 &&
  optionalTextOk row.title && optionalTextOk row.originRef &&
  governanceOk row.governance && producerOk row.producer &&
  row.mediaType == expectedMediaType row.sourceKind

/-- A version of a lineage is stored once in its namespace. -/
def SourceRow.versionKey (row : SourceRow) : Identifier × Identifier × Nat :=
  (row.namespaceId, row.lineageId, row.version.get)

structure BodyRow where
  sourceId : Identifier
  content : String

structure FragmentRow where
  fragmentId : Identifier
  namespaceId : Identifier
  sourceId : Identifier
  ordinal : Nat
  byteStart : Nat
  byteEnd : Nat
  contentDigest : Digest
  segmenter : ProducerRef
  governance : Governance
  createdAt : Timestamp

def FragmentRow.check (row : FragmentRow) : Bool :=
  idOk row.fragmentId && idOk row.namespaceId && idOk row.sourceId &&
  decide (row.byteStart < row.byteEnd) && row.contentDigest.profile == .exactBytesV1 &&
  producerOk row.segmenter && governanceOk row.governance

structure TipRow where
  namespaceId : Identifier
  lineageId : Identifier
  sourceId : Identifier
  version : Nat
deriving DecidableEq

structure BindingRow where
  namespaceId : Identifier
  originBindingId : Identifier
  lineageId : Identifier
deriving DecidableEq

inductive AuditOutcome where
  | created
  | versioned
deriving DecidableEq, Repr

structure AuditRow where
  sourceId : Identifier
  namespaceId : Identifier
  originBindingId : Identifier
  outcome : AuditOutcome
  recordedAt : Timestamp

/-! ## Memory tables -/

structure ProposalRow where
  proposalId : Identifier
  namespaceId : Identifier
  operation : ProposalOperation
  memoryType : MemoryType
  subjectRef : Identifier
  content : MemoryValueParams
  observedAt : Timestamp
  validTime : ValidTime
  confidence : UnitInterval
  importance : UnitInterval
  governance : Governance
  producer : ProducerRef
  reasonCode : NonEmptyText
  proposedAt : Timestamp

def ProposalRow.check (row : ProposalRow) : Bool :=
  idOk row.proposalId && idOk row.namespaceId && idOk row.subjectRef &&
  row.content.contentDigest.profile == .utf8NfcTextV1 && governanceOk row.governance &&
  producerOk row.producer && textOk row.reasonCode.asStr

/-- A decision row has exactly the fields of the decision. -/
abbrev DecisionRow :=
  MemoryDecisionParams

def decisionRowCheck (row : DecisionRow) : Bool :=
  idOk row.decisionId && idOk row.namespaceId && idOk row.proposalId && actorOk row.decidedBy &&
  textOk row.authorizationBasis.asStr && textOk row.reasonCode.asStr &&
  optionalTextOk row.reasonText && (row.decision == .accept) == row.resultMemoryId.isSome

structure RecordRow where
  memoryId : Identifier
  lineageId : Identifier
  version : Version
  namespaceId : Identifier
  memoryType : MemoryType
  subjectRef : Identifier
  content : MemoryValueParams
  originProposalId : Identifier
  acceptedByDecisionId : Identifier
  observedAt : Timestamp
  validTime : ValidTime
  confidence : UnitInterval
  importance : UnitInterval
  governance : Governance
  createdAt : Timestamp

def RecordRow.check (row : RecordRow) : Bool :=
  idOk row.memoryId && idOk row.lineageId && idOk row.namespaceId && idOk row.subjectRef &&
  row.content.contentDigest.profile == .utf8NfcTextV1 && idOk row.originProposalId &&
  idOk row.acceptedByDecisionId && governanceOk row.governance

structure EventRow where
  eventId : Identifier
  namespaceId : Identifier
  memoryId : Identifier
  previousEventId : Option Identifier
  eventType : MemoryEventType
  fromState : Option MemoryState
  causeRef : EvidenceRef
  actor : ActorRef
  reasonCode : NonEmptyText
  effectiveAt : Option Timestamp
  occurredAt : Timestamp

def EventRow.check (row : EventRow) : Bool :=
  idOk row.eventId && idOk row.namespaceId && idOk row.memoryId &&
  idOk row.causeRef.evidenceId && actorOk row.actor && textOk row.reasonCode.asStr &&
  (row.fromState.all fun state => state == .confirmed) &&
  (match row.causeRef.evidenceType with
    | .memoryDecision | .memoryRecord | .deleteRequest | .policyBasis => true
    | .sourceFragment | .memoryProposal => false) &&
  (match row.eventType with
    | .confirmed => row.previousEventId.isNone && row.fromState.isNone &&
        row.effectiveAt.isNone && row.causeRef.evidenceType == .memoryDecision
    | _ => row.previousEventId.isSome && row.fromState == some .confirmed &&
        row.effectiveAt.isSome)

structure ProjectionRow where
  memoryId : Identifier
  namespaceId : Identifier
  currentState : MemoryState
  lastStateEventId : Identifier
deriving DecidableEq

inductive RecallKind where
  | sourceFragment
  | memoryRecord
deriving DecidableEq, Repr

structure RecallKey where
  objectKind : RecallKind
  objectId : Identifier
deriving DecidableEq

/-- One row of the full-text table. -/
structure RecallRow where
  key : RecallKey
  namespaceId : Identifier
  sensitivity : Sensitivity
  content : String
deriving DecidableEq

/-! ## Deletion tables -/

structure RequestRow where
  deleteRequestId : Identifier
  namespaceId : Identifier
  requestedBy : ActorRef
  authorizationBasis : NonEmptyText
  requestedGuarantee : RequestedGuarantee
  deviceId : Identifier
  reasonCode : NonEmptyText
  requestedAt : Timestamp

def RequestRow.check (row : RequestRow) : Bool :=
  idOk row.deleteRequestId && idOk row.namespaceId && actorOk row.requestedBy &&
  textOk row.authorizationBasis.asStr && idOk row.deviceId && textOk row.reasonCode.asStr

inductive TargetRefKind where
  | object
  | frozenClosure
deriving DecidableEq, Repr

structure ComponentRow where
  deleteRequestId : Identifier
  ordinal : Nat
  componentKey : Identifier
  componentType : DeletionComponentType
  targetRefKind : TargetRefKind
  targetCount : Nat
  requiredAction : RequiredAction
  targetDigest : Option Digest

def ComponentRow.check (row : ComponentRow) : Bool :=
  idOk row.componentKey && decide (0 < row.targetCount) &&
  (match row.targetRefKind with
    | .object => row.targetCount == 1 && row.targetDigest.isNone
    | .frozenClosure => row.targetDigest.any fun digest => digest.profile == .canonicalJsonV1)

structure AttemptRow where
  deleteRequestId : Identifier
  attemptOrdinal : Nat
  checkedAt : Timestamp

structure ResultRow where
  deleteRequestId : Identifier
  attemptOrdinal : Nat
  componentKey : Identifier
  processedCount : Nat
  status : ComponentStatus
  outcome : ComponentOutcome
  verificationMethod : NonEmptyText
  checkedAt : Timestamp
  errorCode : Option NonEmptyText
  retryable : Option Bool
  retentionBasis : Option EvidenceRef

def ResultRow.check (row : ResultRow) : Bool :=
  idOk row.componentKey && textOk row.verificationMethod.asStr &&
  (if row.status = .failed then
      (row.errorCode.any fun code => textOk code.asStr) && row.retryable.isSome
    else row.errorCode.isNone && row.retryable.isNone) &&
  (if row.status = .succeeded ∧ row.outcome = .retainedMinimal then
      row.retentionBasis.any fun basis =>
        basis.evidenceType == .policyBasis && idOk basis.evidenceId
    else row.retentionBasis.isNone)

structure EvidenceRow where
  deletionEvidenceId : Identifier
  deleteRequestId : Identifier
  executionOrdinal : Nat
  previousEvidenceId : Option Identifier
  namespaceId : Identifier
  deviceId : Identifier
  overallStatus : DeletionOverallStatus
  startedAt : Timestamp
  finishedAt : Option Timestamp
  verifiedBy : ProducerRef
  evidenceDigest : Digest

def EvidenceRow.check (row : EvidenceRow) : Bool :=
  idOk row.deletionEvidenceId && decide (0 < row.executionOrdinal) && idOk row.namespaceId &&
  idOk row.deviceId && producerOk row.verifiedBy &&
  row.evidenceDigest.profile == .deletionEvidenceV1 &&
  (row.overallStatus == .pending) == row.finishedAt.isNone

/-! ## The database -/

/-- The tables that hold user data and what is derived from it. -/
structure DataTables where
  sources : List SourceRow := []
  bodies : List BodyRow := []
  sourceSupersedes : List (Child Identifier Identifier) := []
  fragments : List FragmentRow := []
  headings : List (Child Identifier NonEmptyText) := []
  tips : List TipRow := []
  bindings : List BindingRow := []
  captureAudit : List AuditRow := []
  proposals : List ProposalRow := []
  proposalFragments : List (Child Identifier Identifier) := []
  proposalTargets : List (Child Identifier Identifier) := []
  decisions : List DecisionRow := []
  records : List RecordRow := []
  recordFragments : List (Child Identifier Identifier) := []
  recordSupersedes : List (Child Identifier Identifier) := []
  recordContradicts : List (Child Identifier Identifier) := []
  events : List EventRow := []
  eventRelated : List (Child Identifier Identifier) := []
  projection : List ProjectionRow := []
  recallFts : List RecallRow := []

/-- The tables of delete requests, their plans, executions and evidence. -/
structure DeletionTables where
  requests : List RequestRow := []
  requestTargets : List (Child Identifier ObjectRef) := []
  requestComponents : List ComponentRow := []
  componentTargets : List (Child (Identifier × Identifier) ObjectRef) := []
  executionClosure : List (Child (Identifier × DeletionComponentType) ObjectRef) := []
  attempts : List AttemptRow := []
  results : List ResultRow := []
  evidence : List EvidenceRow := []

structure Database extends DataTables, DeletionTables

/-- A library just after its migrations. -/
def Database.empty : Database :=
  {}

/-- `ORDER BY first, second` on two text columns. -/
def orderByTexts {α : Type} (first second : α → String) (rows : List α) : List α :=
  rows.insertionSort fun a b => first a < first b ∨ (first a = first b ∧ second a ≤ second b)

/-! ## Insert statements -/

/-- A refused statement is reported through `SqliteError.storage`. -/
def statement {α : Type} (result : Except ConstraintViolation α) : Except SqliteError α :=
  result.mapError SqliteError.storage

theorem statement_eq_ok_iff {α : Type} {result : Except ConstraintViolation α} {a : α} :
    statement result = .ok a ↔ result = .ok a :=
  Except.mapError_eq_ok_iff

namespace Database

def hasSource (db : Database) (sourceId : Identifier) : Bool :=
  db.sources.any (·.sourceId == sourceId)

def hasFragment (db : Database) (fragmentId : Identifier) : Bool :=
  db.fragments.any (·.fragmentId == fragmentId)

def hasProposal (db : Database) (proposalId : Identifier) : Bool :=
  db.proposals.any (·.proposalId == proposalId)

def hasRecord (db : Database) (memoryId : Identifier) : Bool :=
  db.records.any (·.memoryId == memoryId)

def hasEvent (db : Database) (eventId : Identifier) : Bool :=
  db.events.any (·.eventId == eventId)

def hasRequest (db : Database) (deleteRequestId : Identifier) : Bool :=
  db.requests.any (·.deleteRequestId == deleteRequestId)

end Database

/-- The primary key and the uniqueness of values within one owner's list. -/
def childClashes {κ β : Type} [DecidableEq κ] [DecidableEq β] (new old : Child κ β) : Bool :=
  old.owner == new.owner && (old.ordinal == new.ordinal || old.value == new.value)

/-- The primary key of a list whose values may repeat. -/
def positionClashes {κ β : Type} [DecidableEq κ] (new old : Child κ β) : Bool :=
  old.owner == new.owner && old.ordinal == new.ordinal

/-- Two nullable unique columns conflict only when both hold the same value. -/
def nullableClashes (new old : Option Identifier) : Bool :=
  new.isSome && new == old

namespace Database

def insertSource (db : Database) (row : SourceRow) : Except SqliteError Database := do
  let sources ← statement <| insertRow db.sources row row.check
    (fun r => r.sourceId == row.sourceId || r.versionKey == row.versionKey) true
  return { db with sources }

def insertBody (db : Database) (row : BodyRow) : Except SqliteError Database := do
  let bodies ← statement <| insertRow db.bodies row (row.content != "")
    (fun r => r.sourceId == row.sourceId) (db.hasSource row.sourceId)
  return { db with bodies }

def insertSourceSupersedes (db : Database) (rows : List (Child Identifier Identifier)) :
    Except SqliteError Database := do
  let sourceSupersedes ← statement <| insertChildren
    (fun c => idOk c.value && c.owner != c.value) childClashes
    (fun c => db.hasSource c.owner && db.hasSource c.value) db.sourceSupersedes rows
  return { db with sourceSupersedes }

def insertFragment (db : Database) (row : FragmentRow) : Except SqliteError Database := do
  let fragments ← statement <| insertRow db.fragments row row.check
    (fun r => r.fragmentId == row.fragmentId ||
      (r.sourceId == row.sourceId && r.ordinal == row.ordinal))
    (db.hasSource row.sourceId)
  return { db with fragments }

def insertHeadings (db : Database) (rows : List (Child Identifier NonEmptyText)) :
    Except SqliteError Database := do
  let headings ← statement <| insertChildren (fun c => textOk c.value.asStr) positionClashes
    (fun c => db.hasFragment c.owner) db.headings rows
  return { db with headings }

def insertTip (db : Database) (row : TipRow) : Except SqliteError Database := do
  let tips ← statement <| insertRow db.tips row
    (idOk row.namespaceId && idOk row.lineageId && idOk row.sourceId && decide (0 < row.version))
    (fun r => (r.namespaceId == row.namespaceId && r.lineageId == row.lineageId) ||
      r.sourceId == row.sourceId)
    (db.hasSource row.sourceId)
  return { db with tips }

def insertBinding (db : Database) (row : BindingRow) : Except SqliteError Database := do
  let bindings ← statement <| insertRow db.bindings row
    (idOk row.namespaceId && sourceOriginBindingIdIsValid row.originBindingId.asStr &&
      idOk row.lineageId)
    (fun r => r.namespaceId == row.namespaceId &&
      (r.originBindingId == row.originBindingId || r.lineageId == row.lineageId)) true
  return { db with bindings }

def insertAudit (db : Database) (row : AuditRow) : Except SqliteError Database := do
  let captureAudit ← statement <| insertRow db.captureAudit row
    (idOk row.sourceId && idOk row.namespaceId &&
      sourceOriginBindingIdIsValid row.originBindingId.asStr)
    (fun r => r.sourceId == row.sourceId)
    (db.hasSource row.sourceId && db.bindings.any fun b =>
      b.namespaceId == row.namespaceId && b.originBindingId == row.originBindingId)
  return { db with captureAudit }

def insertProposalRow (db : Database) (row : ProposalRow) : Except SqliteError Database := do
  let proposals ← statement <| insertRow db.proposals row row.check
    (fun r => r.proposalId == row.proposalId) true
  return { db with proposals }

def insertProposalFragments (db : Database) (rows : List (Child Identifier Identifier)) :
    Except SqliteError Database := do
  let proposalFragments ← statement <| insertChildren (fun c => idOk c.value) childClashes
    (fun c => db.hasProposal c.owner && db.hasFragment c.value) db.proposalFragments rows
  return { db with proposalFragments }

def insertProposalTargets (db : Database) (rows : List (Child Identifier Identifier)) :
    Except SqliteError Database := do
  let proposalTargets ← statement <| insertChildren (fun c => idOk c.value) childClashes
    (fun c => db.hasProposal c.owner && db.hasRecord c.value) db.proposalTargets rows
  return { db with proposalTargets }

def insertDecisionRow (db : Database) (row : DecisionRow) : Except SqliteError Database := do
  let decisions ← statement <| insertRow db.decisions row (decisionRowCheck row)
    (fun r => r.decisionId == row.decisionId ||
      nullableClashes row.previousDecisionId r.previousDecisionId ||
      nullableClashes row.resultMemoryId r.resultMemoryId)
    (db.hasProposal row.proposalId && row.previousDecisionId.all fun previous =>
      (db.decisions ++ [row]).any fun r =>
        r.proposalId == row.proposalId && r.decisionId == previous)
  return { db with decisions }

def insertRecordRow (db : Database) (row : RecordRow) : Except SqliteError Database := do
  let records ← statement <| insertRow db.records row row.check
    (fun r => r.memoryId == row.memoryId ||
      r.acceptedByDecisionId == row.acceptedByDecisionId ||
      (r.namespaceId == row.namespaceId && r.lineageId == row.lineageId &&
        r.version == row.version))
    (db.hasProposal row.originProposalId &&
      db.decisions.any (·.decisionId == row.acceptedByDecisionId))
  return { db with records }

def insertRecordFragments (db : Database) (rows : List (Child Identifier Identifier)) :
    Except SqliteError Database := do
  let recordFragments ← statement <| insertChildren (fun c => idOk c.value) childClashes
    (fun c => db.hasRecord c.owner && db.hasFragment c.value) db.recordFragments rows
  return { db with recordFragments }

def insertRecordSupersedes (db : Database) (rows : List (Child Identifier Identifier)) :
    Except SqliteError Database := do
  let recordSupersedes ← statement <| insertChildren
    (fun c => idOk c.value && c.owner != c.value) childClashes
    (fun c => db.hasRecord c.owner && db.hasRecord c.value) db.recordSupersedes rows
  return { db with recordSupersedes }

def insertRecordContradicts (db : Database) (rows : List (Child Identifier Identifier)) :
    Except SqliteError Database := do
  let recordContradicts ← statement <| insertChildren
    (fun c => idOk c.value && c.owner != c.value) childClashes
    (fun c => db.hasRecord c.owner && db.hasRecord c.value) db.recordContradicts rows
  return { db with recordContradicts }

def insertEventRow (db : Database) (row : EventRow) : Except SqliteError Database := do
  let events ← statement <| insertRow db.events row row.check
    (fun r => r.eventId == row.eventId ||
      nullableClashes row.previousEventId r.previousEventId)
    (db.hasRecord row.memoryId && row.previousEventId.all fun previous =>
      (db.events ++ [row]).any fun r => r.memoryId == row.memoryId && r.eventId == previous)
  return { db with events }

def insertEventRelated (db : Database) (rows : List (Child Identifier Identifier)) :
    Except SqliteError Database := do
  let eventRelated ← statement <| insertChildren (fun c => idOk c.value) childClashes
    (fun c => db.hasEvent c.owner && db.hasRecord c.value) db.eventRelated rows
  return { db with eventRelated }

def projectionReferences (db : Database) (row : ProjectionRow) : Bool :=
  db.hasRecord row.memoryId && db.events.any fun r =>
    r.memoryId == row.memoryId && r.eventId == row.lastStateEventId

def insertProjection (db : Database) (row : ProjectionRow) : Except SqliteError Database := do
  let projection ← statement <| insertRow db.projection row
    (idOk row.memoryId && idOk row.namespaceId && idOk row.lastStateEventId)
    (fun r => r.memoryId == row.memoryId || r.lastStateEventId == row.lastStateEventId)
    (db.projectionReferences row)
  return { db with projection }

def insertRequestRow (db : Database) (row : RequestRow) : Except SqliteError Database := do
  let requests ← statement <| insertRow db.requests row row.check
    (fun r => r.deleteRequestId == row.deleteRequestId) true
  return { db with requests }

/-- The object types a target column accepts. -/
def targetTypeOk (ref : ObjectRef) : Bool :=
  ref.objectType == .sourceArtifact || ref.objectType == .memoryRecord

/-- The object types the execution closure accepts. -/
def closureTypeOk (ref : ObjectRef) : Bool :=
  match ref.objectType with
  | .sourceArtifact | .sourceFragment | .memoryProposal | .memoryDecision | .memoryRecord
  | .memoryStateEvent | .deleteRequest => true
  | .contextPack | .deletionEvidence => false

def insertRequestTargets (db : Database) (rows : List (Child Identifier ObjectRef)) :
    Except SqliteError Database := do
  let requestTargets ← statement <| insertChildren
    (fun c => targetTypeOk c.value && idOk c.value.objectId) childClashes
    (fun c => db.hasRequest c.owner) db.requestTargets rows
  return { db with requestTargets }

def insertComponentRow (db : Database) (row : ComponentRow) : Except SqliteError Database := do
  let requestComponents ← statement <| insertRow db.requestComponents row row.check
    (fun r => r.deleteRequestId == row.deleteRequestId &&
      (r.componentKey == row.componentKey || r.ordinal == row.ordinal))
    (db.hasRequest row.deleteRequestId)
  return { db with requestComponents }

def insertComponentTargets (db : Database)
    (rows : List (Child (Identifier × Identifier) ObjectRef)) : Except SqliteError Database := do
  let componentTargets ← statement <| insertChildren
    (fun c => targetTypeOk c.value && idOk c.value.objectId) childClashes
    (fun c => db.requestComponents.any fun r =>
      r.deleteRequestId == c.owner.1 && r.componentKey == c.owner.2) db.componentTargets rows
  return { db with componentTargets }

def insertExecutionClosure (db : Database)
    (rows : List (Child (Identifier × DeletionComponentType) ObjectRef)) :
    Except SqliteError Database := do
  let executionClosure ← statement <| insertChildren
    (fun c => closureTypeOk c.value && idOk c.value.objectId) childClashes
    (fun c => db.hasRequest c.owner.1) db.executionClosure rows
  return { db with executionClosure }

def insertAttempt (db : Database) (row : AttemptRow) : Except SqliteError Database := do
  let attempts ← statement <| insertRow db.attempts row (decide (0 < row.attemptOrdinal))
    (fun r => r.deleteRequestId == row.deleteRequestId &&
      r.attemptOrdinal == row.attemptOrdinal)
    (db.hasRequest row.deleteRequestId)
  return { db with attempts }

def insertResult (db : Database) (row : ResultRow) : Except SqliteError Database := do
  let results ← statement <| insertRow db.results row row.check
    (fun r => r.deleteRequestId == row.deleteRequestId &&
      r.attemptOrdinal == row.attemptOrdinal && r.componentKey == row.componentKey)
    ((db.attempts.any fun a => a.deleteRequestId == row.deleteRequestId &&
        a.attemptOrdinal == row.attemptOrdinal) &&
      db.requestComponents.any fun c => c.deleteRequestId == row.deleteRequestId &&
        c.componentKey == row.componentKey)
  return { db with results }

def insertEvidenceRow (db : Database) (row : EvidenceRow) : Except SqliteError Database := do
  let evidence ← statement <| insertRow db.evidence row row.check
    (fun r => r.deletionEvidenceId == row.deletionEvidenceId ||
      (r.deleteRequestId == row.deleteRequestId &&
        (r.executionOrdinal == row.executionOrdinal ||
          nullableClashes row.previousEvidenceId r.previousEvidenceId)))
    (db.hasRequest row.deleteRequestId &&
      (db.attempts.any fun a => a.deleteRequestId == row.deleteRequestId &&
        a.attemptOrdinal == row.executionOrdinal) &&
      row.previousEvidenceId.all fun previous => (db.evidence ++ [row]).any fun r =>
        r.deleteRequestId == row.deleteRequestId && r.deletionEvidenceId == previous)
  return { db with evidence }

end Database

end RadishMemory
