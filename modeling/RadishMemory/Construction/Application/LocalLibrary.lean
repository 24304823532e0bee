import RadishMemory.Construction.Sqlite.DeletionStore

/-!
# Deleting a source lineage

The application operation behind "delete this file": resolve the lineage to its targets, store
a delete request, execute it and store the evidence.  The three clock readings and the two ids
are taken before anything is written.  Every database call commits on its own.
-/

namespace RadishMemory

inductive ApplicationError where
  | identifierGeneration
  | clock
  | canonical (source : CoreError)
  | storage (source : SqliteError)
  | lineageNotFound
deriving DecidableEq, Repr

structure LocalDeletionConfig where
  requestedBy : ActorRef
  authorizationBasis : NonEmptyText
  deviceId : Identifier
  reasonCode : NonEmptyText
  retentionPolicyBasis : Identifier
  verifiedBy : ProducerRef

structure LocalLibraryConfig where
  namespaceId : Identifier
  deletion : LocalDeletionConfig

/-- What the runtime answers during one call: the clock is read three times and two ids are
drawn, and each of the five may fail. -/
structure DeletionRuntime where
  requestedAt : Option Timestamp
  startedAt : Option Timestamp
  finishedAt : Option Timestamp
  deleteRequestId : Option Identifier
  deletionEvidenceId : Option Identifier

variable [Platform]

abbrev ApplicationCall (α : Type) :=
  Program AccessKind Database ApplicationError α

def canonicalCall {α : Type} (x : Except CoreError α) : ApplicationCall α :=
  Program.ofExcept (x.mapError .canonical)

def storageCall {α : Type} (call : Call α) : ApplicationCall α :=
  call.mapError .storage

/-- The execution an attempt is made with; its retention basis is the configured policy. -/
def LocalLibraryConfig.execution (config : LocalLibraryConfig) (startedAt : Timestamp) :
    LocalDeletionExecution :=
  { checkedAt := startedAt
    retentionBasis :=
      { evidenceType := .policyBasis, evidenceId := config.deletion.retentionPolicyBasis }
    policyBasis := rfl }

def LocalLibraryConfig.request (config : LocalLibraryConfig) (deleteRequestId : Identifier)
    (requestedAt : Timestamp) (targetRefs : List ObjectRef)
    (plannedComponents : List DeletionTarget) : Except CoreError DeleteRequest :=
  DeleteRequest.new
    { deleteRequestId
      namespaceId := config.namespaceId
      requestedBy := config.deletion.requestedBy
      authorizationBasis := config.deletion.authorizationBasis
      requestedGuarantee := .localPurge
      deviceId := config.deletion.deviceId
      targetRefs
      plannedComponents
      reasonCode := config.deletion.reasonCode
      requestedAt }

def LocalLibraryConfig.evidence (config : LocalLibraryConfig)
    (deletionEvidenceId deleteRequestId : Identifier) (startedAt finishedAt : Timestamp)
    (componentResults : List ComponentResult) : Except CoreError DeletionEvidence :=
  let overallStatus := expectedStatus componentResults
  DeletionEvidence.new
    { deletionEvidenceId
      deleteRequestId
      previousEvidenceId := none
      namespaceId := config.namespaceId
      deviceId := config.deletion.deviceId
      overallStatus
      componentResults
      startedAt
      finishedAt := some finishedAt
      verifiedBy := config.deletion.verifiedBy
      evidenceDigest := computeDeletionEvidenceDigest deletionEvidenceId deleteRequestId
        overallStatus componentResults }

/-- Store a request in one transaction. -/
def storeDeleteRequestCall (request : DeleteRequest) : Call Unit :=
  Program.transact .other fun db => do
    let db ← storeDeleteRequest db request
    return ((), db)

/-- The part of the call after the request is stored. -/
def finishDeletion (config : LocalLibraryConfig) (deleteRequestId deletionEvidenceId : Identifier)
    (startedAt finishedAt : Timestamp) (faulty : DeletionComponentType → Bool) :
    ApplicationCall DeletionEvidence := do
  let componentResults ← storageCall (executeDeletion config.namespaceId deleteRequestId
    (config.execution startedAt) faulty)
  let evidence ← canonicalCall (config.evidence deletionEvidenceId deleteRequestId startedAt
    finishedAt componentResults)
  storageCall (storeDeletionEvidence evidence)
  return evidence

/-- The part of the call before the request is stored: the request and what is kept for its
execution. -/
def prepareDeletion (config : LocalLibraryConfig) (runtime : DeletionRuntime)
    (lineageId : Identifier) :
    ApplicationCall (DeleteRequest × Identifier × Timestamp × Timestamp) := do
  let targetRefs ← storageCall (query fun db =>
    resolveSourceLineageDeletionTargets db config.namespaceId lineageId)
  Program.ofExcept (require (targetRefs ≠ []) .lineageNotFound)
  let plannedComponents ← canonicalCall (buildLocalPurgeTargets targetRefs)
  let requestedAt ← Program.ofExcept (runtime.requestedAt.orError .clock)
  let startedAt ← Program.ofExcept (runtime.startedAt.orError .clock)
  let finishedAt ← Program.ofExcept (runtime.finishedAt.orError .clock)
  let deleteRequestId ← Program.ofExcept (runtime.deleteRequestId.orError .identifierGeneration)
  let deletionEvidenceId ←
    Program.ofExcept (runtime.deletionEvidenceId.orError .identifierGeneration)
  let request ← canonicalCall (config.request deleteRequestId requestedAt targetRefs
    plannedComponents)
  return (request, deletionEvidenceId, startedAt, finishedAt)

def deleteSourceLineage (config : LocalLibraryConfig) (runtime : DeletionRuntime)
    (faulty : DeletionComponentType → Bool) (lineageId : Identifier) :
    ApplicationCall DeletionEvidence := do
  let (request, deletionEvidenceId, startedAt, finishedAt) ←
    prepareDeletion config runtime lineageId
  storageCall (storeDeleteRequestCall request)
  finishDeletion config request.params.deleteRequestId deletionEvidenceId startedAt finishedAt
    faulty

end RadishMemory
