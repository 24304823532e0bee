import RadishMemory.Construction.Sqlite.DeletionActions
import RadishMemory.Framework.Program

/-!
# Executing a delete request and storing its evidence

`executeDeletion` opens an attempt, runs the ten components in one transaction each, and reads
the results back.  A component that fails is rolled back and its failure recorded in a
transaction of its own.  `storeDeletionEvidence` reads the latest attempt, its results and the
tip of the evidence chain, and then inserts the evidence in a transaction.

Both are programs over the database, one access for each query outside a transaction and one
for each transaction, so that a breakdown of the store and another connection can be placed
between any two of them.
-/

namespace RadishMemory

variable [Platform]

/-- What an access is, as far as the evidence chain is concerned: a read of `storeEvidence`
between its read of the latest attempt and its read of the chain tip (that one included), the
transaction that inserts the evidence row, or anything else. -/
inductive AccessKind where
  | other
  | evidenceRead (deleteRequestId : Identifier)
  | evidenceInsert (deleteRequestId : Identifier) (previousEvidenceId : Option Identifier)
deriving DecidableEq

abbrev Call (α : Type) :=
  Program AccessKind Database SqliteError α

/-- A query outside the evidence chain. -/
def query {α : Type} (f : Database → Except SqliteError α) : Call α :=
  Program.read .other f

/-! ## Loading a request -/

def storedTargetRef (row : ComponentRow) (targets : List ObjectRef) :
    Except SqliteError DeletionTargetRef :=
  match row.targetRefKind, row.targetDigest, targets with
  | .object, none, [ref] => .ok (.object ref)
  | .frozenClosure, some digest, refs => do
    return .frozenClosure (← (FrozenTargetClosure.new refs digest).mapError deletionCore)
  | _, _, _ => .error storedDeletion

/-- Rebuild one planned component from its row and its targets. -/
def ComponentRow.intoDomain (row : ComponentRow) (targets : List ObjectRef) :
    Except SqliteError DeletionTarget := do
  (DeletionTarget.new
    { componentKey := row.componentKey
      componentType := row.componentType
      targetRef := ← storedTargetRef row targets
      targetCount := row.targetCount
      requiredAction := row.requiredAction }).mapError deletionCore

def RequestRow.intoDomain (row : RequestRow) (targetRefs : List ObjectRef)
    (plannedComponents : List DeletionTarget) : Except SqliteError DeleteRequest :=
  (DeleteRequest.new
    { deleteRequestId := row.deleteRequestId
      namespaceId := row.namespaceId
      requestedBy := row.requestedBy
      authorizationBasis := row.authorizationBasis
      requestedGuarantee := row.requestedGuarantee
      deviceId := row.deviceId
      targetRefs
      plannedComponents
      reasonCode := row.reasonCode
      requestedAt := row.requestedAt }).mapError deletionCore

/-- The component rows of a request in plan order. -/
def componentRowsOf (db : Database) (deleteRequestId : Identifier) : List ComponentRow :=
  (db.requestComponents.filter (·.deleteRequestId == deleteRequestId)).insertionSort
    fun a b => a.ordinal ≤ b.ordinal

def loadRequestComponent (deleteRequestId : Identifier) (entry : ComponentRow × Nat) :
    Call DeletionTarget := do
  let (row, expected) := entry
  Program.ofExcept (require (row.ordinal = expected) storedDeletion)
  let targets ← query fun db =>
    loadChildren storedDeletion db.componentTargets (deleteRequestId, row.componentKey)
  Program.ofExcept (row.intoDomain targets)

def loadRequestCall (namespaceId deleteRequestId : Identifier) : Call (Option DeleteRequest) := do
  let stored ← query fun db => return (
    (lookup RequestRow.deleteRequestId db.requests deleteRequestId).filter
      (·.namespaceId == namespaceId))
  match stored with
  | none => return none
  | some row => do
    let targetRefs ← query fun db =>
      loadChildren storedDeletion db.requestTargets deleteRequestId
    let rows ← query fun db => return componentRowsOf db deleteRequestId
    let plannedComponents ← rows.zipIdx.mapM (loadRequestComponent deleteRequestId)
    let request ← Program.ofExcept (row.intoDomain targetRefs plannedComponents)
    return some request

/-- A stored request, read without interference. -/
def loadRequest (db : Database) (namespaceId deleteRequestId : Identifier) :
    Except SqliteError (Option DeleteRequest) :=
  ((loadRequestCall namespaceId deleteRequestId).run db).1

/-! ## Execution results -/

def ResultRow.ofResult (deleteRequestId : Identifier) (attemptOrdinal : Nat)
    (result : ComponentResult) : ResultRow :=
  { deleteRequestId
    attemptOrdinal
    componentKey := result.params.componentKey
    processedCount := result.params.processedCount
    status := result.params.status
    outcome := result.params.outcome
    verificationMethod := result.params.verificationMethod
    checkedAt := result.params.checkedAt
    errorCode := result.params.errorCode
    retryable := result.params.retryable
    retentionBasis := result.params.retentionBasis }

def ResultRow.intoDomain (row : ResultRow) (component : DeletionTarget) :
    Except SqliteError ComponentResult :=
  (ComponentResult.new
    { componentKey := component.params.componentKey
      componentType := component.params.componentType
      targetRef := component.params.targetRef
      requiredAction := component.params.requiredAction
      targetCount := component.params.targetCount
      processedCount := row.processedCount
      status := row.status
      outcome := row.outcome
      verificationMethod := row.verificationMethod
      checkedAt := row.checkedAt
      errorCode := row.errorCode
      retryable := row.retryable
      retentionBasis := row.retentionBasis }).mapError deletionCore

/-- The primary key of a result. -/
def ResultRow.key (row : ResultRow) : Identifier × Nat × Identifier :=
  (row.deleteRequestId, row.attemptOrdinal, row.componentKey)

def loadExecutionResult (db : Database) (deleteRequestId : Identifier) (attemptOrdinal : Nat)
    (component : DeletionTarget) : Except SqliteError ComponentResult := do
  let row ← (lookup ResultRow.key db.results
    (deleteRequestId, attemptOrdinal, component.params.componentKey)).orError storedDeletion
  row.intoDomain component

/-- The results of one attempt in plan order, one query for each component. -/
def loadExecutionResults (kind : AccessKind) (request : DeleteRequest) (attemptOrdinal : Nat) :
    Call (List ComponentResult) :=
  request.params.plannedComponents.mapM fun component =>
    Program.read kind fun db =>
      loadExecutionResult db request.params.deleteRequestId attemptOrdinal component

/-! ## Executing -/

section Attempts

omit [Platform]

/-- The attempts of a request. -/
def attemptOrdinals (db : Database) (deleteRequestId : Identifier) : List Nat :=
  (db.attempts.filter (·.deleteRequestId == deleteRequestId)).map AttemptRow.attemptOrdinal

/-- `MAX(attempt_ordinal)`. -/
def latestAttempt (db : Database) (deleteRequestId : Identifier) : Option Nat :=
  match attemptOrdinals db deleteRequestId with
  | [] => none
  | first :: rest => some (rest.foldl max first)

/-- Open the next attempt. -/
def insertNextAttempt (deleteRequestId : Identifier) (checkedAt : Timestamp) (db : Database) :
    Except SqliteError (Nat × Database) := do
  let attemptOrdinal := (latestAttempt db deleteRequestId).getD 0 + 1
  let db ← db.insertAttempt { deleteRequestId, attemptOrdinal, checkedAt }
  return (attemptOrdinal, db)

end Attempts

def insertExecutionResult (db : Database) (deleteRequestId : Identifier) (attemptOrdinal : Nat)
    (result : ComponentResult) : Except SqliteError Database :=
  db.insertResult (ResultRow.ofResult deleteRequestId attemptOrdinal result)

/-- The transaction of one component: the action and its result, or nothing when the action
fails.  `faulty` stands for a storage fault inside the action. -/
def componentTransaction (request : DeleteRequest) (execution : LocalDeletionExecution)
    (attemptOrdinal : Nat) (hasFailed faulty : Bool) (component : DeletionTarget)
    (componentType : DeletionComponentType) (db : Database) :
    Except SqliteError (Bool × Database) :=
  let value := request.params
  if faulty then .ok (false, db)
  else
    match executeComponentAction db value.namespaceId value.deleteRequestId componentType
      attemptOrdinal hasFailed with
    | .ok (action, db') => do
      let result ← successfulResult component execution action
      let db' ← insertExecutionResult db' value.deleteRequestId attemptOrdinal result
      return (true, db')
    | .error _ => .ok (false, db)

/-- Record a failed component in a transaction of its own. -/
def failureTransaction (request : DeleteRequest) (attemptOrdinal : Nat)
    (result : ComponentResult) (db : Database) : Except SqliteError (Unit × Database) := do
  let db ← insertExecutionResult db request.params.deleteRequestId attemptOrdinal result
  return ((), db)

/-- Run one component; the result says whether any component has failed so far. -/
def executeComponent (request : DeleteRequest) (execution : LocalDeletionExecution)
    (faulty : DeletionComponentType → Bool) (attemptOrdinal : Nat) (hasFailed : Bool)
    (componentType : DeletionComponentType) : Call Bool := do
  let component ← Program.ofExcept ((request.params.plannedComponents.find? fun component =>
    component.params.componentType == componentType).orError deletionPlan)
  let succeeded ← Program.transact .other
    (componentTransaction request execution attemptOrdinal hasFailed (faulty componentType)
      component componentType)
  if succeeded then return hasFailed
  else do
    let result ← Program.ofExcept (failedResult component execution)
    Program.transact .other (failureTransaction request attemptOrdinal result)
    return true

def executeRequest (request : DeleteRequest) (execution : LocalDeletionExecution)
    (faulty : DeletionComponentType → Bool) : Call (List ComponentResult) := do
  let attemptOrdinal ← Program.transact .other
    (insertNextAttempt request.params.deleteRequestId execution.checkedAt)
  let _ ← executionOrder.foldlM (executeComponent request execution faulty attemptOrdinal) false
  loadExecutionResults .other request attemptOrdinal

/-- Load a request and check its plan. -/
def loadCheckedRequest (namespaceId deleteRequestId : Identifier) : Call DeleteRequest := do
  let stored ← loadRequestCall namespaceId deleteRequestId
  let request ← Program.ofExcept (stored.orError (.deletionInvariant .missingDeleteRequest))
  Program.ofExcept (validateRequestProfile request)
  return request

def executeDeletion (namespaceId deleteRequestId : Identifier)
    (execution : LocalDeletionExecution) (faulty : DeletionComponentType → Bool) :
    Call (List ComponentResult) := do
  let request ← loadCheckedRequest namespaceId deleteRequestId
  executeRequest request execution faulty

/-! ## Evidence -/

section Evidence

omit [Platform]

/-- The evidence of a request with the highest execution ordinal. -/
def evidenceTip (db : Database) (deleteRequestId : Identifier) : Option EvidenceRow :=
  ((db.evidence.filter (·.deleteRequestId == deleteRequestId)).insertionSort
    fun a b => b.executionOrdinal ≤ a.executionOrdinal).head?

end Evidence

def EvidenceRow.ofEvidence (executionOrdinal : Nat) (params : DeletionEvidenceParams) :
    EvidenceRow :=
  { deletionEvidenceId := params.deletionEvidenceId
    deleteRequestId := params.deleteRequestId
    executionOrdinal
    previousEvidenceId := params.previousEvidenceId
    namespaceId := params.namespaceId
    deviceId := params.deviceId
    overallStatus := params.overallStatus
    startedAt := params.startedAt
    finishedAt := params.finishedAt
    verifiedBy := params.verifiedBy
    evidenceDigest := params.evidenceDigest }

/-- The status that the results of an attempt call for. -/
def expectedStatus (results : List ComponentResult) : DeletionOverallStatus :=
  if results.all (·.params.status == .succeeded) then .completed else .failed

/-- The evidence repeats the stored results and draws the conclusion they call for. -/
def validateEvidenceResults (value : DeletionEvidenceParams)
    (persistedResults : List ComponentResult) : Except SqliteError Unit := do
  require ((persistedResults == value.componentResults) = true)
    (.deletionInvariant .deletionPlan)
  require (value.overallStatus = expectedStatus persistedResults ∧
      value.finishedAt.isSome = true) (.deletionInvariant .deletionExecution)

def insertEvidence (value : DeletionEvidenceParams) (executionOrdinal : Nat) (db : Database) :
    Except SqliteError (Unit × Database) := do
  let db ← db.insertEvidenceRow (EvidenceRow.ofEvidence executionOrdinal value)
  return ((), db)

def storeDeletionEvidence (evidence : DeletionEvidence) : Call Unit := do
  let value := evidence.params
  let request ← loadCheckedRequest value.namespaceId value.deleteRequestId
  Program.ofExcept ((validateDeletionEvidence request evidence).mapError deletionCore)
  let latest ← query fun db => (latestAttempt db value.deleteRequestId).orError
    (.deletionInvariant .deletionExecution)
  let persistedResults ←
    loadExecutionResults (.evidenceRead value.deleteRequestId) request latest
  Program.ofExcept (validateEvidenceResults value persistedResults)
  let previousTip ← Program.read (.evidenceRead value.deleteRequestId) fun db =>
    return (evidenceTip db value.deleteRequestId).map EvidenceRow.deletionEvidenceId
  Program.ofExcept (require (previousTip = value.previousEvidenceId)
    (.deletionInvariant .evidenceChain))
  Program.transact (.evidenceInsert value.deleteRequestId value.previousEvidenceId)
    (insertEvidence value latest)

def loadEvidence (db : Database) (namespaceId deletionEvidenceId : Identifier) :
    Except SqliteError (Option DeletionEvidence) :=
  match (lookup EvidenceRow.deletionEvidenceId db.evidence deletionEvidenceId).filter
    (·.namespaceId == namespaceId) with
  | none => .ok none
  | some row => do
    let request ← (← loadRequest db namespaceId row.deleteRequestId).orError storedDeletion
    let componentResults ←
      ((loadExecutionResults .other request row.executionOrdinal).run db).1
    let evidence ← (DeletionEvidence.new
      { deletionEvidenceId := row.deletionEvidenceId
        deleteRequestId := row.deleteRequestId
        previousEvidenceId := row.previousEvidenceId
        namespaceId := row.namespaceId
        deviceId := row.deviceId
        overallStatus := row.overallStatus
        componentResults
        startedAt := row.startedAt
        finishedAt := row.finishedAt
        verifiedBy := row.verifiedBy
        evidenceDigest := row.evidenceDigest }).mapError deletionCore
    (validateDeletionEvidence request evidence).mapError deletionCore
    return some evidence

end RadishMemory
