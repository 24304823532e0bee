import RadishMemory.Construction.Sqlite.LegacyDeletion
import RadishMemory.Construction.Sqlite.PlanRows

/-!
# Deletions of encrypted objects

A deletion begins with one transaction that stores the request and its closure, closes the
targets to recall, gives up the references of the objects and registers them as `deleting`.  Only
then may their files go; each object is marked `deleted` when it is gone, and the ten components
run when all are.

`verifyStructure`, with which every session begins, checks the attempts, references and deletions
against the canonical rows and every registered plan against its fingerprint.
-/

namespace RadishMemory

variable [Platform]

instance : BEq DeleteRequestParams :=
  ⟨fun a b => a.deleteRequestId == b.deleteRequestId && a.namespaceId == b.namespaceId &&
    a.requestedBy == b.requestedBy && a.authorizationBasis == b.authorizationBasis &&
    a.requestedGuarantee == b.requestedGuarantee && a.deviceId == b.deviceId &&
    a.targetRefs == b.targetRefs && a.plannedComponents == b.plannedComponents &&
    a.reasonCode == b.reasonCode && a.requestedAt == b.requestedAt⟩

instance : BEq DeletionEvidenceParams :=
  ⟨fun a b => a.deletionEvidenceId == b.deletionEvidenceId &&
    a.deleteRequestId == b.deleteRequestId && a.previousEvidenceId == b.previousEvidenceId &&
    a.namespaceId == b.namespaceId && a.deviceId == b.deviceId &&
    a.overallStatus == b.overallStatus && a.componentResults == b.componentResults &&
    a.startedAt == b.startedAt && a.finishedAt == b.finishedAt &&
    a.verifiedBy == b.verifiedBy && a.evidenceDigest == b.evidenceDigest⟩

/-- `rebuild_with_sources`: the derived index of a library whose sources come from elsewhere. -/
def rebuildWithSources (load : SourceLoader) (db : Database) : Except SqliteError Database := do
  let tips ← expectedSourceTipsWith load db
  let db ← tips.foldlM (fun db tip => db.insertTip tip) { db with tips := [] }
  let expected ← Catalog.loadWith load db
  let db ← expected.projections.foldlM (fun db row => db.insertProjection row)
    { db with recallFts := [], projection := [] }
  let db := { db with recallFts := expected.recallRows }
  verifyCatalog db expected
  return db

namespace VaultDatabase

/-! ## Plans -/

/-- The request is of this library, whose device is that of the key profile. -/
def validateDeleteIdentity (db : VaultDatabase) (namespaceId : Identifier)
    (request : DeleteRequest) : Except SqliteError Unit := do
  validateRequestProfile request
  let profile ← (db.keyProfile.find? (·.singleton == 1)).orError storageError
  require (request.params.namespaceId = namespaceId ∧
    request.params.deviceId.asStr = profile.deviceId) captureInvalid

/-- The request is the stored one, and its rows have the registered fingerprint. -/
def verifyDeletePlan (db : VaultDatabase) (request : DeleteRequest) : Except SqliteError Unit := do
  let value := request.params
  let stored ← (← loadRequest db.library value.namespaceId value.deleteRequestId).orError
    captureInvalid
  require ((stored.params == value) = true) captureInvalid
  let plan ← (lookup DeletePlanRow.deleteRequestId db.deletePlans value.deleteRequestId).orError
    storageError
  let digest ← planDigestOf db.library value.deleteRequestId
  require (digest = plan.planDigest) captureInvalid

/-- An object that is being deleted is a committed one of a closed source in the frozen closure. -/
def deletionMatches (db : VaultDatabase) (row : ObjectDeletionRow) : Bool :=
  match db.attemptOf row.sourceId with
  | none => true
  | some attempt =>
    (attempt.phase == .retired || attempt.phase == .committed) &&
    (match lookup SourceRow.sourceId db.library.sources row.sourceId with
      | none => false
      | some source => source.governance.deletionState != .active) &&
    (db.referenceOf row.sourceId).isNone &&
    db.library.executionClosure.any fun entry =>
      entry.owner == (row.deleteRequestId, .sourceBody) &&
        entry.value == ⟨.sourceArtifact, row.sourceId⟩

/-- A body of a registered plan is an object that is being deleted, or was deleted before the
migration. -/
def closureMatches (db : VaultDatabase)
    (entry : Child (Identifier × DeletionComponentType) ObjectRef) : Bool :=
  entry.owner.2 != .sourceBody || !db.hasDeletePlan entry.owner.1 ||
  (entry.value.objectType == .sourceArtifact &&
    ((db.deletions.any fun row => row.sourceId == entry.value.objectId &&
        row.deleteRequestId == entry.owner.1) ||
      (legacyDeletionSchemaVersion ≤ db.version &&
        db.legacyRetirements.any fun row => row.sourceId == entry.value.objectId &&
          row.deleteRequestId == entry.owner.1)))

/-- One registered plan of `verify_deletion_inventory`. -/
def verifyRegisteredPlan (db : VaultDatabase) (namespaceId : Identifier) (plan : DeletePlanRow) :
    Except SqliteError Unit := do
  let request ← (← loadRequest db.library namespaceId plan.deleteRequestId).orError captureInvalid
  db.validateDeleteIdentity namespaceId request
  db.verifyDeletePlan request

def verifyDeletionInventory (db : VaultDatabase) (namespaceId : Identifier) :
    Except SqliteError Unit :=
  if db.version < objectDeletionSchemaVersion then .ok ()
  else do
    checkAll (db.verifyRegisteredPlan namespaceId)
      (db.deletePlans.insertionSort fun a b => a.deleteRequestId.asStr ≤ b.deleteRequestId.asStr)
    require ((∀ row ∈ db.deletions, db.deletionMatches row = true) ∧
      ∀ entry ∈ db.library.executionClosure, db.closureMatches entry = true) captureInvalid
    if legacyDeletionSchemaVersion ≤ db.version then verifyReceipts db namespaceId

/-! ## The structure -/

def verifyStructure (db : VaultDatabase) (namespaceId : Identifier) : Except SqliteError Unit := do
  verifyDatabaseFacts db.library namespaceId
  let migration ← db.migration.orError storageError
  require (migration = .objectsReady) captureInvalid
  require (db.library.bodies.isEmpty = true) captureInvalid
  require ((∀ row ∈ db.objectAttempts, db.attemptMatches namespaceId row = true) ∧
    db.sourcesReferenced = true) captureInvalid
  db.verifyDeletionInventory namespaceId
  if db.version = objectMigrationSchemaVersion then do
    let items ← db.objects
    require (∀ item ∈ items, item.state = .committed) captureInvalid

/-- `EncryptedCaptureDatabase::verify_facts` -/
def verifyFacts (db : VaultDatabase) (namespaceId : Identifier) (sources : List SourceArtifact) :
    Except SqliteError Unit := do
  db.verifyStructure namespaceId
  db.verifyStoredFacts sources

/-- `EncryptedCaptureDatabase::open`: the key profile is this one, and the schema version one
that has objects. -/
def openCapture (db : VaultDatabase) (namespaceId deviceId : Identifier) :
    Except SqliteError Unit := do
  require (objectMigrationSchemaVersion ≤ db.version ∧ db.version ≤ legacyDeletionSchemaVersion)
    unsupportedSchemaVersion
  let profile ← (db.keyProfile.find? (·.singleton == 1)).orError storageError
  require (profile.namespaceId = namespaceId.asStr ∧ profile.deviceId = deviceId.asStr ∧
    profile.providerProfile = providerProfile ∧ profile.state = "key_ready") profileMismatch
  db.verifyStructure namespaceId

/-- `initialize_capture_schema`, but for the verification at its end. -/
def initializeCaptureSchema (db : VaultDatabase) : Except SqliteError VaultDatabase :=
  if db.version = objectMigrationSchemaVersion then db.applyPending captureSchemaVersion
  else .ok db

/-- `rebuild_recall_derivations`, up to the callback before the commit. -/
def rebuildRecallDerivations (db : VaultDatabase) (namespaceId : Identifier)
    (sources : List SourceArtifact) : Except SqliteError VaultDatabase := do
  db.verifyStructure namespaceId
  db.verifyCanonicalFacts sources
  let load ← sourceLoader sources
  let library ← rebuildWithSources load db.library
  let db := { db with library }
  db.verifyStoredFacts sources
  return db

/-! ## Beginning -/

/-- The reference of a target is given up, and its object is registered. -/
def beginTarget (deleteRequestId : Identifier) (db : VaultDatabase) (sourceId : Identifier) :
    Except SqliteError VaultDatabase := do
  let (removed, db) := db.deleteReference sourceId
  require (removed = 1) captureInvalid
  db.insertObjectDeletion { sourceId, deleteRequestId, state := .deleting }

/-- The fingerprint of a plan. -/
def registerPlan (db : VaultDatabase) (deleteRequestId : Identifier) :
    Except SqliteError VaultDatabase := do
  let planDigest ← planDigestOf db.library deleteRequestId
  db.insertDeletePlan { deleteRequestId, planDigest }

/-- A capture or its abandonment is unfinished. -/
def capturePending (db : VaultDatabase) : Except SqliteError Bool := do
  let items ← db.objects
  return items.any fun item => item.state == .prepared || item.state == .abandoning

/-- The transaction for a request that is not stored yet. -/
def beginNewDeletion (db : VaultDatabase) (request : DeleteRequest)
    (sources : List SourceArtifact) : Except SqliteError VaultDatabase := do
  let value := request.params
  let pending ← db.capturePending
  require (pending = false ∧ db.deletionInProgress = false) captureInvalid
  validateSemanticTargets db.library request
  let closure ← buildExecutionClosure db.library request
  let db ← db.applyPending objectDeletionSchemaVersion
  let library ← insertRequest db.library request closure
  let library ← closeTargetsToRecall library request closure
  let db ← { db with library }.registerPlan value.deleteRequestId
  let db ← value.sourceTargets.foldlM (beginTarget value.deleteRequestId) db
  db.verifyStoredFacts (sources.filter fun source =>
    !value.sourceTargets.contains source.params.sourceId)
  return db

/-- A body that is an object is registered; one that an old execution has deleted leaves a
receipt. -/
def adoptBody (deleteRequestId : Identifier) (db : VaultDatabase)
    (body : Identifier × Option Nat) : Except SqliteError VaultDatabase :=
  match body with
  | (sourceId, some attemptOrdinal) =>
    db.insertLegacyRetirement { sourceId, deleteRequestId, attemptOrdinal }
  | (sourceId, none) => db.beginTarget deleteRequestId sourceId

/-- The transaction for a request that was stored before the migration. -/
def adoptLegacyDeletion (db : VaultDatabase) (request : DeleteRequest) :
    Except SqliteError VaultDatabase := do
  let deleteRequestId := request.params.deleteRequestId
  let pending ← db.capturePending
  require (pending = false) captureInvalid
  let bodies ← validateResume db request
  let db ← db.applyPending legacyDeletionSchemaVersion
  let db ← db.registerPlan deleteRequestId
  bodies.foldlM (adoptBody deleteRequestId) db

/-- `begin_object_deletion`, but for the verification after a transaction.  A registered request
is resumed. -/
def beginObjectDeletion (db : VaultDatabase) (namespaceId : Identifier) (request : DeleteRequest)
    (sources : List SourceArtifact) : Except SqliteError (Bool × VaultDatabase) := do
  let value := request.params
  db.verifyFacts namespaceId sources
  db.validateDeleteIdentity namespaceId request
  match ← loadRequest db.library value.namespaceId value.deleteRequestId with
  | none => do
    let db ← db.beginNewDeletion request sources
    return (true, db)
  | some existing => do
    require ((existing.params == value) = true) captureInvalid
    if objectDeletionSchemaVersion ≤ db.version ∧ db.hasDeletePlan value.deleteRequestId then do
      db.verifyDeletePlan request
      return (false, db)
    else do
      let db ← db.adoptLegacyDeletion request
      return (true, db)

/-! ## Finishing -/

/-- The objects that a request deletes. -/
def deletionObjects (db : VaultDatabase) (namespaceId : Identifier) (request : DeleteRequest) :
    Except SqliteError (List CaptureObject) := do
  db.validateDeleteIdentity namespaceId request
  db.verifyDeletePlan request
  let items ← db.objects
  return items.filter fun item => db.deletions.any fun row =>
    row.sourceId == item.sourceId && row.deleteRequestId == request.params.deleteRequestId

/-- The files of an object are gone. -/
def finishObjectRetirement (db : VaultDatabase) (namespaceId : Identifier)
    (request : DeleteRequest) (sourceId : Identifier) : Except SqliteError VaultDatabase := do
  let items ← db.deletionObjects namespaceId request
  require ((items.any fun item => item.sourceId == sourceId) = true) captureInvalid
  let (changed, db) := db.markDeleted sourceId request.params.deleteRequestId
  require (changed = 1) captureInvalid
  return db

/-! ## Executing -/

/-- The object of a source is deleted and has no reference. -/
def objectRetired (db : VaultDatabase) (deleteRequestId sourceId : Identifier) : Bool :=
  (db.deletions.any fun row => row.sourceId == sourceId &&
      row.deleteRequestId == deleteRequestId && row.state == .deleted) &&
    (db.referenceOf sourceId).isNone

/-- `delete_source_bodies` from schema version 11 on: there is nothing left to delete. -/
def verifyBodiesAbsent (db : VaultDatabase) (request : DeleteRequest) (targets : List ObjectRef) :
    Except SqliteError ActionResult := do
  requireClosureType targets .sourceArtifact
  let retired := fun target : ObjectRef =>
    db.objectRetired request.params.deleteRequestId target.objectId
  checkAll (fun target => do
    require (legacyDeletionSchemaVersion ≤ db.version) deletionExecutionError
    verifyRecordedBodyAbsence db request target.objectId)
    (targets.filter fun target => !retired target)
  return {
    outcome := outcomeWhen (targets.any retired) .deleted
    verificationMethod := if targets.all retired then "source-vault-authenticated-absence-v1"
      else "source-vault-and-legacy-body-absence-v1" }

/-- The action of a component on the encrypted library. -/
def executeComponentAction (db : VaultDatabase) (request : DeleteRequest)
    (componentType : DeletionComponentType) (attemptOrdinal : Nat) (hasFailed : Bool) :
    Except SqliteError (ActionResult × Database) := do
  let value := request.params
  if componentType = .sourceBody ∧ objectDeletionSchemaVersion ≤ db.version then do
    let targets ← loadExecutionClosure db.library value.deleteRequestId .sourceBody
    let action ← db.verifyBodiesAbsent request targets
    return (action, db.library)
  else
    RadishMemory.executeComponentAction db.library value.namespaceId value.deleteRequestId
      componentType attemptOrdinal hasFailed

/-- The transaction of one component; an action that fails leaves nothing. -/
def componentTransaction (request : DeleteRequest) (execution : LocalDeletionExecution)
    (attemptOrdinal : Nat) (hasFailed faulty : Bool) (component : DeletionTarget)
    (db : VaultDatabase) : Except SqliteError (Bool × VaultDatabase) :=
  if faulty then .ok (false, db)
  else
    match db.executeComponentAction request component.params.componentType attemptOrdinal
      hasFailed with
    | .ok (action, library) => do
      let result ← successfulResult component execution action
      let library ← insertExecutionResult library request.params.deleteRequestId attemptOrdinal
        result
      return (true, { db with library })
    | .error _ => .ok (false, db)

/-- All objects of the request are gone. -/
def checkObjectsDeleted (db : VaultDatabase) (namespaceId : Identifier)
    (request : DeleteRequest) : Except SqliteError Unit := do
  let items ← db.deletionObjects namespaceId request
  require (∀ item ∈ items, item.state = .deleted) captureInvalid

/-- What `store_object_deletion_evidence` checks first. -/
def checkEvidence (db : VaultDatabase) (namespaceId : Identifier) (evidence : DeletionEvidence) :
    Except SqliteError Unit := do
  let value := evidence.params
  let request ← (← loadRequest db.library value.namespaceId value.deleteRequestId).orError
    captureInvalid
  db.validateDeleteIdentity namespaceId request
  db.verifyDeletePlan request

end VaultDatabase

end RadishMemory
