import RadishMemory.Construction.Sqlite.CaptureAbandonment
import RadishMemory.Construction.SourceVault.DigestText
import RadishMemory.Construction.SourceVault.ObjectFiles
import RadishMemory.Framework.Upholds

/-!
# The operations of the encrypted library

A coordinator holds the database exclusively and works on it and on the object files in turn: a
query or a transaction of the database is one access, and so is every call of the file system.
Each operation begins with the authentication of every object the database knows.

Two things are not modelled: the checks that the database file is still the one that was opened,
and the structure check of the full-text engine, whose rows are compared with the canonical ones
anyway.
-/

namespace RadishMemory

inductive MaintenanceError where
  | database (error : SqliteError)
  | object (error : ObjectError)
deriving DecidableEq

def MaintenanceError.vault (error : SourceVaultError) : MaintenanceError :=
  .object (.returned (.vault error.code) error.reason)

/-- `invalid()` of the capture coordinator. -/
def MaintenanceError.stateMismatch : MaintenanceError :=
  .object (.returned (.vault .attemptMismatch) "encrypted capture state mismatch")

/-! ## Objects -/

def ObjectTokens.objectLocator (tokens : ObjectTokens) : ObjectLocator :=
  ⟨tokens.locator⟩

def ObjectTokens.attemptId (tokens : ObjectTokens) : AttemptId :=
  ⟨tokens.attempt⟩

/-- `ObjectMetadata::new`, with the digest as the database holds it. -/
def objectMetadata (namespaceId sourceId : Identifier) (digestValue : Sha256Hex)
    (contentLength : Nat) (mediaType : MediaType) : Except MaintenanceError ObjectMetadata := do
  let exactDigest ← (decodeDigest digestValue.text).mapError .vault
  (ObjectMetadata.new
    { namespaceId := namespaceId.asStr
      sourceId := sourceId.asStr
      exactDigest
      plaintextLen := UInt64.ofNat contentLength
      mediaType := mediaType.asStr }).mapError .vault

def CaptureObject.metadata (item : CaptureObject) : Except MaintenanceError ObjectMetadata :=
  objectMetadata item.namespaceId item.sourceId item.digestValue item.contentLength item.mediaType

def metadataForSource [Platform] (source : SourceArtifact) :
    Except MaintenanceError ObjectMetadata :=
  objectMetadata source.params.namespaceId source.params.sourceId
    source.params.contentDigest.value source.params.contentLength source.params.mediaType

/-! ## Programs -/

abbrev FilesIo (α : Type) :=
  Program Unit VaultFiles MaintenanceError α

namespace FilesIo

def check {α : Type} (result : Except MaintenanceError α) : FilesIo α :=
  .ofExcept result

def database {α : Type} (result : Except SqliteError α) : FilesIo α :=
  .ofExcept (result.mapError .database)

def objects {α : Type} (program : ObjectIo α) : FilesIo α :=
  program.mapError .object

end FilesIo

/-- An encrypted library. -/
structure Vault where
  database : VaultDatabase
  files : VaultFiles

def filesPart : Program.Part Vault VaultFiles where
  get := Vault.files
  put files vault := { vault with files }
  get_put _ _ := rfl
  put_get _ := rfl
  put_put _ _ _ := rfl

def libraryPart : Program.Part Vault Database where
  get vault := vault.database.library
  put library vault := { vault with database := { vault.database with library } }
  get_put _ _ := rfl
  put_get _ := rfl
  put_put _ _ _ := rfl

abbrev VaultIo (α : Type) :=
  Program Unit Vault MaintenanceError α

namespace VaultIo

def check {α : Type} (result : Except MaintenanceError α) : VaultIo α :=
  .ofExcept result

def ask {α : Type} (f : VaultDatabase → Except SqliteError α) : VaultIo α :=
  .read () fun vault => (f vault.database).mapError .database

def commit {α : Type} (body : VaultDatabase → Except SqliteError (α × VaultDatabase)) :
    VaultIo α :=
  .transact () fun vault => do
    let (a, database) ← (body vault.database).mapError .database
    return (a, { vault with database })

def update (body : VaultDatabase → Except SqliteError VaultDatabase) : VaultIo Unit :=
  commit fun db => do
    let db ← body db
    return ((), db)

def files {α : Type} (program : FilesIo α) : VaultIo α :=
  program.on filesPart id

def objects {α : Type} (program : ObjectIo α) : VaultIo α :=
  files (FilesIo.objects program)

/-- A program of the library that has no objects. -/
def library {α : Type} (call : Call α) : VaultIo α :=
  (call.mapError .database).on libraryPart fun _ => ()

end VaultIo

open VaultIo

variable [Platform] [ObjectCipher]

/-! ## Authentication -/

def CaptureObject.inspect (item : CaptureObject) (key : KeyEncryptionKey) :
    FilesIo AttemptState := do
  let metadata ← FilesIo.check item.metadata
  FilesIo.objects (inspectAttempt item.tokens.objectLocator item.tokens.attemptId metadata key)

/-- The object has its final name. -/
def AttemptState.isPublished : AttemptState → Bool
  | .authenticatedPublishedCandidate | .authenticatedStagingAndPublishedCandidate => true
  | _ => false

/-- The source of a committed object, read through the committed reference. -/
def readCommitted (db : VaultDatabase) (key : KeyEncryptionKey) (item : CaptureObject) :
    FilesIo (Option SourceArtifact) := do
  let metadata ← FilesIo.check item.metadata
  let tokens ← FilesIo.database (db.reference item.sourceId)
  let state ← FilesIo.objects (inspectAttempt tokens.objectLocator tokens.attemptId metadata key)
  FilesIo.check (require (state.isPublished = true) .stateMismatch)
  let body ← FilesIo.objects (readObject tokens.objectLocator metadata key)
  FilesIo.database (db.resolveObject item body)

/-- One object, and its source when it has one. -/
def authenticateObject (db : VaultDatabase) (key : KeyEncryptionKey) (item : CaptureObject) :
    FilesIo (Option SourceArtifact) := do
  if item.state = .committed then readCommitted db key item
  else do
    let state ← item.inspect key
    FilesIo.check (require ((item.state = .abandoned ∨ item.state = .deleted) → state = .absent)
      .stateMismatch)
    return none

/-- Every object that the database knows, and no other file. -/
def authenticateAll (db : VaultDatabase) (key : KeyEncryptionKey) :
    FilesIo (List SourceArtifact) := do
  let items ← FilesIo.database db.objects
  let tokens := items.map fun item => (item.tokens.objectLocator, item.tokens.attemptId)
  FilesIo.objects (verifyInventory tokens)
  let sources ← items.mapM (authenticateObject db key)
  FilesIo.objects (verifyInventory tokens)
  return sources.reduceOption

namespace VaultIo

def authenticateSources (key : KeyEncryptionKey) : VaultIo (List SourceArtifact) := do
  let db ← ask .ok
  files (authenticateAll db key)

/-- Authenticate the objects, and compare their sources with the database. -/
def verifyAll (namespaceId : Identifier) (key : KeyEncryptionKey) :
    VaultIo (List SourceArtifact) := do
  let sources ← authenticateSources key
  ask fun db => db.verifyFacts namespaceId sources
  return sources

def openDatabase (namespaceId deviceId : Identifier) : VaultIo Unit :=
  ask fun db => db.openCapture namespaceId deviceId

def loadKey (loadExisting : Except SourceVaultError KeyEncryptionKey) : VaultIo KeyEncryptionKey :=
  check (loadExisting.mapError .vault)

def inspectObject (item : CaptureObject) (key : KeyEncryptionKey) : VaultIo AttemptState :=
  files (item.inspect key)

def recoverObject (item : CaptureObject) (key : KeyEncryptionKey) : VaultIo Unit := do
  let metadata ← check item.metadata
  objects (recoverAttempt item.tokens.objectLocator item.tokens.attemptId metadata key)

def retireObject (item : CaptureObject) (key : KeyEncryptionKey) : VaultIo Unit := do
  let metadata ← check item.metadata
  objects (retireAttempt item.tokens.objectLocator item.tokens.attemptId metadata key)

/-- The paths of a retired object have not come back. -/
def requireAbsent (item : CaptureObject) (key : KeyEncryptionKey) (reason : String) :
    VaultIo Unit := do
  let state ← inspectObject item key
  check (require (state = .absent) (.object (.returned (.vault .attemptMismatch) reason)))

end VaultIo

/-! ## Capturing -/

def pendingObject : VaultIo (Option CaptureObject) :=
  ask fun db => do
    let items ← db.objects
    return items.find? (·.state == .prepared)

/-- Seal a body, store the tokens of its object and publish it; and what is left of the random
bytes. -/
def publishBody (key : KeyEncryptionKey) (metadata : ObjectMetadata) (body : List UInt8)
    (random : RandomSource Nat) (s : Nat)
    (prepare : ObjectTokens → VaultDatabase → Except SqliteError VaultDatabase) :
    VaultIo (ObjectTokens × Nat) := do
  let (write, s) ← check ((ObjectWrite.seal key metadata body random s).mapError .object)
  let tokens := ⟨write.locator.token, write.attempt.token⟩
  update (prepare tokens)
  let _ ← objects (publish write key)
  return (tokens, s)

def publishNew (request : SourceCapture) (key : KeyEncryptionKey) (random : RandomSource Nat) :
    VaultIo Unit := do
  let source := request.params.source
  let metadata ← check (metadataForSource source)
  let _ ← publishBody key metadata (utf8Bytes source.params.content.asStr) random 0
    fun tokens db => db.prepareCapture request tokens

/-- Publish the object of a capture, or recover one of which something is left. -/
def publishCapture (request : SourceCapture) (key : KeyEncryptionKey)
    (random : RandomSource Nat) : VaultIo Unit := do
  match ← pendingObject with
  | none => publishNew request key random
  | some item => do
    let state ← inspectObject item key
    if state = .absent then publishNew request key random else recoverObject item key

def initializeSchema (namespaceId : Identifier) : VaultIo Unit := do
  update VaultDatabase.initializeCaptureSchema
  ask fun db => db.verifyStructure namespaceId

/-- What a capture does when there is something to capture. -/
def captureNew (namespaceId : Identifier) (request : SourceCapture) (key : KeyEncryptionKey)
    (sources : List SourceArtifact) (random : RandomSource Nat) :
    VaultIo SourceCaptureResult := do
  initializeSchema namespaceId
  publishCapture request key random
  let item ← pendingObject
  let item ← check (item.orError .stateMismatch)
  recoverObject item key
  let committed ← commit fun db => db.commitCapture namespaceId request sources
  let reloaded ← verifyAll namespaceId key
  let source ← check ((reloaded.find? fun source =>
    source.params.sourceId == request.params.source.params.sourceId).orError .stateMismatch)
  return .fromSource source committed

def capture (namespaceId deviceId : Identifier) (request : SourceCapture)
    (loadExisting : Except SourceVaultError KeyEncryptionKey) (random : RandomSource Nat) :
    VaultIo SourceCaptureResult := do
  openDatabase namespaceId deviceId
  let key ← loadKey loadExisting
  let sources ← verifyAll namespaceId key
  let (selected, outcome) ← ask fun db => db.decide namespaceId request sources
  if outcome = .idempotent then return .fromSource selected outcome
  else captureNew namespaceId request key sources random

/-! ## Abandoning -/

def inspectAbandonment (namespaceId deviceId : Identifier)
    (loadExisting : Except SourceVaultError KeyEncryptionKey) :
    VaultIo (Option CaptureAbandonmentTarget) := do
  openDatabase namespaceId deviceId
  let key ← loadKey loadExisting
  let _ ← verifyAll namespaceId key
  ask VaultDatabase.pendingAbandonmentTarget

/-- A transition, and the verification that follows a transaction. -/
def transition (namespaceId : Identifier) (target : CaptureAbandonmentTarget) (finish : Bool) :
    VaultIo Unit := do
  let changed ← commit fun db => db.transitionAbandonment namespaceId target finish
  if changed then ask fun db => db.verifyStructure namespaceId

/-- The removal of an unfinished capture, from the decision to its last state. -/
def abandonObject (namespaceId : Identifier) (target : CaptureAbandonmentTarget)
    (key : KeyEncryptionKey) : VaultIo Unit := do
  transition namespaceId target false
  let item ← ask fun db => db.abandonmentItem namespaceId target
  let _ ← verifyAll namespaceId key
  retireObject item key
  let _ ← verifyAll namespaceId key
  requireAbsent item key "abandoned paths reappeared"
  transition namespaceId target true

/-- Whether the capture had been abandoned before. -/
def abandon (namespaceId deviceId : Identifier) (target : CaptureAbandonmentTarget)
    (loadExisting : Except SourceVaultError KeyEncryptionKey) : VaultIo Bool := do
  openDatabase namespaceId deviceId
  let item ← ask fun db => db.abandonmentItem namespaceId target
  let key ← loadKey loadExisting
  let _ ← verifyAll namespaceId key
  let alreadyAbandoned := item.state == .abandoned
  if !alreadyAbandoned then abandonObject namespaceId target key
  let _ ← verifyAll namespaceId key
  let last ← ask fun db => db.abandonmentItem namespaceId target
  check (require (last.state = .abandoned)
    (.object (.returned (.vault .attemptMismatch) "abandonment incomplete")))
  return alreadyAbandoned

/-! ## Reconciling -/

/-- The items in a state. -/
def countState (state : CaptureObjectState) (items : List CaptureObject) : Nat :=
  items.countP (·.state == state)

structure ReconciliationReport where
  committedObjectsVerified : Nat
  pendingCapture : Option AttemptState
  abandonmentPending : Bool
  abandonedAttempts : Nat
  deletionPendingObjects : Nat
  deletedObjects : Nat
  committedStagingLinksRemoved : Nat

/-- Remove the staging link of a committed object, if it still has one. -/
def cleanupObject (key : KeyEncryptionKey) (item : CaptureObject) : VaultIo Bool := do
  let tokens ← ask fun db => db.reference item.sourceId
  let metadata ← check item.metadata
  objects (cleanupCommittedStaging tokens.objectLocator tokens.attemptId metadata key)

def reconcile (namespaceId deviceId : Identifier)
    (loadExisting : Except SourceVaultError KeyEncryptionKey) : VaultIo ReconciliationReport := do
  openDatabase namespaceId deviceId
  let key ← loadKey loadExisting
  let _ ← verifyAll namespaceId key
  let items ← ask VaultDatabase.objects
  let removed ← (items.filter (·.state == .committed)).foldlM (fun removed item => do
    let cleaned ← cleanupObject key item
    return if cleaned then removed + 1 else removed) 0
  let _ ← verifyAll namespaceId key
  let pendingCapture ← match items.find? (·.state == .prepared) with
    | none => pure none
    | some item => do
      let state ← inspectObject item key
      pure (some state)
  return {
    committedObjectsVerified := countState .committed items
    pendingCapture
    abandonmentPending := items.any (·.state == .abandoning)
    abandonedAttempts := countState .abandoned items
    deletionPendingObjects := countState .deleting items
    deletedObjects := countState .deleted items
    committedStagingLinksRemoved := removed }

/-! ## Deleting -/

/-- Remove the files of an object that is being deleted, and mark it deleted. -/
def retireDeleting (namespaceId : Identifier) (request : DeleteRequest) (key : KeyEncryptionKey)
    (item : CaptureObject) : VaultIo Unit := do
  if item.state ≠ .deleted then do
    retireObject item key
    requireAbsent item key "object reappeared before retirement commit"
    update fun db => db.finishObjectRetirement namespaceId request item.sourceId
    let _ ← verifyAll namespaceId key

/-- One component, with the fault that its action may meet. -/
def runComponent (request : DeleteRequest) (execution : LocalDeletionExecution)
    (faulty : DeletionComponentType → Bool) (attemptOrdinal : Nat) (hasFailed : Bool)
    (componentType : DeletionComponentType) : VaultIo Bool := do
  let component ← check (((request.params.plannedComponents.find? fun component =>
    component.params.componentType == componentType).orError deletionPlan).mapError .database)
  let succeeded ← commit (VaultDatabase.componentTransaction request execution attemptOrdinal
    hasFailed (faulty componentType) component)
  if succeeded then return hasFailed
  else do
    let result ← check ((failedResult component execution).mapError .database)
    library (Program.transact .other (failureTransaction request attemptOrdinal result))
    return true

/-- `execute_object_deletion` -/
def executeObjectDeletion (namespaceId : Identifier) (request : DeleteRequest)
    (execution : LocalDeletionExecution) (faulty : DeletionComponentType → Bool) :
    VaultIo (List ComponentResult) := do
  ask fun db => db.checkObjectsDeleted namespaceId request
  let attemptOrdinal ← library (Program.transact .other
    (insertNextAttempt request.params.deleteRequestId execution.checkedAt))
  let _ ← executionOrder.foldlM (runComponent request execution faulty attemptOrdinal) false
  library (loadExecutionResults .other request attemptOrdinal)

/-- Register a deletion, and verify what a transaction leaves. -/
def beginDeletion (namespaceId : Identifier) (request : DeleteRequest)
    (sources : List SourceArtifact) : VaultIo Unit := do
  let changed ← commit fun db => db.beginObjectDeletion namespaceId request sources
  if changed then ask fun db => db.verifyStructure namespaceId

/-- `deletion::execute`; `faulty` are the components whose action meets a fault. -/
def executeDeletionRequest (request : DeleteRequest) (execution : LocalDeletionExecution)
    (faulty : DeletionComponentType → Bool)
    (loadExisting : Except SourceVaultError KeyEncryptionKey) :
    VaultIo (List ComponentResult) := do
  let namespaceId := request.params.namespaceId
  openDatabase namespaceId request.params.deviceId
  let key ← loadKey loadExisting
  let sources ← verifyAll namespaceId key
  beginDeletion namespaceId request sources
  let _ ← verifyAll namespaceId key
  let items ← ask fun db => db.deletionObjects namespaceId request
  items.forM (retireDeleting namespaceId request key)
  let _ ← verifyAll namespaceId key
  let results ← executeObjectDeletion namespaceId request execution faulty
  let _ ← verifyAll namespaceId key
  return results

/-- `deletion::store_evidence` -/
def storeEvidence (evidence : DeletionEvidence)
    (loadExisting : Except SourceVaultError KeyEncryptionKey) : VaultIo Unit := do
  let value := evidence.params
  openDatabase value.namespaceId value.deviceId
  let key ← loadKey loadExisting
  let _ ← verifyAll value.namespaceId key
  ask fun db => db.checkEvidence value.namespaceId evidence
  library (storeDeletionEvidence evidence)
  let _ ← verifyAll value.namespaceId key
  let stored ← ask fun db =>
    loadEvidence db.library value.namespaceId value.deletionEvidenceId
  check (require ((stored.any fun stored => stored.params == evidence.params) = true)
    (.object (.returned (.vault .attemptMismatch) "deletion evidence readback mismatch")))

/-! ## Maintenance -/

structure VerificationReport where
  committedObjectsVerified : Nat
  pendingCaptures : Nat
  abandonmentPending : Bool
  abandonedAttempts : Nat
  deletionPendingObjects : Nat
  deletedObjects : Nat
  derivationsRebuilt : Bool

/-- Rebuild the derived rows; the whole library is verified on them before they are committed. -/
def rebuildDerivations (namespaceId : Identifier) (key : KeyEncryptionKey)
    (sources : List SourceArtifact) : VaultIo Unit := do
  let rebuilt ← ask fun db => db.rebuildRecallDerivations namespaceId sources
  let current ← files (authenticateAll rebuilt key)
  check ((rebuilt.verifyFacts namespaceId current).mapError .database)
  update fun _ => .ok rebuilt

def maintain (namespaceId deviceId : Identifier) (rebuild : Bool)
    (loadExisting : Except SourceVaultError KeyEncryptionKey) : VaultIo VerificationReport := do
  openDatabase namespaceId deviceId
  let key ← loadKey loadExisting
  let sources ← authenticateSources key
  if rebuild then rebuildDerivations namespaceId key sources
  let _ ← verifyAll namespaceId key
  let items ← ask VaultDatabase.objects
  return {
    committedObjectsVerified := countState .committed items
    pendingCaptures := countState .prepared items
    abandonmentPending := items.any (·.state == .abandoning)
    abandonedAttempts := countState .abandoned items
    deletionPendingObjects := countState .deleting items
    deletedObjects := countState .deleted items
    derivationsRebuilt := rebuild }

/-! ## Reading -/

end RadishMemory
