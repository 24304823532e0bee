import RadishMemory.Construction.Sqlite.ObjectDeletion

/-!
# Abandoning a prepared capture

A target selects one unfinished capture by everything that was stored of it, and is compared again
whenever it is used.  The transition to `abandoning` is the decision, the one to `abandoned` is
made when nothing is left of the object; the row stays, so that the request cannot come back.
-/

namespace RadishMemory

structure CaptureAbandonmentTarget where
  namespaceId : Identifier
  deviceId : String
  providerProfile : String
  sourceId : Identifier
  request : AttemptRequest
  tokens : ObjectTokens
  digestValue : Sha256Hex
  contentLength : Nat
  mediaType : MediaType
deriving DecidableEq

namespace VaultDatabase

/-- The target that selects a captured attempt, and the state of the attempt. -/
def loadAbandonmentTarget (db : VaultDatabase) (sourceId : Identifier) :
    Except SqliteError (CaptureAbandonmentTarget × AttemptPhase) := do
  let row ← (db.attemptOf sourceId).orError storageError
  let request ← row.request.orError storageError
  let tokens ← row.tokens.orError storageError
  let profile ← (db.keyProfile.find? (·.namespaceId == row.namespaceId.asStr)).orError
    storageError
  return ({
    namespaceId := row.namespaceId
    deviceId := profile.deviceId
    providerProfile := profile.providerProfile
    sourceId
    request
    tokens
    digestValue := row.digestValue
    contentLength := row.contentLength
    mediaType := row.mediaType }, row.phase)

def pendingAbandonmentTarget (db : VaultDatabase) :
    Except SqliteError (Option CaptureAbandonmentTarget) :=
  if db.version = objectMigrationSchemaVersion then .ok none
  else
    match db.objectAttempts.find? fun row => row.request.isSome &&
      (row.phase == .prepared || row.phase == .abandoning) with
    | none => .ok none
    | some row => do
      let (target, _) ← db.loadAbandonmentTarget row.sourceId
      return some target

variable [Platform]

/-- The object of a target that is what it was when it was selected. -/
def abandonmentItem (db : VaultDatabase) (namespaceId : Identifier)
    (target : CaptureAbandonmentTarget) : Except SqliteError CaptureObject := do
  db.verifyStructure namespaceId
  require (captureSchemaVersion ≤ db.version ∧ target.namespaceId = namespaceId) captureInvalid
  let (current, phase) ← db.loadAbandonmentTarget target.sourceId
  require (current = target ∧
    (phase = .prepared ∨ phase = .abandoning ∨ phase = .abandoned)) captureInvalid
  let items ← db.objects
  (items.find? (·.sourceId == target.sourceId)).orError captureInvalid

/-- The transaction of a transition, with the migration that abandonment needs. -/
def updateAbandonment (db : VaultDatabase) (target : CaptureAbandonmentTarget)
    (before after : AttemptPhase) : Except SqliteError VaultDatabase := do
  let db ← if db.version = captureSchemaVersion then db.applyPending abandonmentSchemaVersion
    else .ok db
  let (changed, db) ← db.updateAttempts
    (fun row => row.sourceId == target.sourceId && row.phase == before &&
      row.request.map AttemptRequest.requestDigest == some target.request.requestDigest &&
      row.attempt == some target.tokens.attempt &&
      (db.referenceOf target.sourceId).isNone && !db.hasSource target.sourceId)
    fun row => { row with phase := after }
  require (changed = 1) captureInvalid
  return db

/-- `transition_abandonment`, but for the verification after a transaction; the result says
whether there was one. -/
def transitionAbandonment (db : VaultDatabase) (namespaceId : Identifier)
    (target : CaptureAbandonmentTarget) (finish : Bool) :
    Except SqliteError (Bool × VaultDatabase) := do
  let item ← db.abandonmentItem namespaceId target
  match item.state, finish with
  | .abandoned, _ | .abandoning, false => return (false, db)
  | .prepared, true | .committed, _ => .error captureInvalid
  | _, true => do
    let db ← db.updateAbandonment target .abandoning .abandoned
    return (true, db)
  | _, false => do
    let db ← db.updateAbandonment target .prepared .abandoning
    return (true, db)

end VaultDatabase

end RadishMemory
