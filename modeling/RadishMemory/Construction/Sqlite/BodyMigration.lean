import RadishMemory.Construction.Sqlite.EncryptedCapture

/-!
# Moving the bodies of a library into objects

Migration 8 makes an inventory of all bodies, those of old versions and of unfinished deletions
included.  Each body goes through the states of its attempt by itself: the tokens of its object
are stored before the object is published, the reference when it is published, and the inline body
is removed last, together with the change of the state.
-/

namespace RadishMemory

variable [Platform]

/-! ## The plaintext library -/

/-- A body and the source row that it belongs to. -/
def verifyInlineBody (db : Database) (row : SourceRow) : Except SqliteError Unit := do
  match lookup BodyRow.sourceId db.bodies row.sourceId with
  | some body =>
    require (row.contentLength = (utf8Bytes body.content).length ∧
        computeExactBytesDigest (utf8Bytes body.content) = row.contentDigest)
      (.invalidStored .storedIntegrityMismatch)
  | none =>
    require (row.governance.deletionState ≠ .active) (.invalidStored .storedIntegrityMismatch)
  if row.governance.deletionState = .active then do
    let _ ← (← loadSourceArtifact db row.namespaceId row.sourceId).orError profileMismatch
    let _ ← (← loadSourceFragments db row.namespaceId row.sourceId).orError profileMismatch

/-- `verify_plaintext_facts` -/
def verifyPlaintextFacts (db : Database) (namespaceId : Identifier) : Except SqliteError Unit := do
  verifyDatabaseFacts db namespaceId
  checkAll (verifyInlineBody db) db.sources
  verifyOriginBindings db
  verifyDerivedIndex db

/-! ## The inventory -/

inductive BodyMigrationState where
  | planned
  | prepared
  | referenced
  | retired
deriving DecidableEq, Repr

structure BodyMigrationItem where
  sourceId : Identifier
  namespaceId : Identifier
  digestValue : Sha256Hex
  contentLength : Nat
  mediaType : MediaType
  state : BodyMigrationState
  tokens : Option ObjectTokens

/-- `invalid()` of the body migration. -/
def migrationInvalid : SqliteError :=
  .invalidStored .storedIntegrityMismatch

def AttemptPhase.migrationState : AttemptPhase → Except SqliteError BodyMigrationState
  | .planned => .ok .planned
  | .prepared => .ok .prepared
  | .referenced => .ok .referenced
  | .retired => .ok .retired
  | .committed | .abandoning | .abandoned => .error migrationInvalid

def ObjectAttemptRow.migrationItem (row : ObjectAttemptRow) :
    Except SqliteError BodyMigrationItem := do
  let state ← row.phase.migrationState
  return {
    sourceId := row.sourceId
    namespaceId := row.namespaceId
    digestValue := row.digestValue
    contentLength := row.contentLength
    mediaType := row.mediaType
    state
    tokens := row.tokens }

/-- The attempt of a source whose body is to be moved. -/
def plannedAttempt (row : SourceRow) : ObjectAttemptRow where
  sourceId := row.sourceId
  namespaceId := row.namespaceId
  digestValue := row.contentDigest.value
  contentLength := row.contentLength
  mediaType := row.mediaType
  phase := .planned
  tokens := none
  request := none

namespace VaultDatabase

variable (db : VaultDatabase)

/-- The sources that have an inline body. -/
def inlineSources : List SourceRow :=
  db.library.sources.filter fun row => db.library.bodies.any (·.sourceId == row.sourceId)

/-- The attempt, the inline body and the reference of a source agree with its state. -/
def migrationMatches (namespaceId : Identifier) (row : SourceRow) : Bool :=
  let inlined := db.library.bodies.any (·.sourceId == row.sourceId)
  let reference := db.referenceOf row.sourceId
  row.namespaceId == namespaceId &&
  match db.attemptOf row.sourceId with
  | none => !inlined && row.governance.deletionState != .active
  | some attempt =>
    attempt.namespaceId == row.namespaceId && attempt.digestValue == row.contentDigest.value &&
      row.contentDigest.profile == .exactBytesV1 &&
      attempt.contentLength == row.contentLength && attempt.mediaType == row.mediaType &&
      (attempt.phase == .retired) == !inlined &&
      (attempt.phase == .referenced || attempt.phase == .retired) == reference.isSome &&
      (reference.all fun reference => attempt.tokens == some reference.tokens) &&
      (db.migration != some .objectsReady || attempt.phase == .retired)

/-- `verify_structure` of the migration. -/
def verifyMigrationStructure (namespaceId : Identifier) : Except SqliteError Unit := do
  verifyDatabaseFacts db.library namespaceId
  verifyOriginBindingRows db.library
  if keyInitializationSchemaVersion < db.version then do
    let _ ← db.migration.orError storageError
    require (∀ row ∈ db.library.sources, db.migrationMatches namespaceId row = true)
      migrationInvalid

/-- `BodyMigrationDatabase::open` -/
def openMigration (namespaceId deviceId : Identifier) : Except SqliteError Unit := do
  require (db.version = keyInitializationSchemaVersion ∨
    db.version = objectMigrationSchemaVersion) unsupportedSchemaVersion
  let profile ← (db.keyProfile.find? (·.singleton == 1)).orError storageError
  require (profile.namespaceId = namespaceId.asStr ∧ profile.deviceId = deviceId.asStr ∧
    profile.providerProfile = providerProfile ∧ profile.state = "key_ready") profileMismatch
  if db.version = keyInitializationSchemaVersion then verifyPlaintextFacts db.library namespaceId
  db.verifyMigrationStructure namespaceId

def hasInventory : Bool :=
  db.version == objectMigrationSchemaVersion

/-- `initialize_inventory`, but for the verification at its end. -/
def initializeInventory (namespaceId : Identifier) : Except SqliteError VaultDatabase := do
  verifyPlaintextFacts db.library namespaceId
  let db ← db.applyPending objectMigrationSchemaVersion
  require (db.migration = none) (SqliteError.storage .unique)
  { db with migration := some .migrating }.withAttempts
    (db.objectAttempts ++ db.inlineSources.map plannedAttempt)

/-- `ORDER BY source_id` -/
def migrationItems : Except SqliteError (List BodyMigrationItem) :=
  (db.objectAttempts.insertionSort fun a b => a.sourceId.asStr ≤ b.sourceId.asStr).mapM
    ObjectAttemptRow.migrationItem

/-! ## Bodies -/

/-- The bytes are the body of the item, and its active source can be read with them. -/
def verifyBody (item : BodyMigrationItem) (body : List UInt8) : Except SqliteError Unit := do
  require (body.length = item.contentLength ∧
    (computeExactBytesDigest body).value = item.digestValue) migrationInvalid
  match ← loadSourceWithBytes db.library item.namespaceId item.sourceId body with
  | none => return ()
  | some source => do
    let _ ← loadFragmentsForSource db.library source
    if source.params.originKind = .explicitUserInput then do
      let originRef ← source.params.originRef.orError migrationInvalid
      validateExistingCapture db.library originRef.toIdentifier source

def inlineBody (item : BodyMigrationItem) : Except SqliteError (Option (List UInt8)) :=
  match lookup BodyRow.sourceId db.library.bodies item.sourceId with
  | none => .ok none
  | some row => do
    db.verifyBody item (utf8Bytes row.content)
    return some (utf8Bytes row.content)

/-! ## Transitions -/

/-- The tokens of an object that is about to be published. -/
def prepareBody (item : BodyMigrationItem) (tokens : ObjectTokens) :
    Except SqliteError VaultDatabase := do
  let (changed, db) ← db.updateAttempts
    (fun row => row.sourceId == item.sourceId && (row.phase == .planned || row.phase == .prepared))
    fun row => { row with phase := .prepared, tokens := some tokens }
  require (changed = 1) migrationInvalid
  return db

def commitReference (item : BodyMigrationItem) : Except SqliteError VaultDatabase := do
  let row ← ((db.attemptOf item.sourceId).filter (·.phase == .prepared)).orError migrationInvalid
  let tokens ← row.tokens.orError storageError
  let db ← db.insertReference { sourceId := item.sourceId, tokens }
  let (_, db) ← db.updateAttempts (·.sourceId == item.sourceId)
    fun row => { row with phase := .referenced }
  return db

/-- The inline body goes together with the change of the state. -/
def retireInline (item : BodyMigrationItem) : Except SqliteError VaultDatabase := do
  let (changed, db) ← db.updateAttempts
    (fun row => row.sourceId == item.sourceId && row.phase == .referenced)
    fun row => { row with phase := .retired }
  require (changed = 1) migrationInvalid
  let selected := fun row : BodyRow => row.sourceId == item.sourceId
  require (db.library.bodies.countP selected = 1) migrationInvalid
  return { db with library :=
    { db.library with bodies := deleteWhere selected db.library.bodies } }

def finishMigration (namespaceId : Identifier) : Except SqliteError VaultDatabase := do
  db.verifyMigrationStructure namespaceId
  let items ← db.migrationItems
  require (∀ item ∈ items, item.state = .retired) migrationInvalid
  return { db with migration := db.migration.map fun _ => .objectsReady }

end VaultDatabase

end RadishMemory
