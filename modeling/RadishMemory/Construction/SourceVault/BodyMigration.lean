import RadishMemory.Construction.SourceVault.Vault
import RadishMemory.Construction.Sqlite.BodyMigration

/-!
# The migration of inline bodies

The coordinator takes one item of the inventory after the other from its state to the last one.
An inline body is removed only after its object has been read back through the stored reference.
-/

namespace RadishMemory

open VaultIo

/-- `invalid()` of the migration coordinator. -/
def MaintenanceError.migrationMismatch : MaintenanceError :=
  .vault invalidObjectReference

def BodyMigrationItem.metadata (item : BodyMigrationItem) : Except MaintenanceError ObjectMetadata :=
  objectMetadata item.namespaceId item.sourceId item.digestValue item.contentLength item.mediaType

/-- `tokens(item)` -/
def BodyMigrationItem.requireTokens (item : BodyMigrationItem) :
    Except MaintenanceError ObjectTokens :=
  item.tokens.orError .migrationMismatch

variable [Platform] [ObjectCipher]

/-- The files are those of the items. -/
def verifyItems (items : List BodyMigrationItem) : VaultIo Unit := do
  let tokens ← check ((items.filter (·.state != .planned)).mapM BodyMigrationItem.requireTokens)
  objects (verifyInventory (tokens.map fun tokens => (tokens.objectLocator, tokens.attemptId)))

/-- `read_reference` -/
def readReference (key : KeyEncryptionKey) (item : BodyMigrationItem) : VaultIo Unit := do
  let metadata ← check item.metadata
  let tokens ← ask fun db => db.reference item.sourceId
  let state ← objects (inspectAttempt tokens.objectLocator tokens.attemptId metadata key)
  check (require (state.isPublished = true) .migrationMismatch)
  let body ← objects (readObject tokens.objectLocator metadata key)
  ask fun db => db.verifyBody item body

/-- The inline body and the attempt of an item, before anything is changed. -/
def validateItem (key : KeyEncryptionKey) (item : BodyMigrationItem) : VaultIo Unit := do
  let metadata ← check item.metadata
  let _ ← ask fun db => db.inlineBody item
  if item.state ≠ .planned then do
    let tokens ← check item.requireTokens
    let state ← objects (inspectAttempt tokens.objectLocator tokens.attemptId metadata key)
    if item.state = .referenced ∨ item.state = .retired then do
      check (require (state.isPublished = true) .migrationMismatch)
      readReference key item

/-- Nothing exists of the attempt of an item. -/
def attemptAbsent (key : KeyEncryptionKey) (metadata : ObjectMetadata) (item : BodyMigrationItem) :
    VaultIo Bool := do
  if item.state = .planned then return true
  else do
    let tokens ← check item.requireTokens
    let state ← objects (inspectAttempt tokens.objectLocator tokens.attemptId metadata key)
    return state == .absent

/-- Publish the body of an item, or recover what is left of its attempt; and its tokens. -/
def publishItem (key : KeyEncryptionKey) (metadata : ObjectMetadata) (random : RandomSource Nat)
    (s : Nat) (item : BodyMigrationItem) : VaultIo (ObjectTokens × Nat) := do
  if ← attemptAbsent key metadata item then do
    let body ← ask fun db => db.inlineBody item
    let body ← check (body.orError .migrationMismatch)
    publishBody key metadata body random s fun tokens db => db.prepareBody item tokens
  else do
    let tokens ← check item.requireTokens
    objects (recoverAttempt tokens.objectLocator tokens.attemptId metadata key)
    return (tokens, s)

/-- The tokens of an item whose reference is stored. -/
def referenceItem (key : KeyEncryptionKey) (metadata : ObjectMetadata) (random : RandomSource Nat)
    (s : Nat) (item : BodyMigrationItem) : VaultIo (ObjectTokens × Nat) := do
  if item.state = .planned ∨ item.state = .prepared then do
    let (tokens, s) ← publishItem key metadata random s item
    update fun db => db.commitReference item
    return (tokens, s)
  else do
    let tokens ← check item.requireTokens
    return (tokens, s)

/-- One item, and what is left of the random bytes. -/
def migrateItem (key : KeyEncryptionKey) (random : RandomSource Nat) (s : Nat)
    (item : BodyMigrationItem) : VaultIo Nat := do
  let metadata ← check item.metadata
  if item.state = .retired then return s
  else do
    let (tokens, s) ← referenceItem key metadata random s item
    objects (recoverAttempt tokens.objectLocator tokens.attemptId metadata key)
    readReference key item
    readReference key item
    update fun db => db.retireInline item
    return s

/-- The inventory is made once, when there is no file yet. -/
def prepareInventory (namespaceId : Identifier) : VaultIo Unit := do
  let prepared ← ask fun db => .ok db.hasInventory
  if !prepared then do
    objects (verifyInventory [])
    update fun db => db.initializeInventory namespaceId
    ask fun db => db.verifyMigrationStructure namespaceId

/-- The number of the objects. -/
def migrate (namespaceId deviceId : Identifier)
    (loadExisting : Except SourceVaultError KeyEncryptionKey) (random : RandomSource Nat) :
    VaultIo Nat := do
  ask fun db => db.openMigration namespaceId deviceId
  let key ← loadKey loadExisting
  prepareInventory namespaceId
  let items ← ask VaultDatabase.migrationItems
  verifyItems items
  items.forM (validateItem key)
  let _ ← items.foldlM (migrateItem key random) 0
  let items ← ask VaultDatabase.migrationItems
  verifyItems items
  items.forM (readReference key)
  update fun db => db.finishMigration namespaceId
  return items.length

end RadishMemory
