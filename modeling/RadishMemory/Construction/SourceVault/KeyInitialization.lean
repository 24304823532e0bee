import RadishMemory.Construction.SourceVault.KeyProvider
import RadishMemory.Construction.Sqlite.Schema
import RadishMemory.Framework.Processes

/-!
# Key initialization

A process initializes the key of a library while it holds SQLite's writer lock: it checks that the
library is eligible, lets the provider load or create the key, checks that the object directories
are still empty and commits the key profile.  The lock, the directories and the key store are
separate systems, so every step is an access of its own.

What a step reads of the file system and of the tables that no initialization changes is a verdict
of the surroundings, which may change between two steps.
-/

namespace RadishMemory

/-! ## The library -/

def keyInitializationSchemaVersion : Nat := 7

structure KeyProfileRow where
  singleton : Nat
  namespaceId : String
  deviceId : String
  providerProfile : String
  state : String
deriving DecidableEq, Repr

/-- The committed part of the database that key initialization depends on.  Migration 7 creates
the table of the key profile. -/
structure KeyDatabase where
  userVersion : Nat
  keyProfile : List KeyProfileRow
  created : userVersion < keyInitializationSchemaVersion → keyProfile = []

/-- What the steps of an initialization find outside of the modelled state. -/
structure KeyVerdicts where
  /-- The database file is the one that was opened, in the verified directory. -/
  path : Except SourceVaultError Unit
  /-- The writer lock can be taken. -/
  begins : Except SqliteError Unit
  /-- Migration history, schema definition and the facts of the plaintext library. -/
  facts : Except SqliteError Unit
  /-- The directories can be read. -/
  directory : Except SourceVaultError Unit
  /-- The transaction can be committed. -/
  commits : Except SqliteError Unit

/-- A library: the database and its writer lock, the names in the object directories, and the
library's slot of the key store. -/
structure KeyLibrary (ι : Type) where
  database : KeyDatabase
  writer : Option ι
  objects : List String
  staging : List String
  slot : SlotState
  verdicts : KeyVerdicts

inductive VaultMaintenanceError where
  | database (code : SqliteErrorCode) (reason : Option SqliteStorageReason)
  | vault (error : SourceVaultError)
  /-- The process has stopped before it returned. -/
  | crashed
deriving DecidableEq, Repr

def VaultMaintenanceError.ofSqlite (error : SqliteError) : VaultMaintenanceError :=
  .database error.code error.storageReason

def profileMismatch : SqliteError :=
  .invalidStored .keyProfileMismatch

def unsupportedSchemaVersion : SqliteError :=
  { code := .unsupportedSchemaVersion, storageReason := none }

/-! ## Steps -/

variable {ι : Type}

/-- A step of an initialization. -/
abbrev KeyStep (ι α : Type) :=
  Program (Actor ι) (KeyLibrary ι) VaultMaintenanceError α

/-- A query of the database. -/
def queryDatabase {α : Type} (i : ι) (query : KeyLibrary ι → Except SqliteError α) :
    KeyStep ι α :=
  .read (.process i) fun s => (query s).mapError .ofSqlite

/-- An observation of the file system. -/
def observe {α : Type} (i : ι) (query : KeyLibrary ι → Except SourceVaultError α) : KeyStep ι α :=
  .read (.process i) fun s => (query s).mapError .vault

def verifyPath (i : ι) : KeyStep ι Unit :=
  observe i (·.verdicts.path)

/-- The library's slot, as a process uses it. -/
def libraryStore (i : ι) : KeyStore (Actor ι) (KeyLibrary ι) :=
  slotStore (fun _ => .process i) KeyLibrary.slot fun s slot => { s with slot := slot }

/-- `preflight_to` for the version of key initialization. -/
def preflight (s : KeyLibrary ι) : Except SqliteError Nat := do
  require (s.database.userVersion ≤ keyInitializationSchemaVersion) unsupportedSchemaVersion
  s.verdicts.facts
  return s.database.userVersion

variable [DecidableEq ι]

/-- `BEGIN IMMEDIATE`: one process at a time. -/
def beginImmediate (i : ι) : KeyStep ι Unit :=
  .transact (.process i) fun s => do
    s.verdicts.begins.mapError .ofSqlite
    require (s.writer = none) (.database .storage none)
    return ((), { s with writer := some i })

/-- Drops the transaction of the process, if it has one. -/
def rollback (i : ι) (s : KeyLibrary ι) : KeyLibrary ι :=
  if s.writer = some i then { s with writer := none } else s

/-- Runs the rest of a transaction and rolls it back on an error. -/
def inTransaction {α : Type} (i : ι) (body : KeyStep ι α) : KeyStep ι α := do
  match ← body.attempt with
  | .ok a => return a
  | .error error => .access (.process i) (rollback i) fun _ => .done (.error error)

omit [DecidableEq ι] in
/-- The eligibility check of `begin_key_initialization`: whether the key is already initialized. -/
def checkEligibility (i : ι) (namespaceId deviceId profile : String) : KeyStep ι Bool :=
  queryDatabase i fun s => do
    let found ← preflight s
    require (found = 0 ∨ found = 6 ∨ found = 7) unsupportedSchemaVersion
    s.verdicts.facts
    if found = keyInitializationSchemaVersion then
      require (s.database.keyProfile =
        [{ singleton := 1, namespaceId := namespaceId, deviceId := deviceId,
           providerProfile := profile, state := "key_ready" }]) profileMismatch
      return true
    else return false

omit [DecidableEq ι] in
def isEmptyForKeyInitialization (i : ι) : KeyStep ι Bool := do
  let objects ← observe i fun s => s.verdicts.directory.map fun _ => s.objects.isEmpty
  if objects then observe i fun s => s.verdicts.directory.map fun _ => s.staging.isEmpty
  else return false

omit [DecidableEq ι] in
/-- The second look at the directories, after the key operation. -/
def stillEmpty (i : ι) (empty : Bool) : KeyStep ι Bool :=
  if empty then isEmptyForKeyInitialization i else pure false

/-- The database after the checkpoint. -/
def KeyDatabase.withProfile (database : KeyDatabase) (row : KeyProfileRow) : KeyDatabase where
  userVersion := keyInitializationSchemaVersion
  keyProfile := database.keyProfile ++ [row]
  created h := absurd h (Nat.lt_irrefl _)

omit [DecidableEq ι] in
/-- `KeyInitializationTransaction::commit` -/
def commitKeyInitialization (i : ι) (initialized : Bool) (namespaceId deviceId profile : String) :
    KeyStep ι Unit :=
  .transact (.process i) fun s => do
    s.verdicts.commits.mapError .ofSqlite
    if initialized then return ((), { s with writer := none })
    else
      return ((), { s with
        database := s.database.withProfile
          { singleton := 1, namespaceId := namespaceId, deviceId := deviceId,
            providerProfile := profile, state := "key_ready" }
        writer := none })

/-- What a process does while it holds the writer lock. -/
def initializeInTransaction (i : ι) (namespaceId deviceId : String)
    (random : Except SourceVaultError KeyEncryptionKey) : KeyStep ι KeyEncryptionKey := do
  let initialized ← checkEligibility i namespaceId deviceId providerProfile
  verifyPath i
  let empty ← isEmptyForKeyInitialization i
  let key ← (loadOrBootstrap (libraryStore i) (initialized || !empty) random).mapError .vault
  let unchanged ← stillEmpty i empty
  .ofExcept (require unchanged
    (.vault { code := .attemptMismatch, reason := "object facts require migration reconciliation" }))
  verifyPath i
  commitKeyInitialization i initialized namespaceId deviceId providerProfile
  return key

def initializeInDatabase (i : ι) (namespaceId deviceId : String)
    (random : Except SourceVaultError KeyEncryptionKey) : KeyStep ι KeyEncryptionKey := do
  verifyPath i
  .ofExcept (require (namespaceId ≠ "" ∧ deviceId ≠ "" ∧ providerProfile ≠ "")
    (.ofSqlite profileMismatch))
  beginImmediate i
  let key ← inTransaction i (initializeInTransaction i namespaceId deviceId random)
  verifyPath i
  return key

/-- `initialize_library_key` -/
def initializeLibraryKey (i : ι) (namespaceId deviceId : String)
    (random : Except SourceVaultError KeyEncryptionKey) : KeyStep ι KeyEncryptionKey := do
  let _ ← .ofExcept ((KeySlot.new namespaceId deviceId).mapError .vault)
  verifyPath i
  let _ ← queryDatabase i preflight
  verifyPath i
  initializeInDatabase i namespaceId deviceId random

/-! ## Runs -/

/-- Many processes that initialize one library. -/
abbrev KeyProcesses (ι : Type) :=
  Processes ι (KeyLibrary ι) VaultMaintenanceError KeyEncryptionKey

/-- The surroundings change verdicts, the label of the key and the fault that the key store
meets next. -/
structure KeyLibrary.Surroundings (s s' : KeyLibrary ι) : Prop where
  database : s'.database = s.database
  writer : s'.writer = s.writer
  objects : s'.objects = s.objects
  staging : s'.staging = s.staging
  secret : s'.slot.secret = s.slot.secret
  written : s'.slot.written = s.slot.written

/-- Every process calls `initialize_library_key` once, for the library's verified profile; whoever
calls again is another process. -/
def KeyProcesses.initial (library : KeyLibrary ι) (namespaceId deviceId : String)
    (random : ι → Except SourceVaultError KeyEncryptionKey) : KeyProcesses ι where
  store :=
    { library with writer := none, slot := { library.slot with written := [] } }
  process i := initializeLibraryKey i namespaceId deviceId (random i)

/-- A process that stops loses its transaction. -/
abbrev KeyProcesses.Step : KeyProcesses ι → KeyProcesses ι → Prop :=
  Processes.Step rollback .crashed KeyLibrary.Surroundings

end RadishMemory
