import RadishMemory.Construction.Sqlite.DeletionStore
import RadishMemory.Construction.SourceVault.KeyInitialization

/-!
# The tables of the encrypted library

Migrations 8 to 12 add the tables that tie a source to its encrypted object: the attempts to
write objects, the references to committed objects, and the progress of deletions.  The tables of
the plaintext library stay as they are.

What the constraints of a table say of its rows alone is carried by the database, so that a
statement either keeps it or is refused.  Foreign keys are checked where a row is inserted.
-/

namespace RadishMemory

/-! ## Versions -/

def objectMigrationSchemaVersion : Nat := 8

def captureSchemaVersion : Nat := 9

def abandonmentSchemaVersion : Nat := 10

def objectDeletionSchemaVersion : Nat := 11

def legacyDeletionSchemaVersion : Nat := 12

/-! ## Rows -/

instance {α κ : Type} [DecidableEq κ] (key : α → κ) (rows : List α) :
    Decidable (UniqueBy key rows) :=
  inferInstanceAs (Decidable (rows.map key).Nodup)

/-- The states of an attempt.  The first four are those of a migrated body. -/
inductive AttemptPhase where
  | planned
  | prepared
  | referenced
  | retired
  | committed
  | abandoning
  | abandoned
deriving DecidableEq, Repr

namespace AttemptPhase

/-- The states a schema version knows. -/
def allowedAt (version : Nat) : AttemptPhase → Bool
  | planned | referenced => version < captureSchemaVersion
  | prepared | retired => true
  | committed => captureSchemaVersion ≤ version
  | abandoning | abandoned => abandonmentSchemaVersion ≤ version

/-- The rows of the index `one_pending_capture`. -/
def isPending (version : Nat) : AttemptPhase → Bool
  | prepared => captureSchemaVersion ≤ version
  | abandoning => abandonmentSchemaVersion ≤ version
  | _ => false

end AttemptPhase

/-- The names of an object and of the attempt to write it. -/
structure ObjectTokens where
  locator : Sha256Hex
  attempt : Sha256Hex
deriving DecidableEq

/-- What an attempt of kind `capture` has been prepared for. -/
structure AttemptRequest where
  requestDigest : Sha256Hex
  originBindingId : Identifier
deriving DecidableEq

structure ObjectAttemptRow where
  sourceId : Identifier
  namespaceId : Identifier
  digestValue : Sha256Hex
  contentLength : Nat
  mediaType : MediaType
  phase : AttemptPhase
  tokens : Option ObjectTokens
  request : Option AttemptRequest
deriving DecidableEq

namespace ObjectAttemptRow

def locator (row : ObjectAttemptRow) : Option Sha256Hex :=
  row.tokens.map ObjectTokens.locator

def attempt (row : ObjectAttemptRow) : Option Sha256Hex :=
  row.tokens.map ObjectTokens.attempt

/-- Before version 9 an attempt belongs to the migration and has tokens unless it is planned;
from then on it always has tokens, and a request unless it was migrated. -/
def check (version : Nat) (row : ObjectAttemptRow) : Bool :=
  decide (0 < row.contentLength) && row.phase.allowedAt version &&
  if version < captureSchemaVersion then
    (row.phase == .planned) == row.tokens.isNone && row.request.isNone
  else row.tokens.isSome && (row.phase == .retired) == row.request.isNone

end ObjectAttemptRow

/-- The constraints on the attempts alone. -/
structure AttemptsValid (version : Nat) (rows : List ObjectAttemptRow) : Prop where
  checked : ∀ row ∈ rows, row.check version = true
  sources : UniqueBy ObjectAttemptRow.sourceId rows
  locators : (rows.filterMap ObjectAttemptRow.locator).Nodup
  attempts : (rows.filterMap ObjectAttemptRow.attempt).Nodup
  onePending : rows.countP (fun row => row.phase.isPending version) ≤ 1

theorem attemptsValid_iff {version : Nat} {rows : List ObjectAttemptRow} :
    AttemptsValid version rows ↔
      (∀ row ∈ rows, row.check version = true) ∧
        (rows.map ObjectAttemptRow.sourceId).Nodup ∧
        (rows.filterMap ObjectAttemptRow.locator).Nodup ∧
        (rows.filterMap ObjectAttemptRow.attempt).Nodup ∧
        rows.countP (fun row => row.phase.isPending version) ≤ 1 :=
  ⟨fun h => ⟨h.checked, h.sources, h.locators, h.attempts, h.onePending⟩,
    fun ⟨hchecked, hsources, hlocators, hattempts, hpending⟩ =>
      ⟨hchecked, hsources, hlocators, hattempts, hpending⟩⟩

instance (version : Nat) (rows : List ObjectAttemptRow) : Decidable (AttemptsValid version rows) :=
  decidable_of_iff' _ attemptsValid_iff

structure ReferenceRow where
  sourceId : Identifier
  tokens : ObjectTokens
deriving DecidableEq

inductive ObjectDeletionState where
  | deleting
  | deleted
deriving DecidableEq, Repr

structure ObjectDeletionRow where
  sourceId : Identifier
  deleteRequestId : Identifier
  state : ObjectDeletionState
deriving DecidableEq

structure DeletePlanRow where
  deleteRequestId : Identifier
  planDigest : Sha256Hex
deriving DecidableEq

/-- The result of an execution in the plaintext library that has removed a body. -/
structure LegacyRetirementRow where
  sourceId : Identifier
  deleteRequestId : Identifier
  attemptOrdinal : Nat
deriving DecidableEq

inductive BodyMigrationPhase where
  | migrating
  | objectsReady
deriving DecidableEq, Repr

/-! ## The database -/

structure VaultDatabase where
  library : Database
  version : Nat
  keyProfile : List KeyProfileRow
  migration : Option BodyMigrationPhase
  objectAttempts : List ObjectAttemptRow
  references : List ReferenceRow
  deletePlans : List DeletePlanRow
  deletions : List ObjectDeletionRow
  legacyRetirements : List LegacyRetirementRow
  attemptsValid : AttemptsValid version objectAttempts
  referenceKeys : UniqueBy ReferenceRow.sourceId references
  planKeys : UniqueBy DeletePlanRow.deleteRequestId deletePlans
  deletionKeys : UniqueBy ObjectDeletionRow.sourceId deletions
  legacyKeys : UniqueBy LegacyRetirementRow.sourceId legacyRetirements

namespace VaultDatabase

variable (db : VaultDatabase)

def hasSource (sourceId : Identifier) : Bool :=
  db.library.hasSource sourceId

def attemptOf (sourceId : Identifier) : Option ObjectAttemptRow :=
  lookup ObjectAttemptRow.sourceId db.objectAttempts sourceId

def referenceOf (sourceId : Identifier) : Option ReferenceRow :=
  lookup ReferenceRow.sourceId db.references sourceId

def deletionOf (sourceId : Identifier) : Option ObjectDeletionRow :=
  lookup ObjectDeletionRow.sourceId db.deletions sourceId

/-! ## Statements -/

/-- A statement that leaves these attempts: a row that fails its checks is reported before a key
that is taken. -/
def withAttempts (rows : List ObjectAttemptRow) : Except SqliteError VaultDatabase :=
  if h : AttemptsValid db.version rows then
    .ok { db with objectAttempts := rows, attemptsValid := h }
  else if ∀ row ∈ rows, row.check db.version = true then
    .error (SqliteError.storage .unique)
  else .error (SqliteError.storage .check)

def insertObjectAttempt (row : ObjectAttemptRow) : Except SqliteError VaultDatabase :=
  db.withAttempts (db.objectAttempts ++ [row])

/-- `UPDATE … WHERE`, with the number of rows. -/
def updateAttempts (selected : ObjectAttemptRow → Bool)
    (update : ObjectAttemptRow → ObjectAttemptRow) : Except SqliteError (Nat × VaultDatabase) := do
  let updated ← db.withAttempts (updateWhere selected update db.objectAttempts)
  return (db.objectAttempts.countP selected, updated)

/-- The source exists, and the attempt has these tokens. -/
def insertReference (row : ReferenceRow) : Except SqliteError VaultDatabase :=
  if h : UniqueBy ReferenceRow.sourceId (db.references ++ [row]) then
    if db.hasSource row.sourceId = true ∧ (db.attemptOf row.sourceId).bind
        ObjectAttemptRow.tokens = some row.tokens then
      .ok { db with references := db.references ++ [row], referenceKeys := h }
    else .error (SqliteError.storage .foreignKey)
  else .error (SqliteError.storage .unique)

/-- `DELETE … WHERE source_id = ?1`, with the number of rows. -/
def deleteReference (sourceId : Identifier) : Nat × VaultDatabase :=
  (db.references.countP fun row => row.sourceId == sourceId,
    { db with
      references := deleteWhere (fun row => row.sourceId == sourceId) db.references
      referenceKeys := db.referenceKeys.deleteWhere })

def insertDeletePlan (row : DeletePlanRow) : Except SqliteError VaultDatabase :=
  if h : UniqueBy DeletePlanRow.deleteRequestId (db.deletePlans ++ [row]) then
    if db.library.hasRequest row.deleteRequestId = true then
      .ok { db with deletePlans := db.deletePlans ++ [row], planKeys := h }
    else .error (SqliteError.storage .foreignKey)
  else .error (SqliteError.storage .unique)

def hasDeletePlan (deleteRequestId : Identifier) : Bool :=
  db.deletePlans.any (·.deleteRequestId == deleteRequestId)

def insertObjectDeletion (row : ObjectDeletionRow) : Except SqliteError VaultDatabase :=
  if h : UniqueBy ObjectDeletionRow.sourceId (db.deletions ++ [row]) then
    if (db.attemptOf row.sourceId).isSome = true ∧ db.hasDeletePlan row.deleteRequestId = true then
      .ok { db with deletions := db.deletions ++ [row], deletionKeys := h }
    else .error (SqliteError.storage .foreignKey)
  else .error (SqliteError.storage .unique)

/-- `UPDATE … SET state = 'deleted'`, with the number of rows. -/
def markDeleted (sourceId deleteRequestId : Identifier) : Nat × VaultDatabase :=
  let selected := fun row : ObjectDeletionRow =>
    row.sourceId == sourceId && row.deleteRequestId == deleteRequestId
  (db.deletions.countP selected,
    { db with
      deletions := updateWhere selected (fun row => { row with state := .deleted }) db.deletions
      deletionKeys := db.deletionKeys.updateWhere fun _ => rfl })

def insertLegacyRetirement (row : LegacyRetirementRow) : Except SqliteError VaultDatabase :=
  if h : UniqueBy LegacyRetirementRow.sourceId (db.legacyRetirements ++ [row]) then
    if db.hasSource row.sourceId = true ∧ db.hasDeletePlan row.deleteRequestId = true ∧
        (db.library.attempts.any fun attempt => attempt.deleteRequestId == row.deleteRequestId &&
          attempt.attemptOrdinal == row.attemptOrdinal) = true then
      .ok { db with legacyRetirements := db.legacyRetirements ++ [row], legacyKeys := h }
    else .error (SqliteError.storage .foreignKey)
  else .error (SqliteError.storage .unique)

/-! ## Migrations -/

/-- Migrations 9 and 10 copy the attempts into a table with the constraints of their version; the
others add tables.  A copy that is refused is reported as a refused statement. -/
def migrateTo (version : Nat) : Except SqliteError VaultDatabase :=
  if h : AttemptsValid version db.objectAttempts then
    .ok { db with version, attemptsValid := h }
  else .error (SqliteError.storage .check)

/-- `apply_pending`: the migrations after the version of the database, up to `target`. -/
def applyPending (target : Nat) : Except SqliteError VaultDatabase :=
  (((List.range' objectMigrationSchemaVersion 5).filter fun version =>
    decide (db.version < version ∧ version ≤ target)).foldlM migrateTo) db

end VaultDatabase

end RadishMemory
