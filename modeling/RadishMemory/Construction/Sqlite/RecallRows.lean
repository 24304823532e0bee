import RadishMemory.Construction.Sqlite.Schema

/-!
# Writes to the derived recall tables

The statements with which source and memory writes keep the full-text table and the current
projection in step.  `Construction.Sqlite.DerivedIndex` recomputes both from the canonical
tables and compares.
-/

namespace RadishMemory

variable [Platform]

def derivedMismatch : SqliteError :=
  .invalidStored .derivedDataMismatch

def RecallKey.source (fragment : SourceFragment) : RecallKey :=
  { objectKind := .sourceFragment, objectId := fragment.params.fragmentId }

def RecallKey.memory (record : MemoryRecord) : RecallKey :=
  { objectKind := .memoryRecord, objectId := record.params.memoryId }

/-- The full-text row of a fragment. -/
def RecallRow.ofFragment (fragment : SourceFragment) : RecallRow :=
  { key := RecallKey.source fragment
    namespaceId := fragment.params.namespaceId
    sensitivity := fragment.params.governance.sensitivity
    content := fragment.params.content.asStr }

/-- The full-text row of a memory record. -/
def RecallRow.ofRecord (record : MemoryRecord) : RecallRow :=
  { key := RecallKey.memory record
    namespaceId := record.params.namespaceId
    sensitivity := record.params.governance.sensitivity
    content := record.params.content.params.text.asStr }

def ProjectionRow.ofRecord (record : MemoryRecord) : ProjectionRow :=
  { memoryId := record.params.memoryId
    namespaceId := record.params.namespaceId
    currentState := record.params.currentState
    lastStateEventId := record.params.lastStateEventId }

namespace Database

def requireRecallRowAbsent (db : Database) (key : RecallKey) : Except SqliteError Unit :=
  require (∀ row ∈ db.recallFts, row.key ≠ key) derivedMismatch

def insertRecallRow (db : Database) (row : RecallRow) : Database :=
  { db with recallFts := db.recallFts ++ [row] }

/-- The source is the tip of its lineage, at its own version. -/
def isTip (db : Database) (source : SourceArtifact) : Bool :=
  db.tips.any fun tip =>
    tip.namespaceId == source.params.namespaceId && tip.lineageId == source.params.lineageId &&
    tip.sourceId == source.params.sourceId && tip.version == source.params.version.get

/-- Only an active fragment of an active tip enters the full-text table. -/
def insertSourceFragment (db : Database) (fragment : SourceFragment) (source : SourceArtifact) :
    Except SqliteError Database :=
  if fragment.params.governance.deletionState ≠ .active ∨
      source.params.governance.deletionState ≠ .active then .ok db
  else do
    require (source.params.version.get < 2 ^ 63) derivedMismatch
    if db.isTip source then do
      db.requireRecallRowAbsent (RecallKey.source fragment)
      return db.insertRecallRow (RecallRow.ofFragment fragment)
    else return db

/-- The fragment ids of one source. -/
def fragmentIdsOf (db : Database) (sourceId : Identifier) : List Identifier :=
  (db.fragments.filter (·.sourceId == sourceId)).map (·.fragmentId)

def removeSourceFragments (db : Database) (sourceId : Identifier) : Database :=
  { db with recallFts := deleteWhere (fun row =>
      row.key.objectKind == .sourceFragment &&
        (db.fragmentIdsOf sourceId).contains row.key.objectId) db.recallFts }

def insertMemoryRecord (db : Database) (record : MemoryRecord) : Except SqliteError Database := do
  let db ← db.insertProjection (ProjectionRow.ofRecord record)
  if record.params.currentState = .confirmed ∧
      record.params.governance.deletionState = .active then do
    db.requireRecallRowAbsent (RecallKey.memory record)
    return db.insertRecallRow (RecallRow.ofRecord record)
  else return db

/-- The row the projection update writes, for the rows it selects. -/
def projectionSelected (record : MemoryRecord) (row : ProjectionRow) : Bool :=
  row.memoryId == record.params.memoryId && row.namespaceId == record.params.namespaceId &&
    row.currentState == .confirmed

/-- Move a confirmed projection to the record's state and drop its full-text row; exactly one
row of each must be there. -/
def updateMemoryRecord (db : Database) (record : MemoryRecord) : Except SqliteError Database := do
  let updated := ProjectionRow.ofRecord record
  let others := db.projection.filter fun row => !projectionSelected record row
  require (db.projection.countP (projectionSelected record) = 0 ∨
      ∀ row ∈ others, row.lastStateEventId ≠ updated.lastStateEventId)
    (SqliteError.storage .unique)
  require (db.projection.countP (projectionSelected record) = 0 ∨
      db.projectionReferences updated = true)
    (SqliteError.storage .foreignKey)
  require (db.projection.countP (projectionSelected record) = 1) derivedMismatch
  let selected := fun row : RecallRow => row.key == RecallKey.memory record
  require (db.recallFts.countP selected = 1) derivedMismatch
  return { db with
    projection := updateWhere (projectionSelected record)
      (fun row => { row with
        currentState := updated.currentState
        lastStateEventId := updated.lastStateEventId }) db.projection
    recallFts := deleteWhere selected db.recallFts }

end Database

end RadishMemory
