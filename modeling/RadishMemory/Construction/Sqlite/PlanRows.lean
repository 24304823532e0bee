import RadishMemory.Construction.Sqlite.PlanDigest
import RadishMemory.Construction.Sqlite.DeletionPlan

/-!
# The stored rows of a deletion plan

The encrypted library fingerprints a deletion plan as SQLite holds it.  These are the values of
the five tables of a plan, column by column, with the columns that are constants of their table.
A database that holds a text SQLite could not store, or more rows than SQLite can number, has no
fingerprint.
-/

namespace RadishMemory

/-! ## Stored words -/

def actorTypeStr : ActorType → String
  | .user => "user"
  | .device => "device"
  | .rule => "rule"
  | .parser => "parser"
  | .testFixture => "test_fixture"
  | .system => "system"

def requestedGuaranteeStr : RequestedGuarantee → String
  | .stopRecall => "stop_recall"
  | .localPurge => "local_purge"

def componentTypeStr : DeletionComponentType → String
  | .sourceBody => "source_body"
  | .sourceMetadata => "source_metadata"
  | .sourceFragment => "source_fragment"
  | .memoryProposal => "memory_proposal"
  | .memoryDecision => "memory_decision"
  | .memoryRecord => "memory_record"
  | .memoryStateEvent => "memory_state_event"
  | .fullTextIndex => "full_text_index"
  | .contextCache => "context_cache"
  | .minimalAudit => "minimal_audit"

def requiredActionStr : RequiredAction → String
  | .delete => "delete"
  | .redact => "redact"
  | .retainMinimal => "retain_minimal"

def targetRefKindStr : TargetRefKind → String
  | .object => "object"
  | .frozenClosure => "frozen_closure"

/-! ## Cells -/

def textCell (value : String) : Option SqlValue :=
  if h : (utf8Bytes value).length < 2 ^ 31 then some (.text ⟨utf8Bytes value, h⟩) else none

def optionalTextCell : Option String → Option SqlValue
  | none => some .null
  | some value => textCell value

def numberCell (n : Nat) : Option SqlValue :=
  some (.integer (Int64.ofNat n))

def PlanRow.ofCells (table : PlanTable) (cells : List (Option SqlValue)) :
    Option (PlanRow table) := do
  let values ← cells.mapM id
  if h : values.length = table.columns then some ⟨values, h⟩ else none

def RequestRow.cells (row : RequestRow) : List (Option SqlValue) :=
  [textCell row.deleteRequestId.asStr, textCell "radishmemory.m0/1", textCell "DeleteRequest",
    textCell row.namespaceId.asStr, textCell (actorTypeStr row.requestedBy.actorType),
    textCell row.requestedBy.actorId.asStr,
    optionalTextCell (row.requestedBy.actorVersion.map NonEmptyText.asStr),
    textCell row.authorizationBasis.asStr, textCell (requestedGuaranteeStr row.requestedGuarantee),
    textCell "local_device", textCell row.deviceId.asStr, textCell row.reasonCode.asStr,
    textCell row.requestedAt.original]

def requestTargetCells (row : Child Identifier ObjectRef) : List (Option SqlValue) :=
  [textCell row.owner.asStr, numberCell row.ordinal, textCell row.value.objectType.asStr,
    textCell row.value.objectId.asStr]

def ComponentRow.cells (row : ComponentRow) : List (Option SqlValue) :=
  [textCell row.deleteRequestId.asStr, numberCell row.ordinal, textCell row.componentKey.asStr,
    textCell (componentTypeStr row.componentType), textCell (targetRefKindStr row.targetRefKind),
    numberCell row.targetCount, textCell (requiredActionStr row.requiredAction),
    optionalTextCell (row.targetDigest.map fun _ => "sha256"),
    optionalTextCell (row.targetDigest.map fun _ => "canonical-json-v1"),
    optionalTextCell (row.targetDigest.map fun digest => digest.value.text)]

def componentTargetCells (row : Child (Identifier × Identifier) ObjectRef) :
    List (Option SqlValue) :=
  [textCell row.owner.1.asStr, textCell row.owner.2.asStr, numberCell row.ordinal,
    textCell row.value.objectType.asStr, textCell row.value.objectId.asStr]

def executionClosureCells (row : Child (Identifier × DeletionComponentType) ObjectRef) :
    List (Option SqlValue) :=
  [textCell row.owner.1.asStr, textCell (componentTypeStr row.owner.2), numberCell row.ordinal,
    textCell row.value.objectType.asStr, textCell row.value.objectId.asStr]

namespace DeletionTables

def planCells (tables : DeletionTables) : PlanTable → List (List (Option SqlValue))
  | .deleteRequests => tables.requests.map RequestRow.cells
  | .deleteRequestTargets => tables.requestTargets.map requestTargetCells
  | .deleteRequestComponents => tables.requestComponents.map ComponentRow.cells
  | .deleteComponentTargets => tables.componentTargets.map componentTargetCells
  | .deleteExecutionClosure => tables.executionClosure.map executionClosureCells

def planRows (tables : DeletionTables) (table : PlanTable) : Option (List (PlanRow table)) :=
  (tables.planCells table).mapM (PlanRow.ofCells table)

/-- The five tables of deletion plans. -/
def planTables (tables : DeletionTables) : Option PlanTables := do
  let requests ← tables.planRows .deleteRequests
  let targets ← tables.planRows .deleteRequestTargets
  let components ← tables.planRows .deleteRequestComponents
  let componentTargets ← tables.planRows .deleteComponentTargets
  let closure ← tables.planRows .deleteExecutionClosure
  let rows : (table : PlanTable) → List (PlanRow table)
    | .deleteRequests => requests
    | .deleteRequestTargets => targets
    | .deleteRequestComponents => components
    | .deleteComponentTargets => componentTargets
    | .deleteExecutionClosure => closure
  if h : ∀ table ∈ PlanTable.all, (rows table).length < 2 ^ 63 then
    some { rows, rowsFit := fun table => h table (by cases table <;> decide) }
  else none

end DeletionTables

/-- `plan_digest` -/
def planDigestOf [Platform] (db : Database) (deleteRequestId : Identifier) :
    Except SqliteError Sha256Hex := do
  let tables ← db.toDeletionTables.planTables.orError storageError
  return planDigest tables deleteRequestId.asStr

end RadishMemory
