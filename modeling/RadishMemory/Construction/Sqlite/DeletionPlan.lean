import RadishMemory.Construction.Sqlite.SourceCatalog

/-!
# Delete requests

Storing a delete request validates its plan against the fixed profile and its targets against
the library, freezes the execution closure (every row a later execution will touch, by id), and
closes the targets to recall: states move from `active` to `pending`, tips, full-text rows and
projection rows go away.  The transaction ends with a verification of the whole library.

Ids are sets in the program and are kept sorted; a loop that runs one statement per id is one
statement over the set of ids here.  Positions and counts are lengths of in-memory vectors and
always fit the stored integers.
-/

namespace RadishMemory

def deletionPlan : SqliteError :=
  .deletionInvariant .deletionPlan

/-- How a canonical deletion object that does not validate is reported. -/
def deletionCore (_ : CoreError) : SqliteError :=
  deletionPlan

def storedDeletion : SqliteError :=
  .invalidStored .storedIntegrityMismatch

/-- A failed statement, or a query that found no row where one was required. -/
def storageError : SqliteError :=
  { code := .storage, storageReason := none }

/-- The components of a plan, in plan order. -/
def profile : List (String × DeletionComponentType × RequiredAction) :=
  [("source-body", .sourceBody, .delete),
    ("source-metadata", .sourceMetadata, .retainMinimal),
    ("source-fragment", .sourceFragment, .delete),
    ("memory-proposal", .memoryProposal, .redact),
    ("memory-decision", .memoryDecision, .retainMinimal),
    ("memory-record", .memoryRecord, .redact),
    ("memory-state-event", .memoryStateEvent, .retainMinimal),
    ("full-text-index", .fullTextIndex, .delete),
    ("context-cache", .contextCache, .delete),
    ("minimal-audit", .minimalAudit, .retainMinimal)]

/-- The order in which an attempt runs the components. -/
def executionOrder : List DeletionComponentType :=
  [.memoryProposal, .memoryRecord, .sourceFragment, .sourceBody, .sourceMetadata,
    .memoryDecision, .memoryStateEvent, .fullTextIndex, .contextCache, .minimalAudit]

/-- The ids of the references of one type. -/
def idsOfType (objectType : CanonicalObjectType) (refs : List ObjectRef) : List Identifier :=
  (refs.filter (·.objectType == objectType)).map ObjectRef.objectId

variable [Platform]

def DeleteRequestParams.sourceTargets (params : DeleteRequestParams) : List Identifier :=
  idsOfType .sourceArtifact params.targetRefs

def DeleteRequestParams.memoryTargets (params : DeleteRequestParams) : List Identifier :=
  idsOfType .memoryRecord params.targetRefs

/-! ## Resolving the targets of a lineage -/

section Resolve

omit [Platform]

/-- The fragment belongs to an active source of the lineage and is active. -/
def isLineageFragment (db : Database) (namespaceId lineageId fragmentId : Identifier) : Bool :=
  db.fragments.any fun fragment =>
    fragment.fragmentId == fragmentId && fragment.governance.deletionState == .active &&
    db.sources.any fun source =>
      source.sourceId == fragment.sourceId && source.lineageId == lineageId &&
      source.namespaceId == namespaceId && source.governance.deletionState == .active

/-- The active records that cite the lineage. -/
def directMemoryIds (db : Database) (namespaceId lineageId : Identifier) : List Identifier :=
  (db.records.filter fun record =>
    record.governance.deletionState == .active &&
    db.recordFragments.any fun link =>
      link.owner == record.memoryId &&
        isLineageFragment db namespaceId lineageId link.value).map RecordRow.memoryId

/-- The active records that supersede a record. -/
def dependentsOf (db : Database) (namespaceId memoryId : Identifier) : List Identifier :=
  (db.records.filter fun record =>
    record.namespaceId == namespaceId && record.governance.deletionState == .active &&
    db.recordSupersedes.any fun relation =>
      relation.owner == record.memoryId && relation.value == memoryId).map RecordRow.memoryId

/-- Breadth-first closure under `dependentsOf`.  Every record enters the queue at most once, so
the number of records bounds the search. -/
def closeOverDependents (db : Database) (namespaceId : Identifier) :
    Nat → List Identifier → List Identifier → List Identifier
  | 0, _, memoryIds => memoryIds
  | _ + 1, [], memoryIds => memoryIds
  | bound + 1, memoryId :: pending, memoryIds =>
    let new := (dependentsOf db namespaceId memoryId).dedup.filter (· ∉ memoryIds)
    closeOverDependents db namespaceId bound (pending ++ new) (memoryIds ++ new)

def resolveLineageTargets (db : Database) (namespaceId lineageId : Identifier)
    (versions : List SourceVersionSummary) : List ObjectRef :=
  if versions.isEmpty then []
  else
    let direct := (directMemoryIds db namespaceId lineageId).dedup
    let memoryIds := closeOverDependents db namespaceId (db.records.length + 1) direct direct
    sortRefs ((versions.map fun version => ⟨.sourceArtifact, version.sourceId⟩).dedup ++
      memoryIds.map fun memoryId => ⟨.memoryRecord, memoryId⟩)

end Resolve

def resolveSourceLineageDeletionTargets (db : Database) (namespaceId lineageId : Identifier) :
    Except SqliteError (List ObjectRef) := do
  let versions ← listSourceVersions db namespaceId lineageId
  return resolveLineageTargets db namespaceId lineageId versions

/-! ## Validation -/

/-- One planned component against its profile entry. -/
def componentMatches (targetRef : DeletionTargetRef) (targetCount : Nat)
    (actual : DeletionTarget) (expected : String × DeletionComponentType × RequiredAction) :
    Bool :=
  actual.params.componentKey.asStr == expected.1 &&
  actual.params.componentType == expected.2.1 &&
  actual.params.requiredAction == expected.2.2 &&
  actual.params.targetCount == targetCount &&
  actual.params.targetRef == targetRef

def validateRequestProfile (request : DeleteRequest) : Except SqliteError Unit := do
  let value := request.params
  require (value.requestedGuarantee = .localPurge ∧
      value.plannedComponents.length = profile.length ∧
      ∀ target ∈ value.targetRefs,
        target.objectType = .sourceArtifact ∨ target.objectType = .memoryRecord) deletionPlan
  let expected ← (targetRefOf (sortRefs value.targetRefs)).mapError deletionCore
  require ((value.plannedComponents.zip profile).all fun (actual, entry) =>
      componentMatches expected value.targetRefs.length actual entry) deletionPlan

section Semantic

omit [Platform]

def targetExists (db : Database) (namespaceId : Identifier) (target : ObjectRef) : Bool :=
  match target.objectType with
  | .sourceArtifact => db.sources.any fun row =>
      row.sourceId == target.objectId && row.namespaceId == namespaceId &&
        row.governance.deletionState == .active
  | .memoryRecord => db.records.any fun row =>
      row.memoryId == target.objectId && row.namespaceId == namespaceId &&
        row.governance.deletionState == .active
  | _ => false

/-- The record links a fragment of the source. -/
def citesSource (db : Database) (sourceId memoryId : Identifier) : Bool :=
  db.recordFragments.any fun link =>
    link.owner == memoryId && db.fragments.any fun fragment =>
      fragment.fragmentId == link.value && fragment.sourceId == sourceId

/-- A source target brings its whole lineage and every active record that cites it. -/
def validateSourceTarget (db : Database) (namespaceId : Identifier)
    (sourceTargets memoryTargets : List Identifier) (sourceId : Identifier) :
    Except SqliteError Unit := do
  let source ← (activeSourceRow db namespaceId sourceId).orError storageError
  require (∀ row ∈ activeVersions db namespaceId source.lineageId,
      row.sourceId ∈ sourceTargets) deletionPlan
  require (∀ row ∈ db.records, row.namespaceId = namespaceId →
      row.governance.deletionState = .active → citesSource db sourceId row.memoryId = true →
        row.memoryId ∈ memoryTargets) deletionPlan

/-- A record target brings every active record that supersedes it. -/
def validateMemoryTarget (db : Database) (namespaceId : Identifier)
    (memoryTargets : List Identifier) (memoryId : Identifier) : Except SqliteError Unit :=
  require (∀ dependent ∈ dependentsOf db namespaceId memoryId, dependent ∈ memoryTargets)
    deletionPlan

end Semantic

def validateSemanticTargets (db : Database) (request : DeleteRequest) :
    Except SqliteError Unit := do
  let value := request.params
  require (∀ target ∈ value.targetRefs, targetExists db value.namespaceId target = true)
    (.deletionInvariant .missingDeleteTarget)
  checkAll (validateSourceTarget db value.namespaceId value.sourceTargets value.memoryTargets)
    value.sourceTargets
  checkAll (validateMemoryTarget db value.namespaceId value.memoryTargets) value.memoryTargets

/-! ## The execution closure -/

/-- The ids an execution will touch, by kind. -/
structure ExecutionClosure where
  deleteRequestId : Identifier
  sourceIds : List Identifier
  fragmentIds : List Identifier
  proposalIds : List Identifier
  decisionIds : List Identifier
  memoryIds : List Identifier
  eventIds : List Identifier

def refsOf (objectType : CanonicalObjectType) (ids : List Identifier) : List ObjectRef :=
  ids.map fun id => ⟨objectType, id⟩

/-- A set of references in ascending order. -/
def refSet (refs : List ObjectRef) : List ObjectRef :=
  sortRefs refs.dedup

/-- The closure of one component. -/
def ExecutionClosure.refs (closure : ExecutionClosure) : DeletionComponentType → List ObjectRef
  | .sourceBody => refSet (refsOf .sourceArtifact closure.sourceIds)
  | .sourceMetadata => refSet (refsOf .sourceArtifact closure.sourceIds)
  | .sourceFragment => refSet (refsOf .sourceFragment closure.fragmentIds)
  | .memoryProposal => refSet (refsOf .memoryProposal closure.proposalIds)
  | .memoryDecision => refSet (refsOf .memoryDecision closure.decisionIds)
  | .memoryRecord => refSet (refsOf .memoryRecord closure.memoryIds)
  | .memoryStateEvent => refSet (refsOf .memoryStateEvent closure.eventIds)
  | .fullTextIndex => refSet (refsOf .sourceFragment closure.fragmentIds ++
      refsOf .memoryRecord closure.memoryIds)
  | .contextCache => []
  | .minimalAudit => refSet (refsOf .sourceArtifact closure.sourceIds ++
      refsOf .deleteRequest [closure.deleteRequestId])

section Closure

omit [Platform]

/-- The active fragments of a source in the namespace. -/
def activeFragmentIds (db : Database) (namespaceId sourceId : Identifier) : List Identifier :=
  (db.fragments.filter fun row =>
    row.sourceId == sourceId && row.namespaceId == namespaceId &&
      row.governance.deletionState == .active).map FragmentRow.fragmentId

/-- The active proposals that cite one of the fragments. -/
def citingProposals (db : Database) (namespaceId : Identifier) (fragmentIds : List Identifier) :
    List Identifier :=
  (db.proposals.filter fun row =>
    row.namespaceId == namespaceId && row.governance.deletionState == .active &&
    db.proposalFragments.any fun link =>
      link.owner == row.proposalId && fragmentIds.contains link.value).map
        ProposalRow.proposalId

/-- The proposal an active record was accepted from. -/
def originProposal (db : Database) (namespaceId memoryId : Identifier) :
    Except SqliteError Identifier := do
  let row ← (activeRecordRow db namespaceId memoryId).orError storageError
  return row.originProposalId

end Closure

def buildExecutionClosure (db : Database) (request : DeleteRequest) :
    Except SqliteError ExecutionClosure := do
  let value := request.params
  let fragmentIds := value.sourceTargets.flatMap (activeFragmentIds db value.namespaceId)
  let origins ← value.memoryTargets.mapM (originProposal db value.namespaceId)
  let proposalIds := origins ++ citingProposals db value.namespaceId fragmentIds
  return {
    deleteRequestId := value.deleteRequestId
    sourceIds := value.sourceTargets
    fragmentIds
    proposalIds
    decisionIds := (db.decisions.filter fun row =>
      proposalIds.contains row.proposalId && row.namespaceId == value.namespaceId).map
        MemoryDecisionParams.decisionId
    memoryIds := value.memoryTargets
    eventIds := (db.events.filter fun row =>
      value.memoryTargets.contains row.memoryId && row.namespaceId == value.namespaceId).map
        EventRow.eventId }

/-! ## Inserting a request -/

def RequestRow.ofRequest (params : DeleteRequestParams) : RequestRow :=
  { deleteRequestId := params.deleteRequestId
    namespaceId := params.namespaceId
    requestedBy := params.requestedBy
    authorizationBasis := params.authorizationBasis
    requestedGuarantee := params.requestedGuarantee
    deviceId := params.deviceId
    reasonCode := params.reasonCode
    requestedAt := params.requestedAt }

def DeletionTargetRef.targetRefs : DeletionTargetRef → List ObjectRef
  | .object ref => [ref]
  | .frozenClosure closure => closure.params.targetRefs

def DeletionTargetRef.kind : DeletionTargetRef → TargetRefKind
  | .object _ => .object
  | .frozenClosure _ => .frozenClosure

def DeletionTargetRef.digest : DeletionTargetRef → Option Digest
  | .object _ => none
  | .frozenClosure closure => some closure.params.targetRefsDigest

def ComponentRow.ofTarget (deleteRequestId : Identifier) (ordinal : Nat)
    (component : DeletionTarget) : ComponentRow :=
  { deleteRequestId
    ordinal
    componentKey := component.params.componentKey
    componentType := component.params.componentType
    targetRefKind := component.params.targetRef.kind
    targetCount := component.params.targetCount
    requiredAction := component.params.requiredAction
    targetDigest := component.params.targetRef.digest }

def insertComponent (deleteRequestId : Identifier) (db : Database)
    (component : DeletionTarget × Nat) : Except SqliteError Database := do
  let db ← db.insertComponentRow (ComponentRow.ofTarget deleteRequestId component.2 component.1)
  db.insertComponentTargets (enumerate (deleteRequestId, component.1.params.componentKey) 0
    component.1.params.targetRef.targetRefs)

def insertRequest (db : Database) (request : DeleteRequest) (closure : ExecutionClosure) :
    Except SqliteError Database := do
  let value := request.params
  let db ← db.insertRequestRow (RequestRow.ofRequest value)
  let db ← db.insertRequestTargets (enumerate value.deleteRequestId 0 value.targetRefs)
  let db ← value.plannedComponents.zipIdx.foldlM (insertComponent value.deleteRequestId) db
  profile.foldlM (fun db entry => db.insertExecutionClosure
    (enumerate (value.deleteRequestId, entry.2.1) 0 (closure.refs entry.2.1))) db

/-! ## Closing the targets to recall -/

section Close

omit [Platform]

def SourceRow.setState (state : DeletionState) (row : SourceRow) : SourceRow :=
  { row with governance := { row.governance with deletionState := state } }

def FragmentRow.setState (state : DeletionState) (row : FragmentRow) : FragmentRow :=
  { row with governance := { row.governance with deletionState := state } }

def ProposalRow.setState (state : DeletionState) (row : ProposalRow) : ProposalRow :=
  { row with governance := { row.governance with deletionState := state } }

def RecordRow.setState (state : DeletionState) (row : RecordRow) : RecordRow :=
  { row with governance := { row.governance with deletionState := state } }

def missingDeleteTarget : SqliteError :=
  .deletionInvariant .missingDeleteTarget

/-- Move one active target to `pending`; a source also loses its tip. -/
def closeTarget (namespaceId : Identifier) (db : Database) (target : ObjectRef) :
    Except SqliteError Database :=
  match target.objectType with
  | .sourceArtifact => do
    let selected := fun row : SourceRow =>
      row.sourceId == target.objectId && row.namespaceId == namespaceId &&
        row.governance.deletionState == .active
    require (db.sources.countP selected = 1) missingDeleteTarget
    return { db with
      sources := updateWhere selected (SourceRow.setState .pending) db.sources
      tips := deleteWhere (fun tip =>
        tip.namespaceId == namespaceId && tip.sourceId == target.objectId) db.tips }
  | .memoryRecord => do
    let selected := fun row : RecordRow =>
      row.memoryId == target.objectId && row.namespaceId == namespaceId &&
        row.governance.deletionState == .active
    require (db.records.countP selected = 1) missingDeleteTarget
    return { db with records := updateWhere selected (RecordRow.setState .pending) db.records }
  | _ => .error deletionPlan

/-- The full-text key of a closure reference. -/
def recallKeyOf (ref : ObjectRef) : Except SqliteError RecallKey :=
  match ref.objectType with
  | .sourceFragment => .ok { objectKind := .sourceFragment, objectId := ref.objectId }
  | .memoryRecord => .ok { objectKind := .memoryRecord, objectId := ref.objectId }
  | _ => .error (.deletionInvariant .deletionExecution)

end Close

def closeTargetsToRecall (db : Database) (request : DeleteRequest)
    (closure : ExecutionClosure) : Except SqliteError Database := do
  let value := request.params
  let db ← value.targetRefs.foldlM (closeTarget value.namespaceId) db
  let fragmentIds := (closure.refs .sourceFragment).map ObjectRef.objectId
  let proposalIds := (closure.refs .memoryProposal).map ObjectRef.objectId
  let keys ← (closure.refs .fullTextIndex).mapM recallKeyOf
  return { db with
    fragments := updateWhere (fun row => fragmentIds.contains row.fragmentId &&
        row.namespaceId == value.namespaceId && row.governance.deletionState == .active)
      (FragmentRow.setState .pending) db.fragments
    proposals := updateWhere (fun row => proposalIds.contains row.proposalId &&
        row.namespaceId == value.namespaceId && row.governance.deletionState == .active)
      (ProposalRow.setState .pending) db.proposals
    recallFts := deleteWhere (fun row => keys.contains row.key) db.recallFts
    projection := deleteWhere (fun row => value.memoryTargets.contains row.memoryId)
      db.projection }

/-- Store a request, close its targets to recall and verify the library that results. -/
def storeDeleteRequest (db : Database) (request : DeleteRequest) :
    Except SqliteError Database := do
  validateRequestProfile request
  validateSemanticTargets db request
  let closure ← buildExecutionClosure db request
  let db ← insertRequest db request closure
  let db ← closeTargetsToRecall db request closure
  verifyOriginBindings db
  verifyDerivedIndex db
  return db

end RadishMemory
