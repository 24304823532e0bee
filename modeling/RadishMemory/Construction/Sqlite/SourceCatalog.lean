import RadishMemory.Construction.Sqlite.DerivedIndex

/-!
# The source catalog

The reads behind the library's list of files: the state of one lineage, a page of lineages and
the versions of a lineage.  All three verify the origin bindings first and load every source
they report.
-/

namespace RadishMemory

variable [Platform]

def lineageTipMismatch : SqliteError :=
  .invalidStored .lineageTipMismatch

structure SourceLineageState where
  namespaceId : Identifier
  originBindingId : Identifier
  lineageId : Identifier
  currentSourceId : Identifier
  currentVersion : Version

/-- The binding of a lineage joined with its tip, when the tip is an active source. -/
def boundTip (db : Database) (namespaceId lineageId : Identifier) :
    Option (BindingRow × TipRow × SourceRow) := do
  let binding ← db.bindings.find? fun row =>
    row.namespaceId == namespaceId && row.lineageId == lineageId
  let tip ← lineageTip db namespaceId lineageId
  let source ← (lookup SourceRow.sourceId db.sources tip.sourceId).filter
    (·.governance.deletionState == .active)
  return (binding, tip, source)

def resolveSourceLineageWith (loadSource : SourceLoader) (db : Database)
    (namespaceId lineageId : Identifier) : Except SqliteError (Option SourceLineageState) :=
  match boundTip db namespaceId lineageId with
  | none => .ok none
  | some (binding, tip, _) => do
    let current ← (← loadSource db namespaceId tip.sourceId).orError lineageTipMismatch
    require (current.params.lineageId = lineageId ∧ current.params.version.get = tip.version)
      lineageTipMismatch
    return some {
      namespaceId
      originBindingId := binding.originBindingId
      lineageId
      currentSourceId := tip.sourceId
      currentVersion := current.params.version }

structure SourceLineageSummary where
  namespaceId : Identifier
  lineageId : Identifier
  currentSourceId : Identifier
  currentVersion : Version
  title : Option NonEmptyText
  sourceKind : SourceKind
  mediaType : MediaType
  contentLength : Nat
  digestProfile : DigestProfile
  observedAt : Timestamp
  capturedAt : Timestamp
  governance : Governance
  versionCount : Nat

def SourceLineageSummary.fromCurrentSource (source : SourceArtifact) (versionCount : Nat) :
    Except CoreError SourceLineageSummary := do
  let params := source.params
  require (params.originKind = .explicitUserInput ∧
      params.governance.deletionState = .active ∧ versionCount = params.version.get)
    (.invalidCanonicalObject .invalidFieldCombination)
  return {
    namespaceId := params.namespaceId
    lineageId := params.lineageId
    currentSourceId := params.sourceId
    currentVersion := params.version
    title := params.title
    sourceKind := params.sourceKind
    mediaType := params.mediaType
    contentLength := params.contentLength
    digestProfile := params.contentDigest.profile
    observedAt := params.observedAt
    capturedAt := params.capturedAt
    governance := params.governance
    versionCount }

structure SourceVersionSummary where
  namespaceId : Identifier
  lineageId : Identifier
  sourceId : Identifier
  version : Version
  title : Option NonEmptyText
  sourceKind : SourceKind
  mediaType : MediaType
  contentLength : Nat
  digestProfile : DigestProfile
  observedAt : Timestamp
  capturedAt : Timestamp
  governance : Governance
  current : Bool

def SourceVersionSummary.fromSource (source : SourceArtifact) (current : Bool) :
    Except CoreError SourceVersionSummary := do
  let params := source.params
  require (params.originKind = .explicitUserInput ∧ params.governance.deletionState = .active)
    (.invalidCanonicalObject .invalidFieldCombination)
  return {
    namespaceId := params.namespaceId
    lineageId := params.lineageId
    sourceId := params.sourceId
    version := params.version
    title := params.title
    sourceKind := params.sourceKind
    mediaType := params.mediaType
    contentLength := params.contentLength
    digestProfile := params.contentDigest.profile
    observedAt := params.observedAt
    capturedAt := params.capturedAt
    governance := params.governance
    current }

structure SourceCatalogRequest where
  namespaceId : Identifier
  offset : Nat
  limit : Nat
  limitPositive : limit ≠ 0

/-- The active versions of a lineage. -/
def activeVersions (db : Database) (namespaceId lineageId : Identifier) : List SourceRow :=
  db.sources.filter fun row =>
    row.namespaceId == namespaceId && row.lineageId == lineageId &&
      row.governance.deletionState == .active

def invalidCatalog (_ : CoreError) : SqliteError :=
  storedMismatch

/-- Newest capture first, then by lineage. -/
def summaryBefore (left right : SourceLineageSummary) : Prop :=
  right.capturedAt < left.capturedAt ∨
    (¬ left.capturedAt < right.capturedAt ∧ left.lineageId.asStr ≤ right.lineageId.asStr)

instance (left right : SourceLineageSummary) : Decidable (summaryBefore left right) :=
  inferInstanceAs (Decidable (_ ∨ (¬ _ ∧ _)))

def listSourceLineagesWith (loadSource : SourceLoader) (db : Database)
    (request : SourceCatalogRequest) : Except SqliteError (List SourceLineageSummary) := do
  let tips := db.tips.filter (·.namespaceId == request.namespaceId)
  let summaries ← tips.mapM fun tip => do
    let source ← (← loadSource db request.namespaceId tip.sourceId).orError lineageTipMismatch
    let count := (activeVersions db request.namespaceId source.params.lineageId).length
    (SourceLineageSummary.fromCurrentSource source count).mapError invalidCatalog
  return ((summaries.insertionSort summaryBefore).drop request.offset).take request.limit

/-! The range of a page is computed in `usize`; its largest value is `usizeMax`. -/

def pageStart (usizeMax offset length : Nat) : Nat :=
  min (if offset ≤ usizeMax then offset else usizeMax) length

/-- The addition saturates. -/
def pageEnd (usizeMax start limit length : Nat) : Nat :=
  min (min (start + limit) usizeMax) length

def pageSlice {α : Type} (usizeMax : Nat) (list : List α) (offset limit : Nat) : List α :=
  let start := pageStart usizeMax offset list.length
  (list.take (pageEnd usizeMax start limit list.length)).drop start

/-- One listed version: the rows count up from version one. -/
def loadVersionSummary (loadSource : SourceLoader) (db : Database)
    (namespaceId lineageId currentSourceId : Identifier) (row : SourceRow)
    (expectedVersion : Nat) : Except SqliteError SourceVersionSummary := do
  require (row.version.get = expectedVersion) lineageTipMismatch
  let source ← (← loadSource db namespaceId row.sourceId).orError lineageTipMismatch
  require (source.params.lineageId = lineageId ∧ source.params.version.get = expectedVersion)
    lineageTipMismatch
  (SourceVersionSummary.fromSource source (row.sourceId == currentSourceId)).mapError
    invalidCatalog

def listSourceVersionsWith (loadSource : SourceLoader) (db : Database)
    (namespaceId lineageId : Identifier) : Except SqliteError (List SourceVersionSummary) :=
  match lineageTip db namespaceId lineageId with
  | none => .ok []
  | some tip => do
    let rows := (activeVersions db namespaceId lineageId).insertionSort fun a b =>
      a.version.get < b.version.get ∨
        (a.version.get = b.version.get ∧ a.sourceId.asStr ≤ b.sourceId.asStr)
    let versions ← rows.zipIdx.mapM fun (row, index) =>
      loadVersionSummary loadSource db namespaceId lineageId tip.sourceId row (index + 1)
    require (versions ≠ [] ∧ versions.countP (·.current) = 1) lineageTipMismatch
    return versions

/-! ## The operations -/

def resolveSourceLineage (db : Database) (namespaceId lineageId : Identifier) :
    Except SqliteError (Option SourceLineageState) := do
  verifyOriginBindings db
  resolveSourceLineageWith loadSourceArtifact db namespaceId lineageId

def listSourceLineages (db : Database) (request : SourceCatalogRequest) :
    Except SqliteError (List SourceLineageSummary) := do
  verifyOriginBindings db
  listSourceLineagesWith loadSourceArtifact db request

def listSourceVersions (db : Database) (namespaceId lineageId : Identifier) :
    Except SqliteError (List SourceVersionSummary) := do
  verifyOriginBindings db
  listSourceVersionsWith loadSourceArtifact db namespaceId lineageId

end RadishMemory
