import RadishMemory.Construction.Sqlite.RecallRows

/-!
# Storing and loading sources

Writes insert the metadata row, the body and the superseded ids; reads rebuild the canonical
object from its rows and validate it again.  Every read asks for `deletion_state = 'active'`.

The functions that read a source take the loader as an argument, because the encrypted library
replaces it; the plaintext library passes `loadSourceArtifact`.
-/

namespace RadishMemory

def NonEmptyText.new (value : String) : Except CoreError NonEmptyText :=
  if h : value ≠ "" then .ok ⟨value, h⟩ else .error (.invalidCanonicalObject .emptyText)

theorem NonEmptyText.new_asStr (text : NonEmptyText) : NonEmptyText.new text.asStr = .ok text := by
  simp [NonEmptyText.new, text.nonempty]

def nonEmptyText (value : String) : Except SqliteError NonEmptyText :=
  (NonEmptyText.new value).mapError invalidCore

variable [Platform]

/-- The metadata row of a source. -/
def SourceRow.ofArtifact (params : SourceArtifactParams) : SourceRow :=
  { sourceId := params.sourceId
    lineageId := params.lineageId
    version := params.version
    namespaceId := params.namespaceId
    sourceKind := params.sourceKind
    mediaType := params.mediaType
    contentLength := params.contentLength
    contentDigest := params.contentDigest
    title := params.title
    originKind := params.originKind
    originRef := params.originRef
    observedAt := params.observedAt
    capturedAt := params.capturedAt
    governance := params.governance
    producer := params.producer
    createdAt := params.createdAt }

def BodyRow.ofArtifact (params : SourceArtifactParams) : BodyRow :=
  { sourceId := params.sourceId, content := params.content.asStr }

/-- The row of a fragment; its content is not stored, only its range. -/
def FragmentRow.ofFragment (params : SourceFragmentParams) : FragmentRow :=
  { fragmentId := params.fragmentId
    namespaceId := params.namespaceId
    sourceId := params.sourceId
    ordinal := params.ordinal
    byteStart := params.byteStart
    byteEnd := params.byteEnd
    contentDigest := params.contentDigest
    segmenter := params.segmenter
    governance := params.governance
    createdAt := params.createdAt }

/-! ## Loading sources -/

def loadSourceRelationTarget (db : Database) (targetId : Identifier) : Option SourceRow :=
  lookup SourceRow.sourceId db.sources targetId

/-- A superseded source is an older version of the same lineage. -/
def supersededSourceMatches (params : SourceArtifactParams) (target : SourceRow) : Bool :=
  target.namespaceId == params.namespaceId && target.lineageId == params.lineageId &&
    decide (target.version.get < params.version.get)

def validateStoredSupersededSources (db : Database) (source : SourceArtifact) :
    Except SqliteError Unit :=
  checkAll (fun targetId => do
      let target ← (loadSourceRelationTarget db targetId).orError
        (.invalidStored .storedIntegrityMismatch)
      require (supersededSourceMatches source.params target = true)
        (.invalidStored .storedIntegrityMismatch)) source.params.supersedesSourceIds

def loadSupersededIds (db : Database) (sourceId : Identifier) :
    Except SqliteError (List Identifier) :=
  loadChildren (.invalidStored .storedIntegrityMismatch) db.sourceSupersedes sourceId

def SourceRow.intoDomain (row : SourceRow) (content : Option String)
    (supersedesSourceIds : List Identifier) : Except SqliteError SourceArtifact := do
  let content ← content.orError (.invalidStored .storedIntegrityMismatch)
  let content ← nonEmptyText content
  (SourceArtifact.new
    { sourceId := row.sourceId
      lineageId := row.lineageId
      version := row.version
      namespaceId := row.namespaceId
      sourceKind := row.sourceKind
      mediaType := row.mediaType
      content
      contentLength := row.contentLength
      contentDigest := row.contentDigest
      title := row.title
      originKind := row.originKind
      originRef := row.originRef
      observedAt := row.observedAt
      capturedAt := row.capturedAt
      supersedesSourceIds
      governance := row.governance
      producer := row.producer
      createdAt := row.createdAt }).mapError invalidCore

/-- The active row of a source in its namespace; `source_id` is the primary key. -/
def activeSourceRow (db : Database) (namespaceId sourceId : Identifier) : Option SourceRow :=
  (lookup SourceRow.sourceId db.sources sourceId).filter fun row =>
    row.namespaceId == namespaceId && row.governance.deletionState == .active

def loadSourceWithBody (db : Database) (namespaceId sourceId : Identifier)
    (authenticatedBody : Option String) : Except SqliteError (Option SourceArtifact) :=
  match activeSourceRow db namespaceId sourceId with
  | none => .ok none
  | some row => do
    let inline := (lookup BodyRow.sourceId db.bodies sourceId).map BodyRow.content
    let supersedes ← loadSupersededIds db sourceId
    let source ← row.intoDomain (authenticatedBody.or inline) supersedes
    validateStoredSupersededSources db source
    return some source

def loadSourceArtifact (db : Database) (namespaceId sourceId : Identifier) :
    Except SqliteError (Option SourceArtifact) :=
  loadSourceWithBody db namespaceId sourceId none

abbrev SourceLoader :=
  Database → Identifier → Identifier → Except SqliteError (Option SourceArtifact)

/-! ## Loading fragments -/

def loadHeadingPath (db : Database) (fragmentId : Identifier) :
    Except SqliteError (Option (List NonEmptyText)) := do
  let headings ← loadChildren (.invalidStored .storedIntegrityMismatch) db.headings fragmentId
  return if headings = [] then none else some headings

def FragmentRow.intoDomain (row : FragmentRow) (source : SourceArtifact)
    (headingPath : Option (List NonEmptyText)) : Except SqliteError SourceFragment := do
  let content ← (sliceBytes source.params.content.asStr row.byteStart row.byteEnd).orError
    (.invalidStored .storedIntegrityMismatch)
  let content ← nonEmptyText content
  (SourceFragment.new
    { fragmentId := row.fragmentId
      namespaceId := row.namespaceId
      sourceId := row.sourceId
      ordinal := row.ordinal
      byteStart := row.byteStart
      byteEnd := row.byteEnd
      headingPath
      content
      contentDigest := row.contentDigest
      segmenter := row.segmenter
      governance := row.governance
      createdAt := row.createdAt }).mapError invalidCore

/-- Rebuild one stored fragment against its source and check the slice again. -/
def loadStoredFragment (db : Database) (source : SourceArtifact) (row : FragmentRow) :
    Except SqliteError SourceFragment := do
  let headings ← loadHeadingPath db row.fragmentId
  let fragment ← row.intoDomain source headings
  (validateSourceFragmentResolution fragment source).mapError
    fun _ => .invalidStored .storedIntegrityMismatch
  return fragment

/-- The active fragment rows of a source, by ordinal and then by id. -/
def activeFragmentRows (db : Database) (sourceId : Identifier) : List FragmentRow :=
  (db.fragments.filter fun row =>
    row.sourceId == sourceId && row.governance.deletionState == .active).insertionSort fun a b =>
      a.ordinal < b.ordinal ∨ (a.ordinal = b.ordinal ∧ a.fragmentId.asStr ≤ b.fragmentId.asStr)

def loadFragmentsForSource (db : Database) (source : SourceArtifact) :
    Except SqliteError (List SourceFragment) :=
  (activeFragmentRows db source.params.sourceId).mapM (loadStoredFragment db source)

def loadSourceFragments (db : Database) (namespaceId sourceId : Identifier) :
    Except SqliteError (Option (List SourceFragment)) := do
  match ← loadSourceArtifact db namespaceId sourceId with
  | none => return none
  | some source => return some (← loadFragmentsForSource db source)

/-- The active row of a fragment in its namespace; `fragment_id` is the primary key. -/
def activeFragmentRow (db : Database) (namespaceId fragmentId : Identifier) :
    Option FragmentRow :=
  (lookup FragmentRow.fragmentId db.fragments fragmentId).filter fun row =>
    row.namespaceId == namespaceId && row.governance.deletionState == .active

def loadResolvedFragmentWith (loadSource : SourceLoader) (db : Database)
    (namespaceId fragmentId : Identifier) : Except SqliteError (Option ResolvedSource) :=
  match activeFragmentRow db namespaceId fragmentId with
  | none => .ok none
  | some row => do
    let source ← (← loadSource db namespaceId row.sourceId).orError
      (.invalidStored .storedIntegrityMismatch)
    let fragment ← loadStoredFragment db source row
    return some { fragment, source }

def loadResolvedSourceFragment (db : Database) (namespaceId fragmentId : Identifier) :
    Except SqliteError (Option ResolvedSource) :=
  loadResolvedFragmentWith loadSourceArtifact db namespaceId fragmentId

/-! ## Inserting sources -/

def validateSupersededSources (db : Database) (source : SourceArtifact) :
    Except SqliteError Unit :=
  checkAll (fun targetId => do
      let target ← (loadSourceRelationTarget db targetId).orError
        (.sourceInvariant .missingSource)
      require (target.namespaceId = source.params.namespaceId)
        (.sourceInvariant .namespaceMismatch)
      require (target.lineageId = source.params.lineageId ∧
          target.version.get < source.params.version.get)
        (.sourceInvariant .sourceResolution)) source.params.supersedesSourceIds

def insertSourceMetadata (db : Database) (source : SourceArtifact) :
    Except SqliteError Database := do
  let _ ← toI64 source.params.version.get
  let _ ← toI64 source.params.contentLength
  validateSupersededSources db source
  let db ← db.insertSource (SourceRow.ofArtifact source.params)
  db.insertSourceSupersedes
    (enumerate source.params.sourceId 0 source.params.supersedesSourceIds)

def insertSourceArtifact (db : Database) (source : SourceArtifact) :
    Except SqliteError Database := do
  let db ← insertSourceMetadata db source
  db.insertBody (BodyRow.ofArtifact source.params)

/-! ## Inserting fragments -/

/-- The batch loop: one namespace and source, no repeated id or ordinal. -/
def validateFragmentBatchFrom (namespaceId sourceId : Identifier) (fragmentIds : List Identifier)
    (ordinals : List Nat) : List SourceFragment → Except SqliteError Unit
  | [] => .ok ()
  | fragment :: rest => do
    require (fragment.params.namespaceId = namespaceId ∧ fragment.params.sourceId = sourceId)
      (.sourceInvariant .mixedFragmentBatch)
    require (fragment.params.fragmentId ∉ fragmentIds ∧ fragment.params.ordinal ∉ ordinals)
      (.sourceInvariant .duplicateFragment)
    validateFragmentBatchFrom namespaceId sourceId (fragment.params.fragmentId :: fragmentIds)
      (fragment.params.ordinal :: ordinals) rest

def validateFragmentBatch (fragments : List SourceFragment) :
    Except SqliteError (Identifier × Identifier) := do
  let first ← fragments.head?.orError (.sourceInvariant .emptyFragmentBatch)
  validateFragmentBatchFrom first.params.namespaceId first.params.sourceId [] [] fragments
  return (first.params.namespaceId, first.params.sourceId)

def validateFragmentNumbers (fragment : SourceFragment) : Except SqliteError Unit := do
  let _ ← toI64 fragment.params.ordinal
  let _ ← toI64 fragment.params.byteStart
  let _ ← toI64 fragment.params.byteEnd

/-- Insert one fragment with its headings and, when it is recallable, its full-text row. -/
def insertFragmentFacts (db : Database) (source : SourceArtifact) (fragment : SourceFragment) :
    Except SqliteError Database := do
  let db ← db.insertFragment (FragmentRow.ofFragment fragment.params)
  let db ← db.insertHeadings
    (enumerate fragment.params.fragmentId 0 (fragment.params.headingPath.getD []))
  db.insertSourceFragment fragment source

def insertFragmentsForSource (db : Database) (fragments : List SourceFragment)
    (source : SourceArtifact) : Except SqliteError Database := do
  let (namespaceId, sourceId) ← validateFragmentBatch fragments
  require (namespaceId = source.params.namespaceId ∧ sourceId = source.params.sourceId)
    (.sourceInvariant .mixedFragmentBatch)
  checkAll validateFragmentNumbers fragments
  checkAll (fun fragment => (validateSourceFragmentResolution fragment source).mapError
    fun _ => .sourceInvariant .sourceResolution) fragments
  fragments.foldlM (fun db fragment => insertFragmentFacts db source fragment) db

def insertSourceFragments (db : Database) (fragments : List SourceFragment) :
    Except SqliteError Database := do
  let (namespaceId, sourceId) ← validateFragmentBatch fragments
  let source ← (← loadSourceArtifact db namespaceId sourceId).orError
    (.sourceInvariant .missingSource)
  insertFragmentsForSource db fragments source

/-- Store further fragments of a stored, active source. -/
def storeSourceFragments (db : Database) (fragments : List SourceFragment) :
    Except SqliteError Database :=
  insertSourceFragments db fragments

end RadishMemory
