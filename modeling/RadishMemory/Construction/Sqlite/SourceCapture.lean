import RadishMemory.Construction.Sqlite.SourceStore

/-!
# Lineage tips, origin bindings and the capture decision

A lineage of sources has one tip, advanced by every write.  A captured file is bound to its
lineage by an origin binding and leaves a capture audit row.  `verifyOriginBindings` recomputes
both from the source rows.
-/

namespace RadishMemory

variable [Platform]

def captureMismatch (reason : SqliteStorageReason) : SqliteError :=
  .sourceInvariant reason

/-! ## Lineage tips -/

def TipRow.key (tip : TipRow) : Identifier × Identifier :=
  (tip.namespaceId, tip.lineageId)

/-- The tip of a lineage; `(namespace_id, lineage_id)` is the primary key. -/
def lineageTip (db : Database) (namespaceId lineageId : Identifier) : Option TipRow :=
  lookup TipRow.key db.tips (namespaceId, lineageId)

/-- Point an existing tip at a new source. -/
def Database.updateTip (db : Database) (current : TipRow) (sourceId : Identifier)
    (version : Nat) : Except SqliteError Database := do
  require (∀ tip ∈ db.tips, tip ≠ current → tip.sourceId ≠ sourceId)
    (SqliteError.storage .unique)
  require (db.hasSource sourceId = true) (SqliteError.storage .foreignKey)
  require (db.tips.countP (· == current) = 1) (captureMismatch .lineageTipMismatch)
  return { db with
    tips := updateWhere (· == current) (fun tip => { tip with sourceId, version }) db.tips }

/-- Start a lineage at version one, or extend it by exactly one version that supersedes the tip;
the fragments of the old tip leave the full-text table. -/
def advanceLineageTip (db : Database) (source : SourceArtifact) :
    Except SqliteError Database := do
  let value := source.params
  require (value.version.get < 2 ^ 63) (captureMismatch .lineageTipMismatch)
  match lineageTip db value.namespaceId value.lineageId with
  | none => do
    require (value.version.get = 1 ∧ value.supersedesSourceIds = [])
      (captureMismatch .lineageTipMismatch)
    db.insertTip
      { namespaceId := value.namespaceId
        lineageId := value.lineageId
        sourceId := value.sourceId
        version := value.version.get }
  | some current => do
    require (current.version + 1 < 2 ^ 63) (captureMismatch .lineageTipMismatch)
    require (value.version.get = current.version + 1 ∧
        value.supersedesSourceIds = [current.sourceId])
      (captureMismatch .lineageTipMismatch)
    (db.removeSourceFragments current.sourceId).updateTip current value.sourceId
      value.version.get

/-- Store a synthetic source; a captured file must go through `captureSource`. -/
def storeSourceArtifact (db : Database) (source : SourceArtifact) :
    Except SqliteError Database := do
  require (source.params.originKind ≠ .explicitUserInput)
    (.sourceInvariant .originBindingMismatch)
  let db ← insertSourceArtifact db source
  advanceLineageTip db source

/-! ## Origin bindings -/

/-- `NOT EXISTS` a newer version of the same lineage. -/
def isNewestVersion (db : Database) (row : SourceRow) : Bool :=
  db.sources.all fun newer =>
    !(newer.namespaceId == row.namespaceId && newer.lineageId == row.lineageId &&
      decide (row.version.get < newer.version.get))

/-- A binding by its namespace and id, with the lineage it names. -/
abbrev BindingEntry :=
  (Identifier × String) × Identifier

def collectUniqueBindings (rows : List BindingEntry) : Except SqliteError (List BindingEntry) := do
  require (rows.map Prod.fst).Nodup (.invalidStored .originBindingMismatch)
  return rows

/-- The binding an active captured tip asks for. -/
def expectedBindingOf (db : Database) (row : SourceRow) : Option BindingEntry :=
  if row.originKind = .explicitUserInput ∧ row.governance.deletionState = .active ∧
      isNewestVersion db row = true then
    row.originRef.map fun originRef => ((row.namespaceId, originRef.asStr), row.lineageId)
  else none

def expectedOriginBindings (db : Database) : Except SqliteError (List BindingEntry) := do
  let bindings ← collectUniqueBindings (db.sources.filterMap (expectedBindingOf db))
  require (∀ binding ∈ bindings, sourceOriginBindingIdIsValid binding.1.2 = true)
    (.invalidStored .originBindingMismatch)
  return bindings

def bindingEntry (row : BindingRow) : BindingEntry :=
  ((row.namespaceId, row.originBindingId.asStr), row.lineageId)

def actualOriginBindings (db : Database) : Except SqliteError (List BindingEntry) :=
  collectUniqueBindings (db.bindings.map bindingEntry)

/-- The binding outlives its tip while a deletion of the lineage is unfinished. -/
def belongsToClosedPlan (db : Database) (namespaceId lineageId : Identifier) : Bool :=
  db.sources.any fun row =>
    row.namespaceId == namespaceId && row.lineageId == lineageId &&
    row.originKind == .explicitUserInput &&
    (row.governance.deletionState == .pending || row.governance.deletionState == .failed)

def verifyOriginBindingRows (db : Database) : Except SqliteError Unit := do
  let expected ← expectedOriginBindings db
  let actual ← actualOriginBindings db
  require (∀ binding ∈ expected,
      (lookup Prod.fst actual binding.1).map Prod.snd = some binding.2)
    (.invalidStored .originBindingMismatch)
  require (∀ binding ∈ actual,
      (lookup Prod.fst expected binding.1).map Prod.snd = some binding.2 ∨
        belongsToClosedPlan db binding.1.1 binding.2 = true)
    (.invalidStored .originBindingMismatch)

/-! ## Captured files -/

def expectedOutcome (source : SourceArtifact) : AuditOutcome :=
  if source.params.version.get = 1 then .created else .versioned

/-- The audit row a capture leaves; the time is compared as text. -/
def auditMatches (db : Database) (originBindingId : Identifier) (source : SourceArtifact) :
    Bool :=
  db.captureAudit.any fun row =>
    row.sourceId == source.params.sourceId && row.namespaceId == source.params.namespaceId &&
    row.originBindingId == originBindingId && row.outcome == expectedOutcome source &&
    row.recordedAt.original == source.params.capturedAt.original

def validateExistingCapture (db : Database) (originBindingId : Identifier)
    (source : SourceArtifact) : Except SqliteError Unit := do
  require (source.params.originKind = .explicitUserInput ∧
      source.params.originRef.map NonEmptyText.asStr = some originBindingId.asStr)
    (.invalidStored .originBindingMismatch)
  let fragments ← loadFragmentsForSource db source
  (validateCompleteSourceFragmentSet source fragments).mapError
    fun _ => .invalidStored .storedIntegrityMismatch
  require (auditMatches db originBindingId source = true) (.invalidStored .captureStateMismatch)

def NonEmptyText.toIdentifier (text : NonEmptyText) : Identifier :=
  ⟨text.asStr, text.nonempty⟩

def verifyActiveFileCapture (db : Database) (row : SourceRow) : Except SqliteError Unit := do
  let originRef ← row.originRef.orError (.invalidStored .originBindingMismatch)
  require (sourceOriginBindingIdIsValid originRef.asStr = true)
    (.invalidStored .originBindingMismatch)
  let source ← (← loadSourceArtifact db row.namespaceId row.sourceId).orError
    (.invalidStored .storedIntegrityMismatch)
  validateExistingCapture db originRef.toIdentifier source

/-- The active captured sources, by namespace and id. -/
def activeCapturedRows (db : Database) : List SourceRow :=
  orderByTexts (·.namespaceId.asStr) (·.sourceId.asStr) <| db.sources.filter fun row =>
    row.originKind == .explicitUserInput && row.governance.deletionState == .active

def verifyActiveFileCaptures (db : Database) : Except SqliteError Unit :=
  checkAll (verifyActiveFileCapture db) (activeCapturedRows db)

def verifyOriginBindings (db : Database) : Except SqliteError Unit := do
  verifyOriginBindingRows db
  verifyActiveFileCaptures db

/-! ## The capture decision -/

def loadOriginLineage (db : Database) (namespaceId originBindingId : Identifier) :
    Option Identifier :=
  (db.bindings.find? fun row =>
    row.namespaceId == namespaceId && row.originBindingId == originBindingId).map (·.lineageId)

def loadCurrentSourceWith (loadSource : SourceLoader) (db : Database)
    (namespaceId lineageId : Identifier) : Except SqliteError SourceArtifact := do
  let tip ← (lineageTip db namespaceId lineageId).orError (.invalidStored .lineageTipMismatch)
  (← loadSource db namespaceId tip.sourceId).orError (.invalidStored .lineageTipMismatch)

def requireUnusedLineage (db : Database) (source : SourceArtifact) : Except SqliteError Unit :=
  require (∀ tip ∈ db.tips,
      tip.key ≠ (source.params.namespaceId, source.params.lineageId))
    (captureMismatch .originBindingMismatch)

def sameCaptureBytes (candidate current : SourceArtifact) : Bool :=
  candidate.params.contentLength == current.params.contentLength &&
  candidate.params.contentDigest == current.params.contentDigest &&
  candidate.params.content == current.params.content

/-- A new binding starts a lineage; a known one extends it, or does nothing when the bytes are
those of the current version. -/
def decideCapture (loadSource : SourceLoader) (db : Database) (capture : SourceCapture) :
    Except SqliteError (SourceArtifact × SourceCaptureOutcome) := do
  let candidate := capture.params.source
  let value := candidate.params
  match loadOriginLineage db value.namespaceId capture.params.originBindingId with
  | some lineageId => do
    require (lineageId = value.lineageId) (captureMismatch .originBindingMismatch)
    let current ← loadCurrentSourceWith loadSource db value.namespaceId lineageId
    validateExistingCapture db capture.params.originBindingId current
    require ((value.governance == current.params.governance) = true)
      (captureMismatch .captureStateMismatch)
    if sameCaptureBytes candidate current then do
      require (value.sourceKind = current.params.sourceKind ∧
          value.mediaType = current.params.mediaType)
        (captureMismatch .captureStateMismatch)
      return (current, .idempotent)
    else return (candidate, .versioned)
  | none => do
    requireUnusedLineage db candidate
    return (candidate, .created)

def insertOriginBinding (db : Database) (originBindingId : Identifier)
    (source : SourceArtifact) : Except SqliteError Database :=
  db.insertBinding
    { namespaceId := source.params.namespaceId
      originBindingId
      lineageId := source.params.lineageId }

def insertCaptureAudit (db : Database) (originBindingId : Identifier) (source : SourceArtifact)
    (outcome : AuditOutcome) : Except SqliteError Database :=
  db.insertAudit
    { sourceId := source.params.sourceId
      namespaceId := source.params.namespaceId
      originBindingId
      outcome
      recordedAt := source.params.capturedAt }

/-- The facts of a new capture.  An idempotent capture has none, and asking for them is an
error. -/
def insertCaptureFacts (db : Database) (capture : SourceCapture)
    (outcome : SourceCaptureOutcome) : Except SqliteError Database := do
  let audit ← match outcome with
    | .created => Except.ok AuditOutcome.created
    | .versioned => .ok .versioned
    | .idempotent => .error (captureMismatch .captureStateMismatch)
  let db ← insertSourceArtifact db capture.params.source
  let db ← advanceLineageTip db capture.params.source
  let db ← if outcome = .created then
      insertOriginBinding db capture.params.originBindingId capture.params.source
    else .ok db
  let db ← insertSourceFragments db capture.params.fragments
  insertCaptureAudit db capture.params.originBindingId capture.params.source audit

end RadishMemory
