import RadishMemory.Construction.Sqlite.CaptureFingerprint
import RadishMemory.Construction.Sqlite.DerivedIndex
import RadishMemory.Construction.Sqlite.VaultSchema
import RadishMemory.Construction.FileEntry.Selection

/-!
# The database of the encrypted library

Nothing here touches a file or the key.  The coordinator hands in the sources whose bodies it has
read and authenticated, and they take the place of the inline bodies: the loader of a function of
the plaintext library finds a source among them.

A capture is decided, prepared under the tokens of its object, and committed when the object has
been published.  `verifyFacts` compares the handed sources with every active row.
-/

namespace RadishMemory

inductive CaptureObjectState where
  | committed
  | prepared
  | abandoning
  | abandoned
  | deleting
  | deleted
deriving DecidableEq, Repr

/-- What the database knows of an object. -/
structure CaptureObject where
  sourceId : Identifier
  namespaceId : Identifier
  digestValue : Sha256Hex
  contentLength : Nat
  mediaType : MediaType
  tokens : ObjectTokens
  state : CaptureObjectState
deriving DecidableEq

/-- `invalid()` of the capture database. -/
def captureInvalid : SqliteError :=
  .invalidStored .captureStateMismatch

/-! ## Objects -/

/-- The state of a deletion takes the place of the attempt's. -/
def AttemptPhase.objectState (phase : AttemptPhase) :
    Option ObjectDeletionState → Except SqliteError CaptureObjectState
  | some .deleting => .ok .deleting
  | some .deleted => .ok .deleted
  | none =>
    match phase with
    | .retired | .committed => .ok .committed
    | .prepared => .ok .prepared
    | .abandoning => .ok .abandoning
    | .abandoned => .ok .abandoned
    | .planned | .referenced => .error captureInvalid

namespace VaultDatabase

variable (db : VaultDatabase)

/-- The deletion of a source, from the version on that has the table. -/
def knownDeletion (sourceId : Identifier) : Option ObjectDeletionRow :=
  if objectDeletionSchemaVersion ≤ db.version then db.deletionOf sourceId else none

def objectOf (row : ObjectAttemptRow) : Except SqliteError CaptureObject := do
  let tokens ← row.tokens.orError storageError
  let state ← row.phase.objectState ((db.knownDeletion row.sourceId).map ObjectDeletionRow.state)
  return {
    sourceId := row.sourceId
    namespaceId := row.namespaceId
    digestValue := row.digestValue
    contentLength := row.contentLength
    mediaType := row.mediaType
    tokens
    state }

/-- `ORDER BY source_id` -/
def objects : Except SqliteError (List CaptureObject) :=
  (db.objectAttempts.insertionSort fun a b => a.sourceId.asStr ≤ b.sourceId.asStr).mapM
    db.objectOf

def reference (sourceId : Identifier) : Except SqliteError ObjectTokens := do
  let row ← (db.referenceOf sourceId).orError storageError
  return row.tokens

/-- A source or a record is being deleted. -/
def deletionInProgress : Bool :=
  let unfinished := fun state : DeletionState => state == .pending || state == .failed
  (db.library.sources.any fun row => unfinished row.governance.deletionState) ||
    db.library.records.any fun row => unfinished row.governance.deletionState

/-- The request digest of the prepared attempt. -/
def preparedDigest : Option Sha256Hex :=
  ((db.objectAttempts.find? fun row => row.phase == .prepared).bind
    ObjectAttemptRow.request).map AttemptRequest.requestDigest

end VaultDatabase

/-! ## Sources -/

instance : BEq SourceArtifactParams :=
  ⟨fun a b => a.sourceId == b.sourceId && a.lineageId == b.lineageId && a.version == b.version &&
    a.namespaceId == b.namespaceId && a.sourceKind == b.sourceKind &&
    a.mediaType == b.mediaType && a.content == b.content && a.contentLength == b.contentLength &&
    a.contentDigest == b.contentDigest && a.title == b.title && a.originKind == b.originKind &&
    a.originRef == b.originRef && a.observedAt == b.observedAt && a.capturedAt == b.capturedAt &&
    a.supersedesSourceIds == b.supersedesSourceIds && a.governance == b.governance &&
    a.producer == b.producer && a.createdAt == b.createdAt⟩

variable [Platform]

instance : BEq SourceArtifact :=
  ⟨fun a b => a.params == b.params⟩

def artifactKey (source : SourceArtifact) : Identifier × Identifier :=
  (source.params.namespaceId, source.params.sourceId)

/-- The loader that finds a source among the authenticated ones. -/
def sourceLoader (sources : List SourceArtifact) : Except SqliteError SourceLoader := do
  require (UniqueBy artifactKey sources) captureInvalid
  return fun _ namespaceId sourceId => .ok (lookup artifactKey sources (namespaceId, sourceId))

/-- `load_source_with_body` with the bytes of an object.  Bytes that are no text are reported as
an integrity mismatch. -/
def loadSourceWithBytes (db : Database) (namespaceId sourceId : Identifier)
    (body : List UInt8) : Except SqliteError (Option SourceArtifact) :=
  match activeSourceRow db namespaceId sourceId with
  | none => .ok none
  | some _ => do
    let text ← (FileEntry.decodeUtf8 body).orError (.invalidStored .storedIntegrityMismatch)
    loadSourceWithBody db namespaceId sourceId (some text)

/-- The canonical source of a committed object, checked against the bytes of the object. -/
def VaultDatabase.resolveObject (db : VaultDatabase) (item : CaptureObject)
    (body : List UInt8) : Except SqliteError (Option SourceArtifact) := do
  require (item.state = .committed ∧ body.length = item.contentLength ∧
      (computeExactBytesDigest body).value = item.digestValue) captureInvalid
  match ← loadSourceWithBytes db.library item.namespaceId item.sourceId body with
  | none => return none
  | some source => do
    let _ ← loadFragmentsForSource db.library source
    return some source

/-! ## Verification -/

section Structure

omit [Platform]

/-- The namespaces of all canonical rows; SQLite's own integrity checks are not modelled. -/
def verifyDatabaseFacts (db : Database) (namespaceId : Identifier) : Except SqliteError Unit :=
  require ((∀ row ∈ db.sources, row.namespaceId = namespaceId) ∧
      (∀ row ∈ db.fragments, row.namespaceId = namespaceId) ∧
      (∀ row ∈ db.proposals, row.namespaceId = namespaceId) ∧
      (∀ row ∈ db.decisions, row.namespaceId = namespaceId) ∧
      (∀ row ∈ db.records, row.namespaceId = namespaceId) ∧
      (∀ row ∈ db.events, row.namespaceId = namespaceId) ∧
      (∀ row ∈ db.requests, row.namespaceId = namespaceId) ∧
      ∀ row ∈ db.evidence, row.namespaceId = namespaceId) profileMismatch

namespace VaultDatabase

/-- A committed object has a reference until its deletion begins. -/
def referenceMatches (db : VaultDatabase) (row : ObjectAttemptRow) (source : SourceRow) : Bool :=
  match db.knownDeletion row.sourceId, db.referenceOf row.sourceId with
  | none, none => false
  | none, some reference => row.tokens == some reference.tokens
  | some _, some _ => false
  | some _, none => source.governance.deletionState != .active

/-- An attempt and the source row, the reference and the deletion of its source. -/
def attemptMatches (db : VaultDatabase) (namespaceId : Identifier) (row : ObjectAttemptRow) :
    Bool :=
  row.namespaceId == namespaceId &&
  match row.phase with
  | .prepared | .abandoning | .abandoned =>
    !db.hasSource row.sourceId && (db.referenceOf row.sourceId).isNone
  | .retired | .committed =>
    match lookup SourceRow.sourceId db.library.sources row.sourceId with
    | none => false
    | some source =>
      db.referenceMatches row source && row.namespaceId == source.namespaceId &&
        row.digestValue == source.contentDigest.value &&
        source.contentDigest.profile == .exactBytesV1 &&
        row.contentLength == source.contentLength && row.mediaType == source.mediaType
  | .planned | .referenced => true

/-- Every active source has a reference. -/
def sourcesReferenced (db : VaultDatabase) : Bool :=
  db.library.sources.all fun row =>
    row.governance.deletionState != .active || (db.referenceOf row.sourceId).isSome

end VaultDatabase

end Structure

/-- `persisted` of `verify_canonical_facts`: a committed capture still has the fingerprint that it
was prepared under. -/
def VaultDatabase.verifyRequestDigest (db : VaultDatabase) (source : SourceArtifact)
    (fragments : List SourceFragment) : Except SqliteError Unit :=
  match (db.attemptOf source.params.sourceId).filter (·.phase == .committed) with
  | none => .ok ()
  | some row =>
    match row.request with
    | none => .ok ()
    | some request => do
      let capture ← (Checked.new SourceCaptureParams.check
        { originBindingId := request.originBindingId, source, fragments }).mapError invalidCore
      require (fingerprint capture = request.requestDigest) captureInvalid

/-- A handed source is the stored one, with its fragments, its fingerprint and its audit. -/
def VaultDatabase.verifyCanonicalSource (db : VaultDatabase) (source : SourceArtifact) :
    Except SqliteError Unit := do
  let value := source.params
  let stored ← (← loadSourceWithBody db.library value.namespaceId value.sourceId
    (some value.content.asStr)).orError captureInvalid
  require ((stored == source) = true) captureInvalid
  let fragments ← loadFragmentsForSource db.library source
  if captureSchemaVersion ≤ db.version then db.verifyRequestDigest source fragments
  if value.originKind = .explicitUserInput then do
    let originRef ← value.originRef.orError captureInvalid
    validateExistingCapture db.library originRef.toIdentifier source

/-- The handed sources are the active ones. -/
def VaultDatabase.verifyCanonicalFacts (db : VaultDatabase) (sources : List SourceArtifact) :
    Except SqliteError Unit := do
  let _ ← sourceLoader sources
  require (db.library.sources.countP (·.governance.deletionState == .active) = sources.length)
    captureInvalid
  checkAll db.verifyCanonicalSource sources
  verifyOriginBindingRows db.library

/-- `verify_facts` of a connection. -/
def VaultDatabase.verifyStoredFacts (db : VaultDatabase) (sources : List SourceArtifact) :
    Except SqliteError Unit := do
  db.verifyCanonicalFacts sources
  let load ← sourceLoader sources
  verifyCatalog db.library (← Catalog.loadWith load db.library)

/-! ## Deciding -/

namespace VaultDatabase

/-- Repeating a committed request does nothing, even when a later version has become the tip. -/
def decideRepeated (db : VaultDatabase) (capture : SourceCapture)
    (sources : List SourceArtifact) : Except SqliteError (Option SourceArtifact) := do
  let value := capture.params.source.params
  require (∀ digest ∈ db.preparedDigest, digest = fingerprint capture) captureInvalid
  match (db.attemptOf value.sourceId).bind fun row =>
      row.request.map fun request => (row, request) with
  | none => return none
  | some (row, request) => do
    require (row.phase ≠ .abandoning ∧ row.phase ≠ .abandoned) captureInvalid
    require (request.originBindingId = capture.params.originBindingId) captureInvalid
    require (request.requestDigest = fingerprint capture) captureInvalid
    let items ← db.objects
    let item ← (items.find? (·.sourceId == value.sourceId)).orError captureInvalid
    require (item.namespaceId = value.namespaceId ∧ item.digestValue = value.contentDigest.value ∧
        item.contentLength = value.contentLength ∧ item.mediaType = value.mediaType)
      captureInvalid
    if row.phase = .committed then do
      let source ← (sources.find? (·.params.sourceId == value.sourceId)).orError captureInvalid
      require ((source == capture.params.source) = true) captureInvalid
      return some source
    else return none

/-- The rows of a new version can be inserted. -/
def validateCandidate (db : VaultDatabase) (capture : SourceCapture) :
    Except SqliteError Unit := do
  let value := capture.params.source.params
  let _ ← toI64 value.version.get
  let _ ← toI64 value.contentLength
  match lineageTip db.library value.namespaceId value.lineageId with
  | none => require (value.version.get = 1 ∧ value.supersedesSourceIds = []) captureInvalid
  | some tip => require (tip.version + 1 = value.version.get ∧
      value.supersedesSourceIds = [tip.sourceId]) captureInvalid
  require (db.hasSource value.sourceId = false) captureInvalid
  checkAll (fun fragment : SourceFragment => do
    require (fragment.params.governance.deletionState = .active) captureInvalid
    validateFragmentNumbers fragment
    require (db.library.hasFragment fragment.params.fragmentId = false) captureInvalid)
    capture.params.fragments

/-- The decision, and nothing is changed. -/
def decide (db : VaultDatabase) (namespaceId : Identifier) (capture : SourceCapture)
    (sources : List SourceArtifact) :
    Except SqliteError (SourceArtifact × SourceCaptureOutcome) := do
  let value := capture.params.source.params
  require (value.namespaceId = namespaceId ∧ value.governance.deletionState = .active)
    captureInvalid
  require (db.deletionInProgress = false) captureInvalid
  let items ← db.objects
  require (∀ item ∈ items, item.state ≠ .abandoning) captureInvalid
  let repeated ← if captureSchemaVersion ≤ db.version then db.decideRepeated capture sources
    else .ok none
  match repeated with
  | some source => return (source, .idempotent)
  | none => do
    let load ← sourceLoader sources
    let decision ← decideCapture load db.library capture
    if decision.2 ≠ .idempotent then db.validateCandidate capture
    return decision

/-! ## Preparing and committing -/

/-- The attempt row of a capture. -/
def captureAttempt (capture : SourceCapture) (tokens : ObjectTokens) : ObjectAttemptRow :=
  let value := capture.params.source.params
  { sourceId := value.sourceId
    namespaceId := value.namespaceId
    digestValue := value.contentDigest.value
    contentLength := value.contentLength
    mediaType := value.mediaType
    phase := .prepared
    tokens := some tokens
    request := some {
      requestDigest := fingerprint capture
      originBindingId := capture.params.originBindingId } }

/-- The tokens of a new attempt; those of a prepared one are replaced. -/
def prepareCapture (db : VaultDatabase) (capture : SourceCapture) (tokens : ObjectTokens) :
    Except SqliteError VaultDatabase := do
  require (captureSchemaVersion ≤ db.version ∧ db.version ≤ legacyDeletionSchemaVersion)
    captureInvalid
  match db.preparedDigest with
  | some existing => do
    require (existing = fingerprint capture) captureInvalid
    let (changed, db) ← db.updateAttempts
      (fun row => row.sourceId == capture.params.source.params.sourceId && row.phase == .prepared)
      fun row => { row with tokens := some tokens }
    require (changed = 1) captureInvalid
    return db
  | none => do
    let _ ← toI64 capture.params.source.params.contentLength
    db.insertObjectAttempt (captureAttempt capture tokens)

end VaultDatabase

/-- `insert_capture_facts` without an inline body. -/
def insertObjectCaptureFacts (db : Database) (capture : SourceCapture)
    (outcome : SourceCaptureOutcome) : Except SqliteError Database := do
  let audit ← match outcome with
    | .created => Except.ok AuditOutcome.created
    | .versioned => .ok .versioned
    | .idempotent => .error (captureMismatch .captureStateMismatch)
  let db ← insertSourceMetadata db capture.params.source
  let db ← advanceLineageTip db capture.params.source
  let db ← if outcome = .created then
      insertOriginBinding db capture.params.originBindingId capture.params.source
    else .ok db
  let db ← insertFragmentsForSource db capture.params.fragments capture.params.source
  insertCaptureAudit db capture.params.originBindingId capture.params.source audit

namespace VaultDatabase

/-- The reference of a prepared attempt, which is committed with it. -/
def commitAttempt (db : VaultDatabase) (sourceId : Identifier) (row : ObjectAttemptRow) :
    Except SqliteError VaultDatabase := do
  let tokens ← row.tokens.orError storageError
  let db ← db.insertReference { sourceId, tokens }
  let (_, db) ← db.updateAttempts (·.sourceId == sourceId)
    fun row => { row with phase := .committed }
  return db

/-- One transaction, after a decision that something is to be captured. -/
def commitCapture (db : VaultDatabase) (namespaceId : Identifier) (capture : SourceCapture)
    (sources : List SourceArtifact) :
    Except SqliteError (SourceCaptureOutcome × VaultDatabase) := do
  let (_, outcome) ← db.decide namespaceId capture sources
  require (outcome ≠ .idempotent) captureInvalid
  let sourceId := capture.params.source.params.sourceId
  let row ← ((db.attemptOf sourceId).filter (·.phase == .prepared)).orError storageError
  require (row.request.map AttemptRequest.requestDigest = some (fingerprint capture))
    captureInvalid
  let library ← insertObjectCaptureFacts db.library capture outcome
  let db ← { db with library }.commitAttempt sourceId row
  db.verifyStoredFacts (sources ++ [capture.params.source])
  return (outcome, db)

end VaultDatabase

end RadishMemory
