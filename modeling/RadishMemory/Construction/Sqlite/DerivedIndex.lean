import RadishMemory.Construction.Sqlite.SourceCapture
import RadishMemory.Construction.Sqlite.MemoryStore

/-!
# The derived index

Lineage tips, full-text rows and the current projection are derived data.  `verify` recomputes
all three from the canonical tables, reading every active tip, every active fragment of a tip
and every active memory record on the way, and compares; `rebuild` replaces them; `search`
verifies first and returns only objects it has just rebuilt from their rows.

The maps of the program are lists without repeated keys, compared as sets of entries.  The
full-text engine is not part of the program: `FullText` gives the keys that match an
expression, in the order the query returns them.
-/

namespace RadishMemory

/-- The full-text engine: the keys of the matching rows in rank order, or nothing when the
engine refuses the expression. -/
class FullText where
  matchKeys : String → List RecallRow → Option (List RecallKey)

variable [Platform]

/-- Entries with distinct keys. -/
def collectUnique {α κ : Type} [DecidableEq κ] (key : α → κ) (rows : List α) :
    Except SqliteError (List α) := do
  require (rows.map key).Nodup derivedMismatch
  return rows

/-! ## Expected tips -/

def TipRow.ofSource (row : SourceRow) : TipRow :=
  { namespaceId := row.namespaceId
    lineageId := row.lineageId
    sourceId := row.sourceId
    version := row.version.get }

/-- The active sources without a newer version of their lineage. -/
def newestActiveRows (db : Database) : List SourceRow :=
  orderByTexts (·.namespaceId.asStr) (·.lineageId.asStr) <| db.sources.filter fun row =>
    row.governance.deletionState == .active && isNewestVersion db row

/-- An expected tip loads as the source it names. -/
def checkExpectedTip (loadSource : SourceLoader) (db : Database) (tip : TipRow) :
    Except SqliteError Unit := do
  require (0 < tip.version) derivedMismatch
  let source ← (← loadSource db tip.namespaceId tip.sourceId).orError derivedMismatch
  require (source.params.lineageId = tip.lineageId ∧ source.params.version.get = tip.version)
    derivedMismatch

def expectedSourceTipsWith (loadSource : SourceLoader) (db : Database) :
    Except SqliteError (List TipRow) := do
  let tips ← collectUnique TipRow.key ((newestActiveRows db).map TipRow.ofSource)
  checkAll (checkExpectedTip loadSource db) tips
  return tips

def actualSourceTips (db : Database) : Except SqliteError (List TipRow) :=
  collectUnique TipRow.key db.tips

def verifySourceTips (loadSource : SourceLoader) (db : Database) : Except SqliteError Unit := do
  let expected ← expectedSourceTipsWith loadSource db
  let actual ← actualSourceTips db
  require (sameEntries expected actual = true) derivedMismatch

/-! ## The catalog -/

inductive LocalSearchHit where
  | sourceFragment (fragment : SourceFragment)
  | memoryRecord (record : MemoryRecord)

def LocalSearchHit.objectId : LocalSearchHit → Identifier
  | .sourceFragment fragment => fragment.params.fragmentId
  | .memoryRecord record => record.params.memoryId

structure Candidate where
  key : RecallKey
  hit : LocalSearchHit
  namespaceId : Identifier
  sensitivity : Sensitivity
  availableAt : Timestamp
  retentionMode : RetentionMode
  retentionExpiresAt : Option Timestamp

def Candidate.source (resolved : ResolvedSource) : Candidate :=
  let value := resolved.fragment.params
  { key := RecallKey.source resolved.fragment
    hit := .sourceFragment resolved.fragment
    namespaceId := value.namespaceId
    sensitivity := value.governance.sensitivity
    availableAt := resolved.source.params.capturedAt
    retentionMode := value.governance.retention.mode
    retentionExpiresAt := value.governance.retention.expiresAt }

def Candidate.memory (record : MemoryRecord) : Candidate :=
  let value := record.params
  { key := RecallKey.memory record
    hit := .memoryRecord record
    namespaceId := value.namespaceId
    sensitivity := value.governance.sensitivity
    availableAt := value.createdAt
    retentionMode := value.governance.retention.mode
    retentionExpiresAt := value.governance.retention.expiresAt }

structure Catalog where
  recallRows : List RecallRow
  projections : List ProjectionRow
  candidates : List Candidate

/-- The source is active and the tip of its lineage. -/
def isActiveTip (db : Database) (source : SourceRow) : Bool :=
  source.governance.deletionState == .active && db.tips.any (· == TipRow.ofSource source)

/-- The active fragments of active tips, by namespace and id. -/
def tipFragmentRows (db : Database) : List FragmentRow :=
  orderByTexts (·.namespaceId.asStr) (·.fragmentId.asStr) <| db.fragments.filter fun row =>
    row.governance.deletionState == .active &&
      db.sources.any fun source => source.sourceId == row.sourceId && isActiveTip db source

def resolvedIsActive (resolved : ResolvedSource) : Bool :=
  resolved.fragment.params.governance.deletionState == .active &&
    resolved.source.params.governance.deletionState == .active

/-- The recallable fragments with their sources, each rebuilt from its rows. -/
def loadSources (loadSource : SourceLoader) (db : Database) :
    Except SqliteError (List ResolvedSource) := do
  let resolved ← (tipFragmentRows db).mapM fun row => do
    (← loadResolvedFragmentWith loadSource db row.namespaceId row.fragmentId).orError
      derivedMismatch
  return resolved.filter resolvedIsActive

/-- The active records, by namespace and id. -/
def activeRecordRows (db : Database) : List RecordRow :=
  orderByTexts (·.namespaceId.asStr) (·.memoryId.asStr) <| db.records.filter fun row =>
    row.governance.deletionState == .active

/-- The active records, each rebuilt with its whole closure. -/
def loadMemories (loadSource : SourceLoader) (db : Database) :
    Except SqliteError (List MemoryRecord) :=
  (activeRecordRows db).mapM fun row => do
    let (record, _) ← (← loadMemoryRecordClosureWith loadSource db row.namespaceId
      row.memoryId).orError derivedMismatch
    return record

def isRecallable (record : MemoryRecord) : Bool :=
  record.params.currentState == .confirmed &&
    record.params.governance.deletionState == .active

/-- What the derived tables should hold, with the objects behind the full-text rows.  Keys are
primary keys of the tables they come from, so checking them once at the end finds the same
repetitions as checking at every insertion. -/
def Catalog.loadWith (loadSource : SourceLoader) (db : Database) :
    Except SqliteError Catalog := do
  verifySourceTips loadSource db
  let resolved ← loadSources loadSource db
  let records ← loadMemories loadSource db
  let recallable := records.filter isRecallable
  let recallRows ← collectUnique RecallRow.key
    (resolved.map (fun r => RecallRow.ofFragment r.fragment) ++
      recallable.map RecallRow.ofRecord)
  let projections ← collectUnique ProjectionRow.memoryId (records.map ProjectionRow.ofRecord)
  return {
    recallRows
    projections
    candidates := resolved.map Candidate.source ++ recallable.map Candidate.memory }

def verifyCatalog (db : Database) (expected : Catalog) : Except SqliteError Unit := do
  let actualProjections ← collectUnique ProjectionRow.memoryId db.projection
  let actualRecallRows ← collectUnique RecallRow.key db.recallFts
  require (sameEntries actualProjections expected.projections = true ∧
      sameEntries actualRecallRows expected.recallRows = true) derivedMismatch

def verifyDerivedIndex (db : Database) : Except SqliteError Unit := do
  verifyCatalog db (← Catalog.loadWith loadSourceArtifact db)

/-- Replace the derived tables by what the canonical tables ask for. -/
def rebuildDerivedIndex (db : Database) : Except SqliteError Database := do
  let tips ← expectedSourceTipsWith loadSourceArtifact db
  let db ← tips.foldlM (fun db tip => db.insertTip tip) { db with tips := [] }
  let expected ← Catalog.loadWith loadSourceArtifact db
  let db ← expected.projections.foldlM (fun db row => db.insertProjection row)
    { db with recallFts := [], projection := [] }
  let db := { db with recallFts := expected.recallRows }
  verifyCatalog db expected
  return db

/-! ## Search -/

/-- The Unicode `White_Space` property. -/
def isWhiteSpace (c : Char) : Bool :=
  (9 ≤ c.toNat && c.toNat ≤ 13) || c.toNat == 0x20 || c.toNat == 0x85 || c.toNat == 0xA0 ||
  c.toNat == 0x1680 || (0x2000 ≤ c.toNat && c.toNat ≤ 0x200A) || c.toNat == 0x2028 ||
  c.toNat == 0x2029 || c.toNat == 0x202F || c.toNat == 0x205F || c.toNat == 0x3000

/-- `str::split_whitespace`: the non-empty runs between white space. -/
def splitWhitespace (text : String) : List String :=
  (text.toList.splitOnP isWhiteSpace).filterMap fun term =>
    if term.isEmpty then none else some (String.ofList term)

/-- Every term becomes a quoted phrase, with its quotes doubled. -/
def ftsExpression (query : String) : String :=
  " ".intercalate <| (splitWhitespace query).map fun term =>
    "\"" ++ String.ofList (term.toList.flatMap fun c => if c = '"' then ['"', '"'] else [c]) ++
      "\""

structure LocalSearchRequest where
  namespaceId : Identifier
  query : NonEmptyText
  asOf : Timestamp
  topK : Nat
  allowedSensitivities : List Sensitivity
  queryHasTerm : splitWhitespace query.asStr ≠ []
  topKPositive : topK ≠ 0
  sensitivitiesNonempty : allowedSensitivities ≠ []

/-- In the namespace, permitted, already available, not expired and, for a memory, valid at the
requested time. -/
def Candidate.isEligible (self : Candidate) (request : LocalSearchRequest) : Bool :=
  self.namespaceId == request.namespaceId &&
  request.allowedSensitivities.contains self.sensitivity &&
  !decide (request.asOf < self.availableAt) &&
  (self.retentionMode != .untilTime ||
    self.retentionExpiresAt.any fun expiresAt => !decide (expiresAt ≤ request.asOf)) &&
  (match self.hit with
    | .sourceFragment _ => true
    | .memoryRecord record => record.params.validTime.contains request.asOf)

def searchError : SqliteError :=
  { code := .search, storageReason := none }

def search [FullText] (db : Database) (request : LocalSearchRequest) :
    Except SqliteError (List LocalSearchHit) := do
  let catalog ← Catalog.loadWith loadSourceArtifact db
  verifyCatalog db catalog
  let eligible := (catalog.candidates.filter (·.isEligible request)).map Candidate.key
  if eligible.isEmpty then return []
  else do
    let matched ← (FullText.matchKeys (ftsExpression request.query.asStr)
      db.recallFts).orError searchError
    let keys := matched.filter (eligible.contains ·)
    (keys.take request.topK).mapM fun key => do
      let candidate ← (lookup Candidate.key catalog.candidates key).orError derivedMismatch
      return candidate.hit

/-! ## Verification, rebuild and capture -/

def verifyRecallDerivations (db : Database) : Except SqliteError Unit := do
  verifyOriginBindings db
  verifyDerivedIndex db

def rebuildRecallDerivations (db : Database) : Except SqliteError Database := do
  verifyOriginBindings db
  let db ← rebuildDerivedIndex db
  verifyOriginBindings db
  return db

structure SourceCaptureResult where
  namespaceId : Identifier
  sourceId : Identifier
  lineageId : Identifier
  version : Version
  contentDigest : Digest
  contentLength : Nat
  mediaType : MediaType
  outcome : SourceCaptureOutcome

def SourceCaptureResult.fromSource (source : SourceArtifact) (outcome : SourceCaptureOutcome) :
    SourceCaptureResult :=
  { namespaceId := source.params.namespaceId
    sourceId := source.params.sourceId
    lineageId := source.params.lineageId
    version := source.params.version
    contentDigest := source.params.contentDigest
    contentLength := source.params.contentLength
    mediaType := source.params.mediaType
    outcome }

/-- One capture transaction: the library is verified before and after the facts go in. -/
def captureSource (db : Database) (capture : SourceCapture) :
    Except SqliteError (Database × SourceCaptureResult) := do
  verifyDerivedIndex db
  verifyOriginBindings db
  let (resultSource, outcome) ← decideCapture loadSourceArtifact db capture
  let db ← if outcome ≠ .idempotent then insertCaptureFacts db capture outcome else .ok db
  verifyDerivedIndex db
  verifyOriginBindings db
  return (db, SourceCaptureResult.fromSource resultSource outcome)

end RadishMemory
