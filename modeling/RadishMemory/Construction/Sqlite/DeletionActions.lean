import RadishMemory.Construction.Sqlite.DeletionPlan

/-!
# The ten deletion actions

Each component of a plan is one action over the ids its part of the frozen closure names.  The
ids are taken as they were frozen: no action looks at the owner, the namespace or the state of
the rows it finds under them.

A loop over the closure runs one statement per id and counts the rows it touched; only whether
that count is zero is used, so an action is one statement over the set of ids and asks whether
any row matched.  The branch of `delete_source_bodies` for encrypted libraries (schema version
11 and later) does not exist for a plaintext library.
-/

namespace RadishMemory

def redactionMarker : NonEmptyText :=
  ⟨"[redacted:local-deletion]", by decide⟩

def componentErrorCode : String :=
  "sqlite-deletion-component-failed"

structure ActionResult where
  outcome : ComponentOutcome
  verificationMethod : String

variable [Platform]

/-! ## Component results -/

def successfulResult (component : DeletionTarget) (execution : LocalDeletionExecution)
    (action : ActionResult) : Except SqliteError ComponentResult := do
  (ComponentResult.new
    { componentKey := component.params.componentKey
      componentType := component.params.componentType
      targetRef := component.params.targetRef
      requiredAction := component.params.requiredAction
      targetCount := component.params.targetCount
      processedCount := component.params.targetCount
      status := .succeeded
      outcome := action.outcome
      verificationMethod := ← nonEmptyText action.verificationMethod
      checkedAt := execution.checkedAt
      errorCode := none
      retryable := none
      retentionBasis :=
        if action.outcome = .retainedMinimal then some execution.retentionBasis
        else none }).mapError deletionCore

def failedResult (component : DeletionTarget) (execution : LocalDeletionExecution) :
    Except SqliteError ComponentResult := do
  (ComponentResult.new
    { componentKey := component.params.componentKey
      componentType := component.params.componentType
      targetRef := component.params.targetRef
      requiredAction := component.params.requiredAction
      targetCount := component.params.targetCount
      processedCount := 0
      status := .failed
      outcome := .notApplicable
      verificationMethod := ← nonEmptyText "sqlite-component-transaction-v1"
      checkedAt := execution.checkedAt
      errorCode := some (← nonEmptyText componentErrorCode)
      retryable := some true
      retentionBasis := none }).mapError deletionCore

/-! ## The frozen closure -/

section Tables

omit [Platform]

def deletionExecutionError : SqliteError :=
  .deletionInvariant .deletionExecution

def loadExecutionClosure (db : Database) (deleteRequestId : Identifier)
    (componentType : DeletionComponentType) : Except SqliteError (List ObjectRef) :=
  loadChildren storedDeletion db.executionClosure (deleteRequestId, componentType)

def requireClosureType (targets : List ObjectRef) (expected : CanonicalObjectType) :
    Except SqliteError Unit :=
  require (∀ target ∈ targets, target.objectType = expected) deletionExecutionError

/-- The outcome of an action, when it found something and when it did not. -/
def outcomeWhen (found : Bool) (outcome : ComponentOutcome) : ComponentOutcome :=
  if found then outcome else .notFound

/-! ## Sources -/

def deleteSourceBodies (db : Database) (targets : List ObjectRef) :
    Except SqliteError (ActionResult × Database) := do
  requireClosureType targets .sourceArtifact
  let ids := targets.map ObjectRef.objectId
  let selected := fun row : BodyRow => ids.contains row.sourceId
  return ({ outcome := outcomeWhen (db.bodies.any selected) .deleted
            verificationMethod := "sqlite-row-absence-v1" },
    { db with bodies := deleteWhere selected db.bodies })

def SourceRow.redact (row : SourceRow) : SourceRow :=
  { row with title := none, originRef := none }

def redactSourceMetadata (db : Database) (targets : List ObjectRef) :
    Except SqliteError (ActionResult × Database) := do
  requireClosureType targets .sourceArtifact
  let ids := targets.map ObjectRef.objectId
  let selected := fun row : SourceRow => ids.contains row.sourceId
  return ({ outcome := outcomeWhen (db.sources.any selected) .retainedMinimal
            verificationMethod := "sqlite-minimal-metadata-v1" },
    { db with sources := updateWhere selected SourceRow.redact db.sources })

/-- Some proposal or record still links the fragment. -/
def fragmentIsLinked (db : Database) (fragmentId : Identifier) : Bool :=
  db.proposalFragments.any (·.value == fragmentId) ||
    db.recordFragments.any (·.value == fragmentId)

/-- The headings go first; the fragment rows are restricted by the links that reference them. -/
def deleteSourceFragments (db : Database) (targets : List ObjectRef) :
    Except SqliteError (ActionResult × Database) := do
  requireClosureType targets .sourceFragment
  let ids := targets.map ObjectRef.objectId
  let selected := fun row : FragmentRow => ids.contains row.fragmentId
  require (∀ row ∈ db.fragments, selected row = true →
      fragmentIsLinked db row.fragmentId = false) (SqliteError.storage .foreignKey)
  return ({ outcome := outcomeWhen (db.fragments.any selected) .deleted
            verificationMethod := "sqlite-row-absence-v1" },
    { db with
      headings := deleteWhere (fun row => ids.contains row.owner) db.headings
      fragments := deleteWhere selected db.fragments })

end Tables

/-! ## Memories -/

/-- The text of the marker and the value of its digest; the profile column is not written. -/
def redactContent (content : MemoryValueParams) : MemoryValueParams :=
  { text := redactionMarker
    contentDigest := { content.contentDigest with
      value := (computeNfcTextDigest redactionMarker.asStr).value } }

def ProposalRow.redact (row : ProposalRow) : ProposalRow :=
  { row with content := redactContent row.content }

def RecordRow.redact (row : RecordRow) : RecordRow :=
  { row with content := redactContent row.content }

def redactMemoryProposals (db : Database) (targets : List ObjectRef) :
    Except SqliteError (ActionResult × Database) := do
  requireClosureType targets .memoryProposal
  let ids := targets.map ObjectRef.objectId
  let selected := fun row : ProposalRow => ids.contains row.proposalId
  return ({ outcome := outcomeWhen (db.proposals.any selected) .redacted
            verificationMethod := "sqlite-content-redaction-v1" },
    { db with
      proposalFragments := deleteWhere (fun link => ids.contains link.owner)
        db.proposalFragments
      proposals := updateWhere selected ProposalRow.redact db.proposals })

def redactMemoryRecords (db : Database) (targets : List ObjectRef) :
    Except SqliteError (ActionResult × Database) := do
  requireClosureType targets .memoryRecord
  let ids := targets.map ObjectRef.objectId
  let selected := fun row : RecordRow => ids.contains row.memoryId
  return ({ outcome := outcomeWhen (db.records.any selected) .redacted
            verificationMethod := "sqlite-content-redaction-v1" },
    { db with
      recordFragments := deleteWhere (fun link => ids.contains link.owner) db.recordFragments
      records := updateWhere selected RecordRow.redact db.records })

section Tables

omit [Platform]

def DecisionRow.clearReason (row : DecisionRow) : DecisionRow :=
  { row with reasonText := none }

def retainMemoryDecisions (db : Database) (targets : List ObjectRef) :
    Except SqliteError (ActionResult × Database) := do
  requireClosureType targets .memoryDecision
  let ids := targets.map ObjectRef.objectId
  let selected := fun row : DecisionRow => ids.contains row.decisionId
  return ({ outcome := outcomeWhen (db.decisions.any selected) .retainedMinimal
            verificationMethod := "sqlite-minimal-decision-v1" },
    { db with decisions := updateWhere selected DecisionRow.clearReason db.decisions })

def retainMemoryEvents (db : Database) (targets : List ObjectRef) :
    Except SqliteError (ActionResult × Database) := do
  requireClosureType targets .memoryStateEvent
  let ids := targets.map ObjectRef.objectId
  return ({ outcome := outcomeWhen (db.events.any fun row => ids.contains row.eventId)
              .retainedMinimal
            verificationMethod := "sqlite-minimal-state-event-v1" }, db)

/-! ## Derived rows and audit -/

/-- No row of the key is left after the delete, so the check that follows it cannot fail. -/
def deleteFullTextRows (db : Database) (targets : List ObjectRef) :
    Except SqliteError (ActionResult × Database) := do
  let keys ← targets.mapM recallKeyOf
  let selected := fun row : RecallRow => keys.contains row.key
  return ({ outcome := outcomeWhen (db.recallFts.any selected) .deleted
            verificationMethod := "sqlite-fts-row-absence-v1" },
    { db with recallFts := deleteWhere selected db.recallFts })

def verifyContextCacheAbsent (db : Database) (targets : List ObjectRef) :
    Except SqliteError (ActionResult × Database) := do
  require (targets.isEmpty = true) deletionExecutionError
  return ({ outcome := .notFound
            verificationMethod := "m0-context-cache-not-persisted-v1" }, db)

def sourceLineageOf (db : Database) (namespaceId sourceId : Identifier) :
    Except SqliteError Identifier := do
  let row ← ((lookup SourceRow.sourceId db.sources sourceId).filter
    (·.namespaceId == namespaceId)).orError storageError
  return row.lineageId

/-- The binding belongs to one of the lineages. -/
def bindingIsPurged (namespaceId : Identifier) (lineages : List Identifier) (row : BindingRow) :
    Bool :=
  row.namespaceId == namespaceId && lineages.contains row.lineageId

/-- The audit row is of a source of the lineages, or goes with its binding. -/
def auditIsPurged (db : Database) (namespaceId : Identifier) (lineages : List Identifier)
    (row : AuditRow) : Bool :=
  (row.namespaceId == namespaceId && db.sources.any fun source =>
    source.sourceId == row.sourceId && source.namespaceId == namespaceId &&
      lineages.contains source.lineageId) ||
  db.bindings.any fun binding =>
    bindingIsPurged namespaceId lineages binding &&
      binding.namespaceId == row.namespaceId && binding.originBindingId == row.originBindingId

/-- Remove the audit rows and bindings of the targets' lineages, which must have lost their
tips. -/
def purgeSourceEntryState (db : Database) (namespaceId : Identifier)
    (sourceIds : List Identifier) : Except SqliteError Database := do
  let lineages ← sourceIds.mapM (sourceLineageOf db namespaceId)
  require (∀ tip ∈ db.tips, tip.namespaceId = namespaceId → tip.lineageId ∉ lineages)
    deletionExecutionError
  return { db with
    captureAudit := deleteWhere (auditIsPurged db namespaceId lineages) db.captureAudit
    bindings := deleteWhere (bindingIsPurged namespaceId lineages) db.bindings }

/-- Set the state of every source, proposal and record of the closure. -/
def finalizeGovernanceState (db : Database) (deleteRequestId : Identifier)
    (state : DeletionState) : Except SqliteError Database := do
  let sources ← loadExecutionClosure db deleteRequestId .sourceMetadata
  let proposals ← loadExecutionClosure db deleteRequestId .memoryProposal
  let records ← loadExecutionClosure db deleteRequestId .memoryRecord
  return { db with
    sources := updateWhere
      (fun row => (sources.map ObjectRef.objectId).contains row.sourceId)
      (SourceRow.setState state) db.sources
    proposals := updateWhere
      (fun row => (proposals.map ObjectRef.objectId).contains row.proposalId)
      (ProposalRow.setState state) db.proposals
    records := updateWhere
      (fun row => (records.map ObjectRef.objectId).contains row.memoryId)
      (RecordRow.setState state) db.records }

/-- The last action: it runs after nine results are stored, purges the entry state of the
sources and gives every closed object its final state. -/
def retainMinimalAudit (db : Database) (namespaceId deleteRequestId : Identifier)
    (targets : List ObjectRef) (attemptOrdinal : Nat) (hasFailed : Bool) :
    Except SqliteError (ActionResult × Database) := do
  let requestTargets := idsOfType .deleteRequest targets
  let sourceTargets := idsOfType .sourceArtifact targets
  require (requestTargets = [deleteRequestId] ∧
      requestTargets.length + sourceTargets.length = targets.length) deletionExecutionError
  require (db.results.countP (fun row => row.deleteRequestId == deleteRequestId &&
      row.attemptOrdinal == attemptOrdinal) = 9) deletionExecutionError
  let db ← purgeSourceEntryState db namespaceId sourceTargets
  let db ← finalizeGovernanceState db deleteRequestId (if hasFailed then .failed else .deleted)
  return ({ outcome := .retainedMinimal
            verificationMethod := "sqlite-minimal-audit-chain-v1" }, db)

end Tables

def executeComponentAction (db : Database) (namespaceId deleteRequestId : Identifier)
    (componentType : DeletionComponentType) (attemptOrdinal : Nat) (hasFailed : Bool) :
    Except SqliteError (ActionResult × Database) := do
  let targets ← loadExecutionClosure db deleteRequestId componentType
  match componentType with
  | .sourceBody => deleteSourceBodies db targets
  | .sourceMetadata => redactSourceMetadata db targets
  | .sourceFragment => deleteSourceFragments db targets
  | .memoryProposal => redactMemoryProposals db targets
  | .memoryDecision => retainMemoryDecisions db targets
  | .memoryRecord => redactMemoryRecords db targets
  | .memoryStateEvent => retainMemoryEvents db targets
  | .fullTextIndex => deleteFullTextRows db targets
  | .contextCache => verifyContextCacheAbsent db targets
  | .minimalAudit =>
    retainMinimalAudit db namespaceId deleteRequestId targets attemptOrdinal hasFailed

end RadishMemory
