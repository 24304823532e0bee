import RadishMemory.Construction.Sqlite.SourceStore
import RadishMemory.Framework.Chain

/-!
# Storing and loading memories

Reading a record rebuilds its whole closure: the origin proposal with its fragments and sources,
the accepting decision with its chain, the event chain, and, for a superseding record, the
records it superseded, recursively.  Each part is validated again with the rules that were
applied when it was written, except that a superseded record checks the record that superseded
it through `validateStoredSupersessionCause`, which reads the stored rows directly.
-/

namespace RadishMemory

variable [Platform]

/-! ## Rows -/

def ProposalRow.ofProposal (params : MemoryProposalParams) : ProposalRow :=
  { proposalId := params.proposalId
    namespaceId := params.namespaceId
    operation := params.operation
    memoryType := params.memoryType
    subjectRef := params.subjectRef
    content := params.proposedContent.params
    observedAt := params.observedAt
    validTime := params.validTime
    confidence := params.confidence
    importance := params.importance
    governance := params.governance
    producer := params.producer
    reasonCode := params.reasonCode
    proposedAt := params.proposedAt }

def RecordRow.ofRecord (params : MemoryRecordParams) : RecordRow :=
  { memoryId := params.memoryId
    lineageId := params.lineageId
    version := params.version
    namespaceId := params.namespaceId
    memoryType := params.memoryType
    subjectRef := params.subjectRef
    content := { text := params.content.params.text, contentDigest := params.contentDigest }
    originProposalId := params.originProposalId
    acceptedByDecisionId := params.acceptedByDecisionId
    observedAt := params.observedAt
    validTime := params.validTime
    confidence := params.confidence
    importance := params.importance
    governance := params.governance
    createdAt := params.createdAt }

omit [Platform] in
def EventRow.ofEvent (params : MemoryStateEventParams) : EventRow :=
  { eventId := params.eventId
    namespaceId := params.namespaceId
    memoryId := params.memoryId
    previousEventId := params.previousEventId
    eventType := params.eventType
    fromState := params.fromState
    causeRef := params.causeRef
    actor := params.actor
    reasonCode := params.reasonCode
    effectiveAt := params.effectiveAt
    occurredAt := params.occurredAt }

def ProposalRow.intoDomain (row : ProposalRow)
    (sourceFragmentRefs targetMemoryIds : List Identifier) :
    Except SqliteError MemoryProposal := do
  let proposedContent ← (MemoryValue.new row.content.text row.content.contentDigest).mapError
    invalidCore
  (MemoryProposal.new
    { proposalId := row.proposalId
      namespaceId := row.namespaceId
      operation := row.operation
      memoryType := row.memoryType
      subjectRef := row.subjectRef
      proposedContent
      sourceFragmentRefs
      targetMemoryIds
      observedAt := row.observedAt
      validTime := row.validTime
      confidence := row.confidence
      importance := row.importance
      governance := row.governance
      producer := row.producer
      reasonCode := row.reasonCode
      proposedAt := row.proposedAt }).mapError invalidCore

def RecordRow.intoDomain (row : RecordRow)
    (sourceFragmentRefs supersedesMemoryIds contradictsMemoryIds : List Identifier)
    (currentState : MemoryState) (lastStateEventId : Identifier) :
    Except SqliteError MemoryRecord := do
  let content ← (MemoryValue.new row.content.text row.content.contentDigest).mapError invalidCore
  (MemoryRecord.new
    { memoryId := row.memoryId
      lineageId := row.lineageId
      version := row.version
      namespaceId := row.namespaceId
      memoryType := row.memoryType
      subjectRef := row.subjectRef
      content
      sourceFragmentRefs
      originProposalId := row.originProposalId
      acceptedByDecisionId := row.acceptedByDecisionId
      observedAt := row.observedAt
      validTime := row.validTime
      confidence := row.confidence
      importance := row.importance
      governance := row.governance
      currentState
      lastStateEventId
      supersedesMemoryIds
      contradictsMemoryIds
      contentDigest := content.params.contentDigest
      createdAt := row.createdAt }).mapError invalidCore

omit [Platform] in
def EventRow.intoDomain (row : EventRow) (relatedMemoryIds : List Identifier) :
    Except SqliteError MemoryStateEvent :=
  (MemoryStateEvent.new
    { eventId := row.eventId
      namespaceId := row.namespaceId
      memoryId := row.memoryId
      previousEventId := row.previousEventId
      eventType := row.eventType
      fromState := row.fromState
      causeRef := row.causeRef
      relatedMemoryIds
      actor := row.actor
      reasonCode := row.reasonCode
      effectiveAt := row.effectiveAt
      occurredAt := row.occurredAt }).mapError invalidCore

/-! ## Existence and lists -/

section Tables

omit [Platform]

def storedMismatch : SqliteError :=
  .invalidStored .storedIntegrityMismatch

def loadIdentifierList (rows : List (Child Identifier Identifier)) (parentId : Identifier) :
    Except SqliteError (List Identifier) :=
  loadChildren storedMismatch rows parentId

def memoryExistsInNamespace (db : Database) (namespaceId memoryId : Identifier) : Bool :=
  db.records.any fun row => row.namespaceId == namespaceId && row.memoryId == memoryId

def decisionExistsInNamespace (db : Database) (namespaceId decisionId : Identifier) : Bool :=
  db.decisions.any fun row => row.namespaceId == namespaceId && row.decisionId == decisionId

/-- The active row of a proposal in its namespace; `proposal_id` is the primary key. -/
def activeProposalRow (db : Database) (namespaceId proposalId : Identifier) :
    Option ProposalRow :=
  (lookup ProposalRow.proposalId db.proposals proposalId).filter fun row =>
    row.namespaceId == namespaceId && row.governance.deletionState == .active

/-- The active row of a record in its namespace; `memory_id` is the primary key. -/
def activeRecordRow (db : Database) (namespaceId memoryId : Identifier) : Option RecordRow :=
  (lookup RecordRow.memoryId db.records memoryId).filter fun row =>
    row.namespaceId == namespaceId && row.governance.deletionState == .active

/-- How a missing or inconsistent chain is reported, on reads and on writes. -/
def chainError (stored : Bool) : SqliteError :=
  if stored then storedMismatch else .memoryInvariant .decisionChain

end Tables

/-! ## Proposals -/

/-- The fragments a proposal cites, resolved to their sources. -/
def resolveFragments (loadSource : SourceLoader) (db : Database) (namespaceId : Identifier)
    (missing : SqliteError) (fragmentIds : List Identifier) :
    Except SqliteError (List ResolvedSource) :=
  fragmentIds.mapM fun fragmentId => do
    (← loadResolvedFragmentWith loadSource db namespaceId fragmentId).orError missing

def validateProposalSources (loadSource : SourceLoader) (db : Database)
    (proposal : MemoryProposal) (stored : Bool) : Except SqliteError Unit := do
  let resolved ← resolveFragments loadSource db proposal.params.namespaceId
    (if stored then storedMismatch else .memoryInvariant .missingFragment)
    proposal.params.sourceFragmentRefs
  (validateMemoryProposalSources proposal resolved).mapError fun _ =>
    if stored then storedMismatch else .memoryInvariant .proposalSourceResolution

def loadMemoryProposalWith (loadSource : SourceLoader) (db : Database)
    (namespaceId proposalId : Identifier) : Except SqliteError (Option MemoryProposal) :=
  match activeProposalRow db namespaceId proposalId with
  | none => .ok none
  | some row => do
    let sources ← loadIdentifierList db.proposalFragments proposalId
    let targets ← loadIdentifierList db.proposalTargets proposalId
    let proposal ← row.intoDomain sources targets
    validateProposalSources loadSource db proposal true
    require (∀ targetId ∈ proposal.params.targetMemoryIds,
        memoryExistsInNamespace db namespaceId targetId = true) storedMismatch
    return some proposal

def loadMemoryProposal (db : Database) (namespaceId proposalId : Identifier) :
    Except SqliteError (Option MemoryProposal) :=
  loadMemoryProposalWith loadSourceArtifact db namespaceId proposalId

/-! ## Decisions -/

section Decisions

omit [Platform]

/-- Follow the decision chain from `current`; only a deferral may be followed. -/
def walkDecisionChain (decisions : List MemoryDecision) (stored : Bool) :
    Nat → MemoryDecision → List Identifier →
      Except SqliteError (MemoryDecision × List Identifier)
  | 0, _, _ => .error (chainError stored)
  | bound + 1, current, visited => do
    require (current.params.decisionId ∉ visited) (chainError stored)
    let visited := current.params.decisionId :: visited
    match decisions.filter
      (·.params.previousDecisionId == some current.params.decisionId) with
    | [] => .ok (current, visited)
    | [next] => do
      require (current.params.decision = .defer) (chainError stored)
      walkDecisionChain decisions stored bound next visited
    | _ => .error (chainError stored)

def decisionChainTip (decisions : List MemoryDecision) (stored : Bool) :
    Except SqliteError (Option MemoryDecision) :=
  match decisions with
  | [] => .ok none
  | _ =>
    match decisions.filter (·.params.previousDecisionId == none) with
    | [root] => do
      let (tip, visited) ← walkDecisionChain decisions stored (decisions.length + 1) root []
      require (visited.length = decisions.length) (chainError stored)
      return some tip
    | _ => .error (chainError stored)

def orderDecisionChain (decisions : List MemoryDecision) :
    Except SqliteError (List MemoryDecision) :=
  (orderLinks (·.params.decisionId) (·.params.previousDecisionId) decisions).orError
    (chainError true)

end Decisions

def loadDecisionChain (db : Database) (proposal : MemoryProposal) :
    Except SqliteError (List MemoryDecision) := do
  let stored := db.decisions.filter (·.proposalId == proposal.params.proposalId)
  let decisions ← stored.mapM fun row => do
    let decision ← (MemoryDecision.new row).mapError invalidCore
    require (decision.params.namespaceId = proposal.params.namespaceId ∧
        decision.params.proposalId = proposal.params.proposalId) storedMismatch
    return decision
  let _ ← decisionChainTip decisions true
  orderDecisionChain decisions

def loadMemoryDecisionWith (loadSource : SourceLoader) (db : Database)
    (namespaceId decisionId : Identifier) : Except SqliteError (Option MemoryDecision) :=
  match db.decisions.find? fun row =>
    row.namespaceId == namespaceId && row.decisionId == decisionId with
  | none => .ok none
  | some row => do
    let proposal ← (← loadMemoryProposalWith loadSource db namespaceId row.proposalId).orError
      storedMismatch
    let decisions ← loadDecisionChain db proposal
    return decisions.find? (·.params.decisionId == decisionId)

def loadMemoryDecision (db : Database) (namespaceId decisionId : Identifier) :
    Except SqliteError (Option MemoryDecision) :=
  loadMemoryDecisionWith loadSourceArtifact db namespaceId decisionId

/-! ## Events -/

section Events

omit [Platform]

def orderEventChain (events : List MemoryStateEvent) :
    Except SqliteError (List MemoryStateEvent) :=
  (orderLinks (·.params.eventId) (·.params.previousEventId) events).orError storedMismatch

/-- Rebuild one stored event with its related memories. -/
def loadStoredEvent (db : Database) (namespaceId memoryId : Identifier) (row : EventRow) :
    Except SqliteError MemoryStateEvent := do
  let related ← loadIdentifierList db.eventRelated row.eventId
  let event ← row.intoDomain related
  require (event.params.namespaceId = namespaceId ∧ event.params.memoryId = memoryId)
    storedMismatch
  return event

def loadEventChain (db : Database) (namespaceId memoryId : Identifier) :
    Except SqliteError (List MemoryStateEvent) := do
  let events ← (db.events.filter (·.memoryId == memoryId)).mapM
    (loadStoredEvent db namespaceId memoryId)
  orderEventChain events

end Events

/-- A cause that does not exist yet may be the record being written. -/
def isPending (pendingRecord : Option MemoryRecord) (namespaceId memoryId : Identifier) : Bool :=
  pendingRecord.any fun pending =>
    pending.params.namespaceId == namespaceId && pending.params.memoryId == memoryId

def validateEventReferences (db : Database) (record : MemoryRecord) (event : MemoryStateEvent)
    (stored : Bool) (pendingRecord : Option MemoryRecord) : Except SqliteError Unit := do
  let namespaceId := record.params.namespaceId
  let missing := if stored then storedMismatch else .memoryInvariant .memoryReference
  let causeId := event.params.causeRef.evidenceId
  let causeExists ← match event.params.causeRef.evidenceType with
    | .memoryDecision => Except.ok (decisionExistsInNamespace db namespaceId causeId)
    | .memoryRecord => .ok (isPending pendingRecord namespaceId causeId ||
        memoryExistsInNamespace db namespaceId causeId)
    | .policyBasis => .ok true
    | .deleteRequest =>
      if stored then .ok false else .error (.memoryInvariant .unsupportedCause)
    | .sourceFragment | .memoryProposal => .ok false
  require (causeExists = true) missing
  require (∀ relatedId ∈ event.params.relatedMemoryIds,
      isPending pendingRecord namespaceId relatedId = true ∨
        memoryExistsInNamespace db namespaceId relatedId = true) missing

/-! ## Records -/

def projectRecord (record : MemoryRecord) (currentState : MemoryState)
    (lastEventId : Identifier) : Except SqliteError MemoryRecord :=
  (MemoryRecord.new { record.params with
    currentState, lastStateEventId := lastEventId }).mapError invalidCore

/-- The stored row of the record that superseded `oldRecord`, checked against the closing event.
The start of the new record's valid time and the event's effective time are compared as they
are, present or not. -/
def validateStoredSupersessionCause (db : Database) (oldRecord : MemoryRecord)
    (event : MemoryStateEvent) : Except SqliteError Unit := do
  require (event.params.causeRef.evidenceType = .memoryRecord ∧
      event.params.causeRef.evidenceId ∈ event.params.relatedMemoryIds) storedMismatch
  let newId := event.params.causeRef.evidenceId
  let metadata ← (lookup RecordRow.memoryId db.records newId).orError storedMismatch
  require (metadata.namespaceId = oldRecord.params.namespaceId ∧
      metadata.lineageId = oldRecord.params.lineageId ∧
      oldRecord.params.version.get < metadata.version.get ∧
      (metadata.validTime.startAt == event.params.effectiveAt) = true) storedMismatch
  let proposalId := metadata.originProposalId
  require ((lookup ProposalRow.proposalId db.proposals proposalId).map ProposalRow.operation =
      some .supersede) storedMismatch
  let proposalTargets ← loadIdentifierList db.proposalTargets proposalId
  let recordTargets ← loadIdentifierList db.recordSupersedes newId
  require (sameIdentifierSet proposalTargets recordTargets = true ∧
      oldRecord.params.memoryId ∈ recordTargets) storedMismatch

/-- What reading a record yields before the records it superseded are read. -/
structure LoadedRecord where
  proposal : MemoryProposal
  record : MemoryRecord
  events : List MemoryStateEvent

/-- The part of a record's closure that does not recurse. -/
def loadRecordBase (loadSource : SourceLoader) (db : Database) (namespaceId : Identifier)
    (row : RecordRow) : Except SqliteError LoadedRecord := do
  let memoryId := row.memoryId
  let sources ← loadIdentifierList db.recordFragments memoryId
  let supersedes ← loadIdentifierList db.recordSupersedes memoryId
  let contradicts ← loadIdentifierList db.recordContradicts memoryId
  let events ← loadEventChain db namespaceId memoryId
  let root ← events.head?.orError storedMismatch
  require (root.params.previousEventId = none ∧ root.params.toState = .confirmed) storedMismatch
  let initial ← row.intoDomain sources supersedes contradicts .confirmed root.params.eventId
  let proposal ← (← loadMemoryProposalWith loadSource db namespaceId
    initial.params.originProposalId).orError storedMismatch
  let decision ← (← loadMemoryDecisionWith loadSource db namespaceId
    initial.params.acceptedByDecisionId).orError storedMismatch
  (validateMemoryMaterialization proposal decision initial root).mapError fun _ => storedMismatch
  let tip ← events.getLast?.orError storedMismatch
  let projected ← projectRecord initial tip.params.toState tip.params.eventId
  (validateMemoryEventChain projected events).mapError fun _ => storedMismatch
  checkAll (fun event => validateEventReferences db projected event true none) events
  if tip.params.eventType = .superseded then
    validateStoredSupersessionCause db projected tip
  else .ok ()
  require (∀ targetId ∈ projected.params.contradictsMemoryIds,
      memoryExistsInNamespace db namespaceId targetId = true) storedMismatch
  return { proposal, record := projected, events }

/-- The event of a superseded target that names the record as its cause. -/
def closingEvent (record target : MemoryRecord) (events : List MemoryStateEvent) :
    Option MemoryStateEvent :=
  events.find? fun event =>
    event.params.eventId == target.params.lastStateEventId &&
    event.params.causeRef.evidenceType == .memoryRecord &&
    event.params.causeRef.evidenceId == record.params.memoryId

abbrev RecordClosure :=
  MemoryRecord × List MemoryStateEvent

/-- Read a record and, below it, the records it superseded.  `visiting` holds the records on
the path from the root, so a path never gets longer than the record table; `bound` only has to
exceed that. -/
def loadMemoryRecordClosureInner (loadSource : SourceLoader) (db : Database)
    (namespaceId : Identifier) :
    Nat → Identifier → List Identifier → Except SqliteError (Option RecordClosure)
  | 0, _, _ => .error storedMismatch
  | bound + 1, memoryId, visiting =>
    match activeRecordRow db namespaceId memoryId with
    | none => .ok none
    | some row => do
      require (memoryId ∉ visiting) storedMismatch
      let loaded ← loadRecordBase loadSource db namespaceId row
      if loaded.proposal.params.operation = .supersede then do
        let targets ← loaded.record.params.supersedesMemoryIds.mapM fun targetId => do
          let (target, targetEvents) ← (← loadMemoryRecordClosureInner loadSource db namespaceId
            bound targetId (memoryId :: visiting)).orError storedMismatch
          let event ← (closingEvent loaded.record target targetEvents).orError storedMismatch
          return ({ record := target, supersededEvent := event } : SupersededTarget)
        (validateMemorySupersession loaded.proposal loaded.record targets).mapError
          fun _ => storedMismatch
        return some (loaded.record, loaded.events)
      else return some (loaded.record, loaded.events)

def loadMemoryRecordClosureWith (loadSource : SourceLoader) (db : Database)
    (namespaceId memoryId : Identifier) : Except SqliteError (Option RecordClosure) :=
  loadMemoryRecordClosureInner loadSource db namespaceId (db.records.length + 1) memoryId []

def loadMemoryRecordClosure (db : Database) (namespaceId memoryId : Identifier) :
    Except SqliteError (Option RecordClosure) :=
  loadMemoryRecordClosureWith loadSourceArtifact db namespaceId memoryId

def loadMemoryRecord (db : Database) (namespaceId memoryId : Identifier) :
    Except SqliteError (Option MemoryRecord) := do
  return (← loadMemoryRecordClosure db namespaceId memoryId).map Prod.fst

def loadMemoryStateEvents (db : Database) (namespaceId memoryId : Identifier) :
    Except SqliteError (Option (List MemoryStateEvent)) := do
  return (← loadMemoryRecordClosure db namespaceId memoryId).map Prod.snd

/-! ## Writes -/

def validateProposalForStore (db : Database) (proposal : MemoryProposal) :
    Except SqliteError Unit := do
  validateProposalSources loadSourceArtifact db proposal false
  checkAll (fun targetId => do
      let (target, _) ← (← loadMemoryRecordClosure db proposal.params.namespaceId
        targetId).orError (.memoryInvariant .missingMemory)
      require (target.params.currentState = .confirmed) (.memoryInvariant .memoryReference))
    proposal.params.targetMemoryIds

/-- A stored proposal with the same content, sources and targets. -/
def isDuplicateProposal (db : Database) (proposal : MemoryProposal) (row : ProposalRow) : Bool :=
  row.namespaceId == proposal.params.namespaceId &&
  row.operation == proposal.params.operation &&
  row.content.contentDigest == proposal.params.proposedContent.params.contentDigest &&
  sameIdentifierSet
    ((db.proposalFragments.filter (·.owner == row.proposalId)).map Child.value)
    proposal.params.sourceFragmentRefs &&
  sameIdentifierSet
    ((db.proposalTargets.filter (·.owner == row.proposalId)).map Child.value)
    proposal.params.targetMemoryIds

def ensureProposalIsNotDuplicate (db : Database) (proposal : MemoryProposal) :
    Except SqliteError Unit :=
  require (∀ row ∈ db.proposals, isDuplicateProposal db proposal row = false)
    (.conflict .duplicateProposal)

def insertProposal (db : Database) (proposal : MemoryProposal) : Except SqliteError Database := do
  let value := proposal.params
  let db ← db.insertProposalRow (ProposalRow.ofProposal value)
  let db ← db.insertProposalFragments (enumerate value.proposalId 0 value.sourceFragmentRefs)
  db.insertProposalTargets (enumerate value.proposalId 0 value.targetMemoryIds)

def storeMemoryProposal (db : Database) (proposal : MemoryProposal) :
    Except SqliteError Database := do
  validateProposalForStore db proposal
  ensureProposalIsNotDuplicate db proposal
  insertProposal db proposal

/-- Only an empty chain or a chain that ends in a deferral can be extended. -/
def validateDecisionExtension (proposal : MemoryProposal) (decisions : List MemoryDecision)
    (decision : MemoryDecision) : Except SqliteError Unit := do
  let value := decision.params
  require (value.namespaceId = proposal.params.namespaceId ∧
      value.proposalId = proposal.params.proposalId) (.memoryInvariant .decisionChain)
  match ← decisionChainTip decisions false with
  | none => require (value.previousDecisionId = none) (.memoryInvariant .decisionChain)
  | some tip => do
    require (tip.params.decision = .defer) (.memoryInvariant .terminalDecision)
    require (value.previousDecisionId = some tip.params.decisionId)
      (.memoryInvariant .decisionChain)

def storeMemoryDecision (db : Database) (decision : MemoryDecision) :
    Except SqliteError Database := do
  let value := decision.params
  let proposal ← (← loadMemoryProposal db value.namespaceId value.proposalId).orError
    (.memoryInvariant .missingProposal)
  let decisions ← loadDecisionChain db proposal
  validateDecisionExtension proposal decisions decision
  require (∀ resultMemoryId ∈ value.resultMemoryId,
      memoryExistsInNamespace db value.namespaceId resultMemoryId = false)
    (.memoryInvariant .memoryReference)
  db.insertDecisionRow value

def validateRecordReferences (db : Database) (record : MemoryRecord) :
    Except SqliteError Unit := do
  let value := record.params
  checkAll (fun fragmentId => do
      let resolved ← loadResolvedSourceFragment db value.namespaceId fragmentId
      require (resolved.isSome = true) (.memoryInvariant .missingFragment))
    value.sourceFragmentRefs
  require (∀ targetId ∈ value.supersedesMemoryIds ++ value.contradictsMemoryIds,
      memoryExistsInNamespace db value.namespaceId targetId = true)
    (.memoryInvariant .memoryReference)

def validateEventExtension (db : Database) (record : MemoryRecord)
    (events : List MemoryStateEvent) (event : MemoryStateEvent)
    (pendingRecord : Option MemoryRecord) : Except SqliteError Unit := do
  let value := event.params
  require (value.namespaceId = record.params.namespaceId ∧
      value.memoryId = record.params.memoryId ∧
      value.previousEventId = some record.params.lastStateEventId ∧
      value.fromState = some record.params.currentState ∧
      record.params.currentState = .confirmed ∧
      events ≠ []) (.memoryInvariant .eventChain)
  validateEventReferences db record event false pendingRecord

/-- Extend the chain of a loaded record by one event and project the record to it. -/
def extendRecord (db : Database) (closure : RecordClosure) (event : MemoryStateEvent)
    (pendingRecord : Option MemoryRecord) : Except SqliteError MemoryRecord := do
  let (record, events) := closure
  validateEventExtension db record events event pendingRecord
  let projected ← projectRecord record event.params.toState event.params.eventId
  (validateMemoryEventChain projected (events ++ [event])).mapError
    fun _ => .memoryInvariant .eventChain
  return projected

def validateSupersessionForStore (db : Database) (proposal : MemoryProposal)
    (record : MemoryRecord) (supersededEvents : List MemoryStateEvent) :
    Except SqliteError (List SupersededTarget) :=
  if proposal.params.operation = .create then do
    require (supersededEvents = []) (.memoryInvariant .materialization)
    return []
  else do
    require ((supersededEvents.map fun event => event.params.memoryId).Nodup ∧
        supersededEvents.length = proposal.params.targetMemoryIds.length)
      (.memoryInvariant .materialization)
    let targets ← proposal.params.targetMemoryIds.mapM fun targetId => do
      let event ← (supersededEvents.find? (·.params.memoryId == targetId)).orError
        (.memoryInvariant .materialization)
      let closure ← (← loadMemoryRecordClosure db proposal.params.namespaceId
        targetId).orError (.memoryInvariant .missingMemory)
      let projected ← extendRecord db closure event (some record)
      return ({ record := projected, supersededEvent := event } : SupersededTarget)
    (validateMemorySupersession proposal record targets).mapError
      fun _ => .memoryInvariant .materialization
    return targets

def insertRecord (db : Database) (record : MemoryRecord) : Except SqliteError Database := do
  let value := record.params
  let _ ← memoryToI64 value.version.get
  let db ← db.insertRecordRow (RecordRow.ofRecord value)
  let db ← db.insertRecordFragments (enumerate value.memoryId 0 value.sourceFragmentRefs)
  let db ← db.insertRecordSupersedes (enumerate value.memoryId 0 value.supersedesMemoryIds)
  db.insertRecordContradicts (enumerate value.memoryId 0 value.contradictsMemoryIds)

omit [Platform] in
def insertEvent (db : Database) (event : MemoryStateEvent) : Except SqliteError Database := do
  let db ← db.insertEventRow (EventRow.ofEvent event.params)
  db.insertEventRelated (enumerate event.params.eventId 0 event.params.relatedMemoryIds)

/-- The reads and checks of a materialization: the proposal, the decision and the projected
targets. -/
def validateMaterialization (db : Database) (record : MemoryRecord)
    (initialEvent : MemoryStateEvent) (supersededEvents : List MemoryStateEvent) :
    Except SqliteError (MemoryProposal × List SupersededTarget) := do
  let params := record.params
  let proposal ← (← loadMemoryProposal db params.namespaceId params.originProposalId).orError
    (.memoryInvariant .missingProposal)
  let decision ← (← loadMemoryDecision db params.namespaceId
    params.acceptedByDecisionId).orError (.memoryInvariant .missingDecision)
  (validateMemoryMaterialization proposal decision record initialEvent).mapError
    fun _ => .memoryInvariant .materialization
  validateEventReferences db record initialEvent false (some record)
  validateRecordReferences db record
  let superseded ← validateSupersessionForStore db proposal record supersededEvents
  return (proposal, superseded)

def materializeAcceptedMemory (db : Database) (record : MemoryRecord)
    (initialEvent : MemoryStateEvent) (supersededEvents : List MemoryStateEvent) :
    Except SqliteError Database := do
  let (proposal, superseded) ←
    validateMaterialization db record initialEvent supersededEvents
  let db ← insertRecord db record
  let db ← insertEvent db initialEvent
  let db ← supersededEvents.foldlM insertEvent db
  let db ← db.insertMemoryRecord record
  let db ← superseded.foldlM (fun db target => db.updateMemoryRecord target.record) db
  (validateMemoryEventChain record [initialEvent]).mapError fun _ => .memoryInvariant .eventChain
  if superseded.isEmpty then .ok ()
  else ((validateMemorySupersession proposal record superseded).mapError
    fun _ => .memoryInvariant .materialization)
  return db

def appendMemoryStateEvent (db : Database) (event : MemoryStateEvent) :
    Except SqliteError Database := do
  require (event.params.previousEventId ≠ none ∧ event.params.eventType ≠ .superseded)
    (.memoryInvariant .materialization)
  let closure ← (← loadMemoryRecordClosure db event.params.namespaceId
    event.params.memoryId).orError (.memoryInvariant .missingMemory)
  let projected ← extendRecord db closure event none
  let db ← insertEvent db event
  db.updateMemoryRecord projected

end RadishMemory
