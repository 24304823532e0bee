import RadishMemory.Construction.Core.Source
import RadishMemory.Construction.Core.Memory
import RadishMemory.Construction.Core.Deletion

/-!
# Relations between canonical objects

The rules that several valid objects must satisfy together.  The storage adapter calls them
before it writes and again when it reads: a fragment against its source, a proposal against the
fragments it cites, a record against its proposal and decision, an event chain against the
state it projects to, a superseding record against the records it closes, and evidence against
the plan it answers.
-/

namespace RadishMemory

def crossError (reason : CrossObjectInvariantReason) : CoreError :=
  .crossObjectInvariant reason

def sensitivityRank : Sensitivity → Nat
  | .personal => 0
  | .sensitive => 1
  | .restricted => 2

/-- A derived object may not be kept longer than its source. -/
def retentionIsNoLater (derived source : Governance) : Bool :=
  match derived.retention.mode, source.retention.mode with
  | .untilDeleted, .untilDeleted => true
  | .untilTime, .untilDeleted => true
  | .untilTime, .untilTime =>
    match derived.retention.expiresAt, source.retention.expiresAt with
    | none, _ => true
    | some _, none => false
    | some left, some right => decide (left ≤ right)
  | .policy, .policy => derived.retention.policyId == source.retention.policyId
  | _, _ => false

def validateGovernanceDerivation (derived : Governance) (sources : List Governance) :
    Except CoreError Unit := do
  require (sources ≠ []) (crossError .missingReference)
  checkAll (fun source => require
      (¬ (sensitivityRank derived.sensitivity < sensitivityRank source.sensitivity) ∧
        retentionIsNoLater derived source = true ∧
        ¬ (source.deletionState ≠ .active ∧ derived.deletionState = .active))
      (crossError .governanceMismatch)) sources

def requireNamespace (expected actual : Identifier) : Except CoreError Unit :=
  require (expected = actual) (crossError .namespaceMismatch)

def requireRecallable (governance : Governance) : Except CoreError Unit :=
  require (governance.deletionState = .active) (crossError .recallBlocked)

/-- Two identifier lists name the same set. -/
def sameIdentifierSet (left right : List Identifier) : Bool :=
  left.all (· ∈ right) && right.all (· ∈ left)

def requireExactIds (expected actual : List Identifier) : Except CoreError Unit := do
  require actual.Nodup (crossError .duplicateObject)
  require (sameIdentifierSet expected actual = true) (crossError .missingReference)

/-! ## Sources -/

section Sources

variable [Platform]

def validateSourceFragmentResolution (fragment : SourceFragment) (source : SourceArtifact) :
    Except CoreError Unit := do
  require (fragment.params.sourceId = source.params.sourceId) (crossError .identityMismatch)
  requireNamespace fragment.params.namespaceId source.params.namespaceId
  requireRecallable source.params.governance
  validateGovernanceDerivation fragment.params.governance [source.params.governance]
  require (sliceBytes source.params.content.asStr fragment.params.byteStart
      fragment.params.byteEnd = some fragment.params.content.asStr)
    (crossError .sourceSliceMismatch)

/-- The loop of the complete-set check: ordinals count up, ranges abut, ids do not repeat. -/
def validateFragmentsFrom (source : SourceArtifact) (expectedOrdinal nextByte : Nat)
    (fragmentIds : List Identifier) : List SourceFragment → Except CoreError Nat
  | [] => .ok nextByte
  | fragment :: rest => do
    validateSourceFragmentResolution fragment source
    require ((fragment.params.governance == source.params.governance) = true ∧
        fragment.params.fragmentId ∉ fragmentIds ∧
        fragment.params.ordinal = expectedOrdinal ∧
        fragment.params.byteStart = nextByte)
      (crossError .fragmentSetMismatch)
    validateFragmentsFrom source (expectedOrdinal + 1) fragment.params.byteEnd
      (fragment.params.fragmentId :: fragmentIds) rest

def validateCompleteSourceFragmentSet (source : SourceArtifact)
    (fragments : List SourceFragment) : Except CoreError Unit := do
  require (fragments ≠ []) (crossError .fragmentSetMismatch)
  let nextByte ← validateFragmentsFrom source 0 0 [] fragments
  require (nextByte = source.params.contentLength) (crossError .fragmentSetMismatch)

/-- One complete capture of a file: its binding, the source and an exact partition of it. -/
structure SourceCaptureParams where
  originBindingId : Identifier
  source : SourceArtifact
  fragments : List SourceFragment

def SourceCaptureParams.check (params : SourceCaptureParams) : Except CoreError Unit := do
  require (params.source.params.originKind = .explicitUserInput ∧
      sourceOriginBindingIdIsValid params.originBindingId.asStr = true ∧
      params.source.params.originRef.map NonEmptyText.asStr =
        some params.originBindingId.asStr)
    (crossError .originBindingMismatch)
  validateCompleteSourceFragmentSet params.source params.fragments

abbrev SourceCapture :=
  Checked SourceCaptureParams.check

/-! ## Proposals and records -/

/-- A fragment with the source that its `sourceId` names. -/
structure ResolvedSource where
  fragment : SourceFragment
  source : SourceArtifact

def validateMemoryProposalSources (proposal : MemoryProposal) (sources : List ResolvedSource) :
    Except CoreError Unit := do
  requireExactIds proposal.params.sourceFragmentRefs
    (sources.map fun resolved => resolved.fragment.params.fragmentId)
  requireRecallable proposal.params.governance
  checkAll (fun resolved => do
      requireNamespace proposal.params.namespaceId resolved.fragment.params.namespaceId
      requireNamespace proposal.params.namespaceId resolved.source.params.namespaceId
      validateSourceFragmentResolution resolved.fragment resolved.source
      requireRecallable resolved.fragment.params.governance) sources
  validateGovernanceDerivation proposal.params.governance
    (sources.map fun resolved => resolved.fragment.params.governance)

/-- Accept, record and initial event name each other. -/
def materializationIdsMatch (proposal : MemoryProposal) (decision : MemoryDecision)
    (record : MemoryRecord) (initialEvent : MemoryStateEvent) : Bool :=
  decision.params.proposalId == proposal.params.proposalId &&
  decision.params.decision == .accept &&
  decision.params.resultMemoryId == some record.params.memoryId &&
  record.params.originProposalId == proposal.params.proposalId &&
  record.params.acceptedByDecisionId == decision.params.decisionId &&
  initialEvent.params.memoryId == record.params.memoryId &&
  initialEvent.params.eventType == .confirmed &&
  initialEvent.params.causeRef.evidenceType == .memoryDecision &&
  initialEvent.params.causeRef.evidenceId == decision.params.decisionId

/-- A record repeats what its proposal proposed. -/
def materializationContentMatches (proposal : MemoryProposal) (record : MemoryRecord) : Bool :=
  record.params.memoryType == proposal.params.memoryType &&
  record.params.subjectRef == proposal.params.subjectRef &&
  record.params.content == proposal.params.proposedContent &&
  sameIdentifierSet record.params.sourceFragmentRefs proposal.params.sourceFragmentRefs &&
  record.params.observedAt == proposal.params.observedAt &&
  record.params.validTime == proposal.params.validTime &&
  record.params.confidence == proposal.params.confidence &&
  record.params.importance == proposal.params.importance &&
  sameIdentifierSet record.params.supersedesMemoryIds proposal.params.targetMemoryIds

def validateMemoryMaterialization (proposal : MemoryProposal) (decision : MemoryDecision)
    (record : MemoryRecord) (initialEvent : MemoryStateEvent) : Except CoreError Unit := do
  requireNamespace proposal.params.namespaceId decision.params.namespaceId
  requireNamespace proposal.params.namespaceId record.params.namespaceId
  requireNamespace proposal.params.namespaceId initialEvent.params.namespaceId
  requireRecallable proposal.params.governance
  requireRecallable record.params.governance
  require (materializationIdsMatch proposal decision record initialEvent = true)
    (crossError .materializationMismatch)
  require (materializationContentMatches proposal record = true)
    (crossError .materializationMismatch)
  validateGovernanceDerivation record.params.governance [proposal.params.governance]
  require (record.params.currentState = .confirmed ∧
      record.params.lastStateEventId = initialEvent.params.eventId ∧
      initialEvent.params.previousEventId = none ∧
      initialEvent.params.fromState = none ∧
      initialEvent.params.effectiveAt.isNone = true ∧
      initialEvent.params.toState = .confirmed)
    (crossError .stateProjectionMismatch)

/-! ## Event chains -/

/-- Follow `previousEventId` forward from `current`; return the last event and all visited ids.
The walk stops by itself when it meets an event twice, so it never outruns a bound above the
number of events. -/
def walkEventChain (events : List MemoryStateEvent) :
    Nat → MemoryStateEvent → List Identifier →
      Except CoreError (MemoryStateEvent × List Identifier)
  | 0, _, _ => .error (crossError .eventChainConflict)
  | bound + 1, current, visited => do
    require (current.params.eventId ∉ visited) (crossError .eventChainConflict)
    let visited := current.params.eventId :: visited
    match events.filter (·.params.previousEventId == some current.params.eventId) with
    | [] => .ok (current, visited)
    | [next] => do
      require (next.params.fromState = some current.params.toState)
        (crossError .eventChainConflict)
      walkEventChain events bound next visited
    | _ => .error (crossError .eventChainConflict)

/-- Every event belongs to the record, and no event id occurs twice. -/
def indexEvents (record : MemoryRecord) (seen : List Identifier) :
    List MemoryStateEvent → Except CoreError Unit
  | [] => .ok ()
  | event :: rest => do
    requireNamespace record.params.namespaceId event.params.namespaceId
    require (event.params.memoryId = record.params.memoryId) (crossError .identityMismatch)
    require (event.params.eventId ∉ seen) (crossError .duplicateObject)
    indexEvents record (event.params.eventId :: seen) rest

/-- An unordered event set is one unbranched chain, and it ends in the record's state. -/
def validateMemoryEventChain (record : MemoryRecord) (events : List MemoryStateEvent) :
    Except CoreError Unit := do
  require (events ≠ []) (crossError .missingReference)
  indexEvents record [] events
  match events.filter (·.params.previousEventId == none) with
  | [initial] => do
    require (initial.params.eventType = .confirmed) (crossError .eventChainConflict)
    let (last, visited) ← walkEventChain events (events.length + 1) initial []
    require (visited.length = events.length) (crossError .eventChainConflict)
    require (record.params.currentState = last.params.toState ∧
        record.params.lastStateEventId = last.params.eventId)
      (crossError .stateProjectionMismatch)
  | _ => .error (crossError .eventChainConflict)

/-! ## Supersession -/

/-- An old record with the event that closes it. -/
structure SupersededTarget where
  record : MemoryRecord
  supersededEvent : MemoryStateEvent

/-- The closing event of a target names the new record, and the target projects to it. -/
def supersededTargetMatches (newRecord : MemoryRecord) (target : SupersededTarget) : Bool :=
  target.record.params.lineageId == newRecord.params.lineageId &&
  target.record.params.currentState == .superseded &&
  target.record.params.lastStateEventId == target.supersededEvent.params.eventId &&
  target.supersededEvent.params.memoryId == target.record.params.memoryId &&
  target.supersededEvent.params.eventType == .superseded &&
  target.supersededEvent.params.causeRef.evidenceType == .memoryRecord &&
  target.supersededEvent.params.causeRef.evidenceId == newRecord.params.memoryId &&
  target.supersededEvent.params.relatedMemoryIds.contains newRecord.params.memoryId

/-- When the new record starts at a known time, the old one ends at that time.  A record of
unknown valid time has no start, and nothing is compared. -/
def supersessionTimesAlign (newRecord : MemoryRecord) (target : SupersededTarget) : Bool :=
  match newRecord.params.validTime.startAt with
  | some startAt => target.supersededEvent.params.effectiveAt == some startAt
  | none => true

def validateMemorySupersession (proposal : MemoryProposal) (newRecord : MemoryRecord)
    (targets : List SupersededTarget) : Except CoreError Unit := do
  require (proposal.params.operation = .supersede) (crossError .supersessionMismatch)
  requireNamespace proposal.params.namespaceId newRecord.params.namespaceId
  requireExactIds proposal.params.targetMemoryIds
    (targets.map fun target => target.record.params.memoryId)
  require (sameIdentifierSet newRecord.params.supersedesMemoryIds
      proposal.params.targetMemoryIds = true)
    (crossError .supersessionMismatch)
  checkAll (fun target => do
      requireNamespace proposal.params.namespaceId target.record.params.namespaceId
      requireNamespace proposal.params.namespaceId target.supersededEvent.params.namespaceId
      require (supersededTargetMatches newRecord target = true)
        (crossError .supersessionMismatch)
      require (supersessionTimesAlign newRecord target = true)
        (crossError .timeAlignmentMismatch)) targets
  require ((targets.map fun target => target.record.params.version.get).foldl max 0 + 1 =
      newRecord.params.version.get)
    (crossError .supersessionMismatch)

/-! ## Deletion evidence -/

def validateDeletionEvidence (request : DeleteRequest) (evidence : DeletionEvidence) :
    Except CoreError Unit := do
  requireNamespace request.params.namespaceId evidence.params.namespaceId
  require (evidence.params.deleteRequestId = request.params.deleteRequestId ∧
      evidence.params.deviceId = request.params.deviceId)
    (crossError .identityMismatch)
  require (¬ evidence.params.startedAt < request.params.requestedAt)
    (crossError .timeAlignmentMismatch)
  require (evidence.params.componentResults.map
      fun result => result.params.componentKey).Nodup
    (crossError .duplicateObject)
  require (evidence.params.componentResults.length = request.params.plannedComponents.length)
    (crossError .deletionPlanMismatch)
  checkAll (fun target => do
      let result ← (evidence.params.componentResults.find? fun result =>
        result.params.componentKey == target.params.componentKey).orError
          (crossError .deletionPlanMismatch)
      require (result.params.componentType = target.params.componentType ∧
          result.params.targetRef = target.params.targetRef ∧
          result.params.requiredAction = target.params.requiredAction ∧
          result.params.targetCount = target.params.targetCount)
        (crossError .deletionPlanMismatch)) request.params.plannedComponents
  require (evidence.params.overallStatus = .completed →
      ∀ result ∈ evidence.params.componentResults, result.params.status = .succeeded)
    (crossError .deletionPlanMismatch)

end Sources

end RadishMemory
