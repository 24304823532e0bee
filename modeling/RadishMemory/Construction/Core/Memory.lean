import RadishMemory.Construction.Core.Model

/-!
# Proposals, decisions, records and state events

A memory starts as a proposal over source fragments, is accepted by a decision, and is
materialized as a record whose state is the last event of its event chain.
-/

namespace RadishMemory

inductive ProposalOperation where
  | create
  | supersede
deriving DecidableEq, Repr

inductive MemoryType where
  | observation
  | claim
  | episode
  | preference
  | procedure
deriving DecidableEq, Repr

inductive Decision where
  | accept
  | reject
  | defer
deriving DecidableEq, Repr

inductive MemoryState where
  | confirmed
  | superseded
  | contradicted
  | retracted
  | expired
deriving DecidableEq, Repr

inductive MemoryEventType where
  | confirmed
  | superseded
  | contradicted
  | retracted
  | expired
deriving DecidableEq, Repr

/-- A new memory names no target; a superseding one names at least one. -/
def targetsAreValid (operation : ProposalOperation) (targetMemoryIds : List Identifier) : Bool :=
  match operation with
  | .create => targetMemoryIds.isEmpty
  | .supersede => !targetMemoryIds.isEmpty

def MemoryEventType.toState : MemoryEventType → MemoryState
  | .confirmed => .confirmed
  | .superseded => .superseded
  | .contradicted => .contradicted
  | .retracted => .retracted
  | .expired => .expired

structure MemoryDecisionParams where
  decisionId : Identifier
  namespaceId : Identifier
  proposalId : Identifier
  previousDecisionId : Option Identifier
  decision : Decision
  decidedBy : ActorRef
  authorizationBasis : NonEmptyText
  reasonCode : NonEmptyText
  reasonText : Option NonEmptyText
  resultMemoryId : Option Identifier
  decidedAt : Timestamp

def MemoryDecisionParams.check (params : MemoryDecisionParams) : Except CoreError Unit :=
  require ((params.decision = .accept) ↔ (params.resultMemoryId.isSome = true))
    (.invalidCanonicalObject .invalidFieldCombination)

abbrev MemoryDecision :=
  Checked MemoryDecisionParams.check

def MemoryDecision.new (params : MemoryDecisionParams) : Except CoreError MemoryDecision :=
  Checked.new MemoryDecisionParams.check params

structure MemoryStateEventParams where
  eventId : Identifier
  namespaceId : Identifier
  memoryId : Identifier
  previousEventId : Option Identifier
  eventType : MemoryEventType
  fromState : Option MemoryState
  causeRef : EvidenceRef
  relatedMemoryIds : List Identifier
  actor : ActorRef
  reasonCode : NonEmptyText
  effectiveAt : Option Timestamp
  occurredAt : Timestamp

/-- The only transitions: into `confirmed` at the start, out of it once. -/
def MemoryStateEventParams.transitionIsValid (params : MemoryStateEventParams) : Bool :=
  match params.eventType with
  | .confirmed =>
    params.previousEventId.isNone && params.fromState.isNone && params.effectiveAt.isNone &&
      params.causeRef.evidenceType == .memoryDecision
  | .superseded | .contradicted | .retracted | .expired =>
    params.previousEventId.isSome && params.fromState == some .confirmed &&
      params.effectiveAt.isSome &&
      (match params.causeRef.evidenceType with
        | .memoryDecision | .memoryRecord | .deleteRequest | .policyBasis => true
        | .sourceFragment | .memoryProposal => false)

def MemoryStateEventParams.check (params : MemoryStateEventParams) : Except CoreError Unit := do
  requireUnique params.relatedMemoryIds
  require (params.transitionIsValid = true) (.invalidCanonicalObject .invalidStateTransition)

abbrev MemoryStateEvent :=
  Checked MemoryStateEventParams.check

def MemoryStateEvent.new (params : MemoryStateEventParams) : Except CoreError MemoryStateEvent :=
  Checked.new MemoryStateEventParams.check params

def MemoryStateEventParams.toState (params : MemoryStateEventParams) : MemoryState :=
  params.eventType.toState

variable [Platform]

structure MemoryProposalParams where
  proposalId : Identifier
  namespaceId : Identifier
  operation : ProposalOperation
  memoryType : MemoryType
  subjectRef : Identifier
  proposedContent : MemoryValue
  sourceFragmentRefs : List Identifier
  targetMemoryIds : List Identifier
  observedAt : Timestamp
  validTime : ValidTime
  confidence : UnitInterval
  importance : UnitInterval
  governance : Governance
  producer : ProducerRef
  reasonCode : NonEmptyText
  proposedAt : Timestamp

def MemoryProposalParams.check (params : MemoryProposalParams) : Except CoreError Unit := do
  requireNonEmpty params.sourceFragmentRefs
  requireUnique params.sourceFragmentRefs
  requireUnique params.targetMemoryIds
  require (targetsAreValid params.operation params.targetMemoryIds = true)
    (.invalidCanonicalObject .invalidFieldCombination)

abbrev MemoryProposal :=
  Checked MemoryProposalParams.check

def MemoryProposal.new (params : MemoryProposalParams) : Except CoreError MemoryProposal :=
  Checked.new MemoryProposalParams.check params

structure MemoryRecordParams where
  memoryId : Identifier
  lineageId : Identifier
  version : Version
  namespaceId : Identifier
  memoryType : MemoryType
  subjectRef : Identifier
  content : MemoryValue
  sourceFragmentRefs : List Identifier
  originProposalId : Identifier
  acceptedByDecisionId : Identifier
  observedAt : Timestamp
  validTime : ValidTime
  confidence : UnitInterval
  importance : UnitInterval
  governance : Governance
  currentState : MemoryState
  lastStateEventId : Identifier
  supersedesMemoryIds : List Identifier
  contradictsMemoryIds : List Identifier
  contentDigest : Digest
  createdAt : Timestamp

def MemoryRecordParams.check (params : MemoryRecordParams) : Except CoreError Unit := do
  requireNonEmpty params.sourceFragmentRefs
  requireUnique params.sourceFragmentRefs
  requireUnique params.supersedesMemoryIds
  requireUnique params.contradictsMemoryIds
  requireProfile params.contentDigest params.content.params.contentDigest.profile
  require (params.contentDigest = params.content.params.contentDigest) .digestMismatch
  require ((params.version.get = 1) ↔ (params.supersedesMemoryIds = []))
    (.invalidCanonicalObject .invalidFieldCombination)

abbrev MemoryRecord :=
  Checked MemoryRecordParams.check

def MemoryRecord.new (params : MemoryRecordParams) : Except CoreError MemoryRecord :=
  Checked.new MemoryRecordParams.check params

end RadishMemory
