import RadishMemory.Construction.Core.Model
import Mathlib.Data.List.Sort

/-!
# Deletion requests, component results and evidence

A delete request names its targets and a plan of ten components.  Executing a component gives
a `ComponentResult`; the results of one execution, with an overall status, are the evidence.

The digests that bind a target closure and an evidence record are taken over canonical JSON.
For the two shapes hashed here, an array of flat objects and one object around such an array,
the canonical form is written out directly: keys in ascending order, no blanks, and the
string escapes of `writeString`.
-/

namespace RadishMemory

inductive RequestedGuarantee where
  | stopRecall
  | localPurge
deriving DecidableEq, Repr

inductive DeletionComponentType where
  | sourceBody
  | sourceMetadata
  | sourceFragment
  | memoryProposal
  | memoryDecision
  | memoryRecord
  | memoryStateEvent
  | fullTextIndex
  | contextCache
  | minimalAudit
deriving DecidableEq, Repr

inductive RequiredAction where
  | delete
  | redact
  | retainMinimal
deriving DecidableEq, Repr

inductive DeletionOverallStatus where
  | pending
  | partially
  | failed
  | completed
deriving DecidableEq, Repr

inductive ComponentStatus where
  | pending
  | succeeded
  | failed
deriving DecidableEq, Repr

inductive ComponentOutcome where
  | deleted
  | redacted
  | retainedMinimal
  | notFound
  | notApplicable
deriving DecidableEq, Repr

/-! ## Canonical JSON of the two hashed shapes -/

def hexDigit (n : Nat) : Char :=
  "0123456789abcdef".toList.getD n '0'

/-- The escape of one character inside a canonical JSON string. -/
def writeChar (c : Char) : String :=
  if c = '"' then "\\\""
  else if c = '\\' then "\\\\"
  else if c.toNat = 8 then "\\b"
  else if c.toNat = 9 then "\\t"
  else if c.toNat = 10 then "\\n"
  else if c.toNat = 12 then "\\f"
  else if c.toNat = 13 then "\\r"
  else if c.toNat < 32 then
    "\\u00" ++ String.ofList [hexDigit (c.toNat / 16), hexDigit (c.toNat % 16)]
  else String.ofList [c]

def writeString (value : String) : String :=
  "\"" ++ String.join (value.toList.map writeChar) ++ "\""

def writeArray (items : List String) : String :=
  "[" ++ ",".intercalate items ++ "]"

/-- An object whose members are already in key order. -/
def writeObject (members : List (String × String)) : String :=
  "\x7b" ++ ",".intercalate (members.map fun (key, value) => writeString key ++ ":" ++ value) ++
    "\x7d"

/-! ## Target closures -/

/-- `Vec::sort` on references: a stable sort by the derived order. -/
def sortRefs (refs : List ObjectRef) : List ObjectRef :=
  refs.insertionSort fun a b => ¬ b < a

/-- Each reference is strictly below the next. -/
def strictlyAscending : List ObjectRef → Bool
  | [] => true
  | [_] => true
  | a :: b :: rest => decide (a < b) && strictlyAscending (b :: rest)

structure FrozenTargetClosureParams where
  targetRefs : List ObjectRef
  targetRefsDigest : Digest
deriving DecidableEq

section Platform

variable [Platform]

def computeTargetRefsDigest (targetRefs : List ObjectRef) : Digest :=
  makeDigest .canonicalJsonV1 <| utf8Bytes <| writeArray <| targetRefs.map fun ref =>
    writeObject [("object_id", writeString ref.objectId.asStr),
      ("object_type", writeString ref.objectType.asStr)]

def FrozenTargetClosureParams.check (params : FrozenTargetClosureParams) :
    Except CoreError Unit := do
  requireNonEmpty params.targetRefs
  requireUnique params.targetRefs
  require (strictlyAscending params.targetRefs = true)
    (.invalidCanonicalObject .unsortedTargetClosure)
  requireProfile params.targetRefsDigest .canonicalJsonV1
  require (params.targetRefsDigest = computeTargetRefsDigest params.targetRefs) .digestMismatch

abbrev FrozenTargetClosure :=
  Checked FrozenTargetClosureParams.check

def FrozenTargetClosure.new (targetRefs : List ObjectRef) (targetRefsDigest : Digest) :
    Except CoreError FrozenTargetClosure :=
  Checked.new FrozenTargetClosureParams.check { targetRefs, targetRefsDigest }

def FrozenTargetClosure.freeze (targetRefs : List ObjectRef) :
    Except CoreError FrozenTargetClosure := do
  let sorted := sortRefs targetRefs
  requireNonEmpty sorted
  requireUnique sorted
  FrozenTargetClosure.new sorted (computeTargetRefsDigest sorted)

inductive DeletionTargetRef where
  | object (ref : ObjectRef)
  | frozenClosure (closure : FrozenTargetClosure)
deriving DecidableEq

def DeletionTargetRef.targetLen : DeletionTargetRef → Nat
  | .object _ => 1
  | .frozenClosure closure => closure.params.targetRefs.length

structure DeletionTargetParams where
  componentKey : Identifier
  componentType : DeletionComponentType
  targetRef : DeletionTargetRef
  targetCount : Nat
  requiredAction : RequiredAction
deriving DecidableEq

def DeletionTargetParams.check (params : DeletionTargetParams) : Except CoreError Unit :=
  require (params.targetCount ≠ 0 ∧ params.targetCount = params.targetRef.targetLen)
    (.invalidCanonicalObject .countMismatch)

abbrev DeletionTarget :=
  Checked DeletionTargetParams.check

def DeletionTarget.new (params : DeletionTargetParams) : Except CoreError DeletionTarget :=
  Checked.new DeletionTargetParams.check params

/-! ## Requests -/

structure DeleteRequestParams where
  deleteRequestId : Identifier
  namespaceId : Identifier
  requestedBy : ActorRef
  authorizationBasis : NonEmptyText
  requestedGuarantee : RequestedGuarantee
  deviceId : Identifier
  targetRefs : List ObjectRef
  plannedComponents : List DeletionTarget
  reasonCode : NonEmptyText
  requestedAt : Timestamp

def DeleteRequestParams.check (params : DeleteRequestParams) : Except CoreError Unit := do
  requireNonEmpty params.targetRefs
  requireUnique params.targetRefs
  requireNonEmpty params.plannedComponents
  requireUnique (params.plannedComponents.map fun target => target.params.componentKey)

abbrev DeleteRequest :=
  Checked DeleteRequestParams.check

def DeleteRequest.new (params : DeleteRequestParams) : Except CoreError DeleteRequest :=
  Checked.new DeleteRequestParams.check params

/-- The ten components of a local purge, in plan order. -/
def localPurgeProfile : List (String × DeletionComponentType × RequiredAction) :=
  [("source-body", .sourceBody, .delete),
    ("source-metadata", .sourceMetadata, .retainMinimal),
    ("source-fragment", .sourceFragment, .delete),
    ("memory-proposal", .memoryProposal, .redact),
    ("memory-decision", .memoryDecision, .retainMinimal),
    ("memory-record", .memoryRecord, .redact),
    ("memory-state-event", .memoryStateEvent, .retainMinimal),
    ("full-text-index", .fullTextIndex, .delete),
    ("context-cache", .contextCache, .delete),
    ("minimal-audit", .minimalAudit, .retainMinimal)]

def Identifier.new (value : String) : Except CoreError Identifier :=
  if h : value ≠ "" then .ok ⟨value, h⟩ else .error (.invalidCanonicalObject .emptyIdentifier)

/-- One reference for a single target, a frozen closure for several. -/
def targetRefOf (sorted : List ObjectRef) : Except CoreError DeletionTargetRef :=
  match sorted with
  | [ref] => .ok (.object ref)
  | refs => do return .frozenClosure (← FrozenTargetClosure.freeze refs)

def buildLocalPurgeTargets (targetRefs : List ObjectRef) :
    Except CoreError (List DeletionTarget) := do
  requireNonEmpty targetRefs
  requireUnique targetRefs
  require (∀ target ∈ targetRefs,
      target.objectType = .sourceArtifact ∨ target.objectType = .memoryRecord)
    (.invalidCanonicalObject .invalidFieldCombination)
  let targetRef ← targetRefOf (sortRefs targetRefs)
  localPurgeProfile.mapM fun (key, componentType, requiredAction) => do
    DeletionTarget.new
      { componentKey := ← Identifier.new key, componentType, targetRef,
        targetCount := targetRefs.length, requiredAction }

/-! ## Execution results and evidence -/

/-- The inputs of one execution attempt; the retention basis is a policy. -/
structure LocalDeletionExecution where
  checkedAt : Timestamp
  retentionBasis : EvidenceRef
  policyBasis : retentionBasis.evidenceType = .policyBasis

structure ComponentResultParams where
  componentKey : Identifier
  componentType : DeletionComponentType
  targetRef : DeletionTargetRef
  requiredAction : RequiredAction
  targetCount : Nat
  processedCount : Nat
  status : ComponentStatus
  outcome : ComponentOutcome
  verificationMethod : NonEmptyText
  checkedAt : Timestamp
  errorCode : Option NonEmptyText
  retryable : Option Bool
  retentionBasis : Option EvidenceRef

/-- An error code and a retry hint belong to failures, and to nothing else. -/
def ComponentResultParams.failureFieldsMatch (params : ComponentResultParams) : Bool :=
  if params.status = .failed then params.errorCode.isSome && params.retryable.isSome
  else params.errorCode.isNone && params.retryable.isNone

def ComponentResultParams.outcomeMatchesAction (params : ComponentResultParams) : Bool :=
  params.status != .succeeded || params.outcome == .notFound ||
    (match params.requiredAction, params.outcome with
      | .delete, .deleted | .redact, .redacted | .retainMinimal, .retainedMinimal => true
      | _, _ => false)

def ComponentResultParams.retentionBasisMatches (params : ComponentResultParams) : Bool :=
  if params.status = .succeeded ∧ params.outcome = .retainedMinimal then
    params.retentionBasis.any fun basis => basis.evidenceType == .policyBasis
  else params.retentionBasis.isNone

def ComponentResultParams.check (params : ComponentResultParams) : Except CoreError Unit := do
  require (params.targetCount ≠ 0 ∧ params.targetCount = params.targetRef.targetLen)
    (.invalidCanonicalObject .countMismatch)
  require (params.processedCount ≤ params.targetCount) (.invalidCanonicalObject .countMismatch)
  require (params.failureFieldsMatch = true) (.invalidCanonicalObject .invalidFieldCombination)
  require (params.status = .succeeded → params.processedCount = params.targetCount)
    (.invalidCanonicalObject .countMismatch)
  require (params.outcomeMatchesAction = true) (.invalidCanonicalObject .invalidFieldCombination)
  require (params.retentionBasisMatches = true)
    (.invalidCanonicalObject .invalidFieldCombination)

abbrev ComponentResult :=
  Checked ComponentResultParams.check

def ComponentResult.new (params : ComponentResultParams) : Except CoreError ComponentResult :=
  Checked.new ComponentResultParams.check params

instance : BEq ComponentResult :=
  ⟨fun a b =>
    a.params.componentKey == b.params.componentKey &&
    a.params.componentType == b.params.componentType &&
    a.params.targetRef == b.params.targetRef &&
    a.params.requiredAction == b.params.requiredAction &&
    a.params.targetCount == b.params.targetCount &&
    a.params.processedCount == b.params.processedCount &&
    a.params.status == b.params.status &&
    a.params.outcome == b.params.outcome &&
    a.params.verificationMethod == b.params.verificationMethod &&
    a.params.checkedAt == b.params.checkedAt &&
    a.params.errorCode == b.params.errorCode &&
    a.params.retryable == b.params.retryable &&
    a.params.retentionBasis == b.params.retentionBasis⟩

def componentStatusStr : ComponentStatus → String
  | .pending => "pending"
  | .succeeded => "succeeded"
  | .failed => "failed"

def deletionOverallStatusStr : DeletionOverallStatus → String
  | .pending => "pending"
  | .partially => "partial"
  | .failed => "failed"
  | .completed => "completed"

def computeDeletionEvidenceDigest (deletionEvidenceId deleteRequestId : Identifier)
    (overallStatus : DeletionOverallStatus) (componentResults : List ComponentResult) : Digest :=
  let results := componentResults.map fun result =>
    writeObject [("component_key", writeString result.params.componentKey.asStr),
      ("processed_count", toString result.params.processedCount),
      ("status", writeString (componentStatusStr result.params.status))]
  makeDigest .deletionEvidenceV1 <| utf8Bytes <|
    writeObject [("component_results", writeArray results),
      ("delete_request_id", writeString deleteRequestId.asStr),
      ("deletion_evidence_id", writeString deletionEvidenceId.asStr),
      ("overall_status", writeString (deletionOverallStatusStr overallStatus))]

structure DeletionEvidenceParams where
  deletionEvidenceId : Identifier
  deleteRequestId : Identifier
  previousEvidenceId : Option Identifier
  namespaceId : Identifier
  deviceId : Identifier
  overallStatus : DeletionOverallStatus
  componentResults : List ComponentResult
  startedAt : Timestamp
  finishedAt : Option Timestamp
  verifiedBy : ProducerRef
  evidenceDigest : Digest

def DeletionEvidenceParams.check (params : DeletionEvidenceParams) : Except CoreError Unit := do
  requireNonEmpty params.componentResults
  requireUnique (params.componentResults.map fun result => result.params.componentKey)
  require (params.overallStatus = .pending ↔ params.finishedAt.isNone = true)
    (.invalidCanonicalObject .invalidFieldCombination)
  require (∀ finished ∈ params.finishedAt, ¬ finished < params.startedAt)
    (.invalidCanonicalObject .timeOrder)
  require (params.overallStatus = .completed →
      ∀ result ∈ params.componentResults, result.params.status = .succeeded)
    (.invalidCanonicalObject .invalidFieldCombination)
  require (params.overallStatus = .failed →
      ∃ result ∈ params.componentResults, result.params.status = .failed)
    (.invalidCanonicalObject .invalidFieldCombination)
  requireProfile params.evidenceDigest .deletionEvidenceV1

abbrev DeletionEvidence :=
  Checked DeletionEvidenceParams.check

def DeletionEvidence.new (params : DeletionEvidenceParams) : Except CoreError DeletionEvidence :=
  Checked.new DeletionEvidenceParams.check params

end Platform

end RadishMemory
