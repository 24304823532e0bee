import RadishMemory.Construction.Core.Invariants
import RadishMemory.Framework.Table

/-!
# Context packs

What the library hands to a local task: rendered items, each built from source fragments and
memory records, with citations that locate every quoted range.  `ContextPack` is the checked
object; `validateContextPackResolution` checks it again against the objects that its
references name.

The byte counts of a budget and the counters of a filter summary are natural numbers.  Only the
compiler of a pack adds byte counts, with the width of its counter written out.
-/

namespace RadishMemory

/-! ## The object -/

structure Budget where
  limit : Nat
  used : Nat
  withinLimit : used ≤ limit

def Budget.new (limit used : Nat) : Except CoreError Budget :=
  if h : used ≤ limit then .ok { limit, used, withinLimit := h }
  else .error (.invalidCanonicalObject .budgetExceeded)

/-- The fields agree on whether a text was cut. -/
def truncationFactsMatch (wasTruncated : Bool) (originalUtf8Bytes renderedUtf8Bytes : Nat)
    (reasonCode : Option NonEmptyText) : Bool :=
  if wasTruncated then decide (renderedUtf8Bytes < originalUtf8Bytes) && reasonCode.isSome
  else decide (renderedUtf8Bytes = originalUtf8Bytes) && reasonCode.isNone

structure TruncationFacts where
  wasTruncated : Bool
  originalUtf8Bytes : Nat
  renderedUtf8Bytes : Nat
  reasonCode : Option NonEmptyText
  factsMatch :
    truncationFactsMatch wasTruncated originalUtf8Bytes renderedUtf8Bytes reasonCode = true

inductive ContextItemType where
  | sourceFragment
  | memoryRecord
  | conflictNotice
  | constraint
deriving DecidableEq, Repr

inductive TemporalRole where
  | current
  | historical
  | conflict
  | notApplicable
deriving DecidableEq, Repr

structure ContextItemParams where
  itemId : Identifier
  ordinal : Nat
  itemType : ContextItemType
  objectRefs : List ObjectRef
  renderedContent : NonEmptyText
  contentDigest : Digest
  evidenceRefs : List EvidenceRef
  citationIds : List Identifier
  selectionReasonCodes : List NonEmptyText
  temporalRole : TemporalRole
  truncation : TruncationFacts

/-- An item names an object; a constraint may name a policy basis instead. -/
def ContextItemParams.referencesAreValid (params : ContextItemParams) : Bool :=
  if params.itemType = .constraint then
    !params.objectRefs.isEmpty ||
      params.evidenceRefs.any fun reference => reference.evidenceType == .policyBasis
  else !params.objectRefs.isEmpty

structure Citation where
  citationId : Identifier
  sourceId : Identifier
  fragmentId : Identifier
  byteStart : Nat
  byteEnd : Nat
  fragmentDigest : Digest
  rangeNonempty : byteStart < byteEnd
  exactBytes : fragmentDigest.profile = .exactBytesV1
deriving DecidableEq

structure FilterCount where
  reasonCode : NonEmptyText
  allowedCount : Nat
  rejectedCount : Nat
  truncatedCount : Nat
  counted : ¬ (allowedCount = 0 ∧ rejectedCount = 0 ∧ truncatedCount = 0)

variable [Platform]

def ContextItemParams.check (params : ContextItemParams) : Except CoreError Unit := do
  requireUnique params.objectRefs
  requireNonEmpty params.evidenceRefs
  requireUnique params.evidenceRefs
  requireUnique params.citationIds
  requireNonEmpty params.selectionReasonCodes
  requireUnique params.selectionReasonCodes
  require (params.referencesAreValid = true) (.invalidCanonicalObject .invalidFieldCombination)
  requireProfile params.contentDigest .utf8NfcTextV1
  require (computeNfcTextDigest params.renderedContent.asStr = params.contentDigest)
    .digestMismatch
  require (params.truncation.renderedUtf8Bytes = params.renderedContent.utf8Len)
    (.invalidCanonicalObject .contentLengthMismatch)

abbrev ContextItem :=
  Checked ContextItemParams.check

structure ContextPackParams where
  contextPackId : Identifier
  namespaceId : Identifier
  requestId : Identifier
  task : NonEmptyText
  taskDigest : Digest
  asOf : Timestamp
  compiledAt : Timestamp
  governance : Governance
  budget : Budget
  items : List ContextItem
  citationMap : List Citation
  filterSummary : List FilterCount
  contentDigest : Digest

/-- Items are numbered by their position. -/
def ordinalsCount (items : List ContextItem) : Bool :=
  items.zipIdx.all fun (item, position) => item.params.ordinal == position

def ContextPackParams.check (params : ContextPackParams) : Except CoreError Unit := do
  requireProfile params.taskDigest .utf8NfcTextV1
  require (computeNfcTextDigest params.task.asStr = params.taskDigest) .digestMismatch
  requireProfile params.contentDigest .contextPackV1
  requireUnique (params.items.map fun item => item.params.itemId)
  requireUnique (params.citationMap.map Citation.citationId)
  requireUnique (params.filterSummary.map FilterCount.reasonCode)
  require (ordinalsCount params.items = true) (.invalidCanonicalObject .duplicateOrdinal)
  require (∀ item ∈ params.items, ∀ citationId ∈ item.params.citationIds,
      citationId ∈ params.citationMap.map Citation.citationId)
    (.invalidCanonicalObject .invalidFieldCombination)

abbrev ContextPack :=
  Checked ContextPackParams.check

/-! ## The budget of a compiled pack -/

/-- The errors of the budget of a compiled pack. -/
inductive ContextBudgetError where
  | contextBudgetOverflow
  | contextBudgetInvalid (source : CoreError)

/-- The byte counts of the items, added in a 64-bit counter. -/
def contextBudgetUse (items : List ContextItem) : Except ContextBudgetError Nat :=
  items.foldlM (fun total item =>
    let sum := total + item.params.truncation.renderedUtf8Bytes
    if sum < 2 ^ 64 then .ok sum else .error .contextBudgetOverflow) 0

/-- The budget that the compiler of a context gives to the items it selected. -/
def contextBudget (limit : Nat) (items : List ContextItem) : Except ContextBudgetError Budget := do
  let used ← contextBudgetUse items
  (Budget.new limit used).mapError .contextBudgetInvalid

/-! ## Resolution -/

def sourceKey (source : SourceArtifact) : Identifier :=
  source.params.sourceId

def fragmentKey (fragment : SourceFragment) : Identifier :=
  fragment.params.fragmentId

def recordKey (record : MemoryRecord) : Identifier :=
  record.params.memoryId

/-- An index by id refuses two values of one id. -/
def requireIndexed {α : Type} (key : α → Identifier) (values : List α) : Except CoreError Unit :=
  require (values.map key).Nodup (crossError .duplicateObject)

/-- One of the references is the cited fragment. -/
def refersToFragment (objectRefs : List ObjectRef) (citation : Citation) : Bool :=
  objectRefs.any fun objectRef =>
    objectRef.objectType == .sourceFragment && objectRef.objectId == citation.fragmentId

/-- One of the references is a record that rests on the cited fragment. -/
def refersToRecordOf (objectRefs : List ObjectRef) (citation : Citation)
    (records : List MemoryRecord) : Bool :=
  objectRefs.any fun objectRef =>
    objectRef.objectType == .memoryRecord &&
      (lookup recordKey records objectRef.objectId).any fun record =>
        record.params.sourceFragmentRefs.contains citation.fragmentId

def contextItemAcceptsCitation (itemType : ContextItemType) (objectRefs : List ObjectRef)
    (citation : Citation) (records : List MemoryRecord) : Bool :=
  match itemType with
  | .sourceFragment => refersToFragment objectRefs citation
  | .memoryRecord => refersToRecordOf objectRefs citation records
  | .conflictNotice | .constraint =>
    refersToFragment objectRefs citation || refersToRecordOf objectRefs citation records

def ContextItemType.takesFragments : ContextItemType → Bool
  | .sourceFragment | .conflictNotice | .constraint => true
  | .memoryRecord => false

def ContextItemType.takesRecords : ContextItemType → Bool
  | .memoryRecord | .conflictNotice | .constraint => true
  | .sourceFragment => false

def validateContextFragmentRef (pack : ContextPack) (objectRef : ObjectRef)
    (sources : List SourceArtifact) (fragments : List SourceFragment) : Except CoreError Unit := do
  let fragment ← (lookup fragmentKey fragments objectRef.objectId).orError
    (crossError .missingReference)
  let source ← (lookup sourceKey sources fragment.params.sourceId).orError
    (crossError .missingReference)
  requireNamespace pack.params.namespaceId fragment.params.namespaceId
  validateSourceFragmentResolution fragment source
  requireRecallable fragment.params.governance
  validateGovernanceDerivation pack.params.governance [fragment.params.governance]

def validateContextRecordRef (pack : ContextPack) (itemType : ContextItemType)
    (objectRef : ObjectRef) (records : List MemoryRecord) : Except CoreError Unit := do
  let record ← (lookup recordKey records objectRef.objectId).orError
    (crossError .missingReference)
  requireNamespace pack.params.namespaceId record.params.namespaceId
  requireRecallable record.params.governance
  require (¬ (itemType = .memoryRecord ∧ record.params.currentState ≠ .confirmed))
    (crossError .recallBlocked)
  validateGovernanceDerivation pack.params.governance [record.params.governance]

def validateContextObjectRef (pack : ContextPack) (itemType : ContextItemType)
    (objectRef : ObjectRef) (sources : List SourceArtifact) (fragments : List SourceFragment)
    (records : List MemoryRecord) : Except CoreError Unit :=
  if objectRef.objectType = .sourceFragment ∧ itemType.takesFragments = true then
    validateContextFragmentRef pack objectRef sources fragments
  else if objectRef.objectType = .memoryRecord ∧ itemType.takesRecords = true then
    validateContextRecordRef pack itemType objectRef records
  else .error (crossError .identityMismatch)

def validateContextItem (pack : ContextPack) (sources : List SourceArtifact)
    (fragments : List SourceFragment) (records : List MemoryRecord) (item : ContextItem) :
    Except CoreError Unit := do
  checkAll (fun citationId => do
      let citation ← (lookup Citation.citationId pack.params.citationMap citationId).orError
        (crossError .missingReference)
      require (contextItemAcceptsCitation item.params.itemType item.params.objectRefs citation
          records = true)
        (crossError .citationMismatch)) item.params.citationIds
  checkAll (fun objectRef =>
    validateContextObjectRef pack item.params.itemType objectRef sources fragments records)
    item.params.objectRefs

def validateCitation (pack : ContextPack) (sources : List SourceArtifact)
    (fragments : List SourceFragment) (citation : Citation) : Except CoreError Unit := do
  let fragment ← (lookup fragmentKey fragments citation.fragmentId).orError
    (crossError .missingReference)
  let source ← (lookup sourceKey sources citation.sourceId).orError (crossError .missingReference)
  requireNamespace pack.params.namespaceId source.params.namespaceId
  requireNamespace pack.params.namespaceId fragment.params.namespaceId
  validateSourceFragmentResolution fragment source
  requireRecallable fragment.params.governance
  validateGovernanceDerivation pack.params.governance
    [source.params.governance, fragment.params.governance]
  require (citation.sourceId = fragment.params.sourceId ∧
      citation.byteStart = fragment.params.byteStart ∧
      citation.byteEnd = fragment.params.byteEnd ∧
      citation.fragmentDigest = fragment.params.contentDigest)
    (crossError .citationMismatch)

def validateContextPackResolution (pack : ContextPack) (sources : List SourceArtifact)
    (fragments : List SourceFragment) (records : List MemoryRecord) : Except CoreError Unit := do
  requireRecallable pack.params.governance
  requireIndexed sourceKey sources
  requireIndexed fragmentKey fragments
  requireIndexed recordKey records
  checkAll (validateContextItem pack sources fragments records) pack.params.items
  -- every mapped citation is used by some item
  require (sameIdentifierSet (pack.params.items.flatMap fun item => item.params.citationIds)
      (pack.params.citationMap.map Citation.citationId) = true)
    (crossError .citationMismatch)
  checkAll (validateCitation pack sources fragments) pack.params.citationMap

end RadishMemory
