import RadishMemory.Properties.Statements
import RadishMemory.Construction.Sqlite.DeletionStore
import Mathlib.Data.List.Dedup

/-!
# What storing a delete request does

The request's rows and its frozen closure are added, its targets are closed to recall, and the
library verifies afterwards.  `Frozen` reads the closure back from its table: it is the only
thing a later execution knows about what to touch.
-/

namespace RadishMemory

variable [Platform] {db db' : Database}

/-! ## The frozen closure -/

omit [Platform] in
/-- The id is frozen in a component of the closure of a request. -/
def Frozen (db : Database) (deleteRequestId : Identifier) (componentType : DeletionComponentType)
    (id : Identifier) : Prop :=
  ∃ c ∈ db.executionClosure, c.owner = (deleteRequestId, componentType) ∧ c.value.objectId = id

omit [Platform] in
theorem mem_sortRefs {refs : List ObjectRef} {ref : ObjectRef} :
    ref ∈ sortRefs refs ↔ ref ∈ refs :=
  List.mem_insertionSort _

omit [Platform] in
theorem mem_refSet {refs : List ObjectRef} {ref : ObjectRef} : ref ∈ refSet refs ↔ ref ∈ refs := by
  rw [refSet, mem_sortRefs, List.mem_dedup]

omit [Platform] in
theorem mem_refsOf {objectType : CanonicalObjectType} {ids : List Identifier} {ref : ObjectRef} :
    ref ∈ refsOf objectType ids ↔ ref.objectType = objectType ∧ ref.objectId ∈ ids := by
  simp only [refsOf, List.mem_map]
  constructor
  · rintro ⟨id, hid, rfl⟩
    exact ⟨rfl, hid⟩
  · rintro ⟨rfl, hid⟩
    exact ⟨ref.objectId, hid, rfl⟩

omit [Platform] in
/-- The ids of a set of references of one type. -/
theorem mem_refSet_ids {objectType : CanonicalObjectType} {ids : List Identifier}
    {id : Identifier} :
    id ∈ (refSet (refsOf objectType ids)).map ObjectRef.objectId ↔ id ∈ ids := by
  simp only [List.mem_map, mem_refSet, mem_refsOf]
  constructor
  · rintro ⟨ref, ⟨-, hid⟩, rfl⟩
    exact hid
  · intro hid
    exact ⟨⟨objectType, id⟩, ⟨rfl, hid⟩, rfl⟩

/-- The closure rows of a request. -/
def closureRows (deleteRequestId : Identifier) (closure : ExecutionClosure) :
    List (Child (Identifier × DeletionComponentType) ObjectRef) :=
  profile.flatMap fun entry =>
    enumerate (deleteRequestId, entry.2.1) 0 (closure.refs entry.2.1)

omit [Platform] in
theorem mem_profile_types (componentType : DeletionComponentType) :
    ∃ entry ∈ profile, entry.2.1 = componentType := by
  cases componentType <;> decide

omit [Platform] in
theorem exists_mem_closureRows_iff {deleteRequestId : Identifier} {closure : ExecutionClosure}
    {requestId id : Identifier} {componentType : DeletionComponentType} :
    (∃ c ∈ closureRows deleteRequestId closure,
      c.owner = (requestId, componentType) ∧ c.value.objectId = id) ↔
      requestId = deleteRequestId ∧
        id ∈ (closure.refs componentType).map ObjectRef.objectId := by
  simp only [closureRows, List.mem_flatMap, List.mem_map]
  constructor
  · rintro ⟨c, ⟨entry, -, hc⟩, howner, hid⟩
    obtain ⟨ho, -, hv⟩ := mem_enumerate hc
    rw [ho, Prod.mk.injEq] at howner
    obtain ⟨rfl, rfl⟩ := howner
    exact ⟨rfl, c.value, hv, hid⟩
  · rintro ⟨rfl, ref, href, rfl⟩
    obtain ⟨entry, hentry, rfl⟩ := mem_profile_types componentType
    obtain ⟨c, hc, hv⟩ := exists_mem_enumerate (requestId, entry.2.1) 0 href
    exact ⟨c, ⟨entry, hentry, hc⟩, (mem_enumerate hc).1, by rw [hv]⟩

/-! ## Inserting the request -/

/-- The rows of the planned components. -/
def componentRows (request : DeleteRequest) : List ComponentRow :=
  request.params.plannedComponents.zipIdx.map fun entry =>
    ComponentRow.ofTarget request.params.deleteRequestId entry.2 entry.1

/-- The target rows of the planned components. -/
def componentTargetRows (request : DeleteRequest) :
    List (Child (Identifier × Identifier) ObjectRef) :=
  request.params.plannedComponents.flatMap fun component =>
    enumerate (request.params.deleteRequestId, component.params.componentKey) 0
      component.params.targetRef.targetRefs

/-- The deletion tables after a request has been inserted. -/
def Database.addRequest (db : Database) (request : DeleteRequest) (closure : ExecutionClosure) :
    Database :=
  { db with
    requests := db.requests ++ [RequestRow.ofRequest request.params]
    requestTargets := db.requestTargets ++
      enumerate request.params.deleteRequestId 0 request.params.targetRefs
    requestComponents := db.requestComponents ++ componentRows request
    componentTargets := db.componentTargets ++ componentTargetRows request
    executionClosure := db.executionClosure ++
      closureRows request.params.deleteRequestId closure }

theorem foldlM_insertComponent_eq_ok {deleteRequestId : Identifier}
    {components : List (DeletionTarget × Nat)}
    (h : components.foldlM (insertComponent deleteRequestId) db = .ok db') :
    db' = { db with
      requestComponents := db.requestComponents ++ components.map fun entry =>
        ComponentRow.ofTarget deleteRequestId entry.2 entry.1
      componentTargets := db.componentTargets ++ components.flatMap fun entry =>
        enumerate (deleteRequestId, entry.1.params.componentKey) 0
          entry.1.params.targetRef.targetRefs } := by
  induction components generalizing db with
  | nil =>
    rw [List.foldlM_nil, Except.pure_eq_ok_iff] at h
    subst h
    simp
  | cons component rest ih =>
    rw [List.foldlM_cons, Except.bind_eq_ok_iff] at h
    obtain ⟨db₁, h₁, h₂⟩ := h
    simp only [insertComponent, Except.bind_eq_ok_iff] at h₁
    obtain ⟨db₀, h₀, h₁⟩ := h₁
    obtain ⟨-, rfl⟩ := Database.insertComponentRow_eq_ok h₀
    obtain rfl := Database.insertComponentTargets_eq_ok h₁
    rw [ih h₂]
    simp

omit [Platform] in
theorem foldlM_insertExecutionClosure_eq_ok {deleteRequestId : Identifier}
    {closure : ExecutionClosure}
    {entries : List (String × DeletionComponentType × RequiredAction)}
    (h : entries.foldlM (fun db entry => db.insertExecutionClosure
      (enumerate (deleteRequestId, entry.2.1) 0 (closure.refs entry.2.1))) db = .ok db') :
    db' = { db with executionClosure := db.executionClosure ++ (entries.flatMap fun entry =>
      enumerate (deleteRequestId, entry.2.1) 0 (closure.refs entry.2.1)) } := by
  induction entries generalizing db with
  | nil =>
    rw [List.foldlM_nil, Except.pure_eq_ok_iff] at h
    subst h
    simp
  | cons entry rest ih =>
    rw [List.foldlM_cons, Except.bind_eq_ok_iff] at h
    obtain ⟨db₁, h₁, h₂⟩ := h
    obtain rfl := Database.insertExecutionClosure_eq_ok h₁
    rw [ih h₂]
    simp

theorem insertRequest_eq_ok {request : DeleteRequest} {closure : ExecutionClosure}
    (h : insertRequest db request closure = .ok db') :
    db' = db.addRequest request closure ∧
      ∀ r ∈ db.requests, r.deleteRequestId ≠ request.params.deleteRequestId := by
  simp only [insertRequest, Except.bind_eq_ok_iff] at h
  obtain ⟨db₁, h₁, db₂, h₂, db₃, h₃, h₄⟩ := h
  obtain ⟨hfresh, rfl⟩ := Database.insertRequestRow_eq_ok h₁
  obtain rfl := Database.insertRequestTargets_eq_ok h₂
  obtain rfl := foldlM_insertComponent_eq_ok h₃
  obtain rfl := foldlM_insertExecutionClosure_eq_ok h₄
  refine ⟨?_, hfresh⟩
  have hzip : request.params.plannedComponents.zipIdx.flatMap (fun entry =>
      enumerate (request.params.deleteRequestId, entry.1.params.componentKey) 0
        entry.1.params.targetRef.targetRefs) = componentTargetRows request := by
    rw [componentTargetRows]
    conv_rhs => rw [← List.zipIdx_map_fst 0 request.params.plannedComponents]
    rw [List.flatMap_map]
  rw [hzip]
  rfl

/-! ## Closing the targets -/

section Close

omit [Platform]

/-- The source is an active target of the namespace. -/
def sourceIsClosed (namespaceId : Identifier) (sourceTargets : List Identifier)
    (row : SourceRow) : Bool :=
  sourceTargets.contains row.sourceId && row.namespaceId == namespaceId &&
    row.governance.deletionState == .active

def recordIsClosed (namespaceId : Identifier) (memoryTargets : List Identifier)
    (row : RecordRow) : Bool :=
  memoryTargets.contains row.memoryId && row.namespaceId == namespaceId &&
    row.governance.deletionState == .active

def tipIsClosed (namespaceId : Identifier) (sourceTargets : List Identifier) (tip : TipRow) :
    Bool :=
  tip.namespaceId == namespaceId && sourceTargets.contains tip.sourceId

/-- The tables after the targets have been closed. -/
def Database.closeTargets (db : Database) (namespaceId : Identifier)
    (targets : List ObjectRef) : Database :=
  { db with
    sources := updateWhere (sourceIsClosed namespaceId (idsOfType .sourceArtifact targets))
      (SourceRow.setState .pending) db.sources
    tips := deleteWhere (tipIsClosed namespaceId (idsOfType .sourceArtifact targets)) db.tips
    records := updateWhere (recordIsClosed namespaceId (idsOfType .memoryRecord targets))
      (RecordRow.setState .pending) db.records }

theorem mem_idsOfType {objectType : CanonicalObjectType} {refs : List ObjectRef}
    {id : Identifier} : id ∈ idsOfType objectType refs ↔ ⟨objectType, id⟩ ∈ refs := by
  simp only [idsOfType, List.mem_map, List.mem_filter, beq_iff_eq]
  constructor
  · rintro ⟨ref, ⟨hmem, rfl⟩, rfl⟩
    exact hmem
  · intro hmem
    exact ⟨_, ⟨hmem, rfl⟩, rfl⟩

theorem idsOfType_append (objectType : CanonicalObjectType) (refs refs' : List ObjectRef) :
    idsOfType objectType (refs ++ refs') =
      idsOfType objectType refs ++ idsOfType objectType refs' := by
  simp [idsOfType]

/-- The ids select nothing, one row's id, or what either part selects. -/
theorem sourceIsClosed_nil (namespaceId : Identifier) :
    sourceIsClosed namespaceId [] = fun _ => false := by
  funext row
  simp [sourceIsClosed]

theorem recordIsClosed_nil (namespaceId : Identifier) :
    recordIsClosed namespaceId [] = fun _ => false := by
  funext row
  simp [recordIsClosed]

theorem tipIsClosed_nil (namespaceId : Identifier) :
    tipIsClosed namespaceId [] = fun _ => false := by
  funext row
  simp [tipIsClosed]

theorem sourceIsClosed_append (namespaceId : Identifier) (ids ids' : List Identifier)
    (row : SourceRow) : (sourceIsClosed namespaceId ids row ||
      sourceIsClosed namespaceId ids' row) = sourceIsClosed namespaceId (ids ++ ids') row := by
  rw [Bool.eq_iff_iff]
  simp [sourceIsClosed]
  tauto

theorem recordIsClosed_append (namespaceId : Identifier) (ids ids' : List Identifier)
    (row : RecordRow) : (recordIsClosed namespaceId ids row ||
      recordIsClosed namespaceId ids' row) = recordIsClosed namespaceId (ids ++ ids') row := by
  rw [Bool.eq_iff_iff]
  simp [recordIsClosed]
  tauto

theorem tipIsClosed_append (namespaceId : Identifier) (ids ids' : List Identifier)
    (tip : TipRow) : (tipIsClosed namespaceId ids tip || tipIsClosed namespaceId ids' tip) =
      tipIsClosed namespaceId (ids ++ ids') tip := by
  rw [Bool.eq_iff_iff]
  simp [tipIsClosed]
  tauto

theorem closeTarget_eq_ok {namespaceId : Identifier} {target : ObjectRef}
    (h : closeTarget namespaceId db target = .ok db') :
    db' = db.closeTargets namespaceId [target] := by
  unfold closeTarget at h
  split at h
  · rename_i htype
    have hsources : idsOfType .sourceArtifact [target] = [target.objectId] := by
      simp [idsOfType, htype]
    have hrecords : idsOfType .memoryRecord [target] = [] := by
      simp [idsOfType, htype]
    have hrow : (fun row : SourceRow => row.sourceId == target.objectId &&
        row.namespaceId == namespaceId && row.governance.deletionState == .active) =
        sourceIsClosed namespaceId [target.objectId] := by
      funext row
      simp [sourceIsClosed, beq_eq_decide]
    have htip : (fun tip : TipRow => tip.namespaceId == namespaceId &&
        tip.sourceId == target.objectId) = tipIsClosed namespaceId [target.objectId] := by
      funext tip
      simp [tipIsClosed, beq_eq_decide]
    simp only [Except.bind_eq_ok_iff, Except.exists_unit_iff, Except.pure_eq_ok_iff] at h
    obtain ⟨-, rfl⟩ := h
    rw [Database.closeTargets, hsources, hrecords, hrow, htip, recordIsClosed_nil,
      updateWhere_false]
  · rename_i htype
    have hsources : idsOfType .sourceArtifact [target] = [] := by
      simp [idsOfType, htype]
    have hrecords : idsOfType .memoryRecord [target] = [target.objectId] := by
      simp [idsOfType, htype]
    have hrow : (fun row : RecordRow => row.memoryId == target.objectId &&
        row.namespaceId == namespaceId && row.governance.deletionState == .active) =
        recordIsClosed namespaceId [target.objectId] := by
      funext row
      simp [recordIsClosed, beq_eq_decide]
    simp only [Except.bind_eq_ok_iff, Except.exists_unit_iff, Except.pure_eq_ok_iff] at h
    obtain ⟨-, rfl⟩ := h
    rw [Database.closeTargets, hsources, hrecords, hrow, sourceIsClosed_nil, tipIsClosed_nil,
      updateWhere_false, deleteWhere_false]
  · cases h

theorem foldlM_closeTarget_eq_ok {namespaceId : Identifier} {targets : List ObjectRef}
    (h : targets.foldlM (closeTarget namespaceId) db = .ok db') :
    db' = db.closeTargets namespaceId targets := by
  induction targets generalizing db with
  | nil =>
    rw [List.foldlM_nil, Except.pure_eq_ok_iff] at h
    subst h
    simp [Database.closeTargets, idsOfType, sourceIsClosed_nil, tipIsClosed_nil,
      recordIsClosed_nil]
  | cons target rest ih =>
    rw [List.foldlM_cons, Except.bind_eq_ok_iff] at h
    obtain ⟨db₁, h₁, h₂⟩ := h
    rw [ih h₂, closeTarget_eq_ok h₁]
    simp only [Database.closeTargets]
    rw [deleteWhere_deleteWhere, updateWhere_updateWhere, updateWhere_updateWhere]
    · simp only [sourceIsClosed_append, tipIsClosed_append, recordIsClosed_append,
        ← idsOfType_append, List.singleton_append]
    · intro r
      simp [recordIsClosed, RecordRow.setState]
    · intro r
      simp [sourceIsClosed, SourceRow.setState]

end Close

/-- The full-text row belongs to a fragment or record of the closure. -/
def recallIsClosed (closure : ExecutionClosure) (row : RecallRow) : Bool :=
  match row.key.objectKind with
  | .sourceFragment => closure.fragmentIds.contains row.key.objectId
  | .memoryRecord => closure.memoryIds.contains row.key.objectId

def fragmentIsClosed (namespaceId : Identifier) (closure : ExecutionClosure) (row : FragmentRow) :
    Bool :=
  closure.fragmentIds.contains row.fragmentId && row.namespaceId == namespaceId &&
    row.governance.deletionState == .active

def proposalIsClosed (namespaceId : Identifier) (closure : ExecutionClosure) (row : ProposalRow) :
    Bool :=
  closure.proposalIds.contains row.proposalId && row.namespaceId == namespaceId &&
    row.governance.deletionState == .active

/-- The data tables after a request has been closed to recall. -/
def Database.closeRequest (db : Database) (request : DeleteRequest) (closure : ExecutionClosure) :
    Database :=
  { db.closeTargets request.params.namespaceId request.params.targetRefs with
    fragments := updateWhere (fragmentIsClosed request.params.namespaceId closure)
      (FragmentRow.setState .pending) db.fragments
    proposals := updateWhere (proposalIsClosed request.params.namespaceId closure)
      (ProposalRow.setState .pending) db.proposals
    recallFts := deleteWhere (recallIsClosed closure) db.recallFts
    projection := deleteWhere (fun row => request.params.memoryTargets.contains row.memoryId)
      db.projection }

omit [Platform] in
/-- The keys of the full-text closure are those of its fragments and records. -/
theorem mapM_recallKeyOf_eq_ok {closure : ExecutionClosure} {keys : List RecallKey}
    (h : (closure.refs .fullTextIndex).mapM recallKeyOf = .ok keys) (row : RecallRow) :
    keys.contains row.key = recallIsClosed closure row := by
  have hmem : ∀ key, key ∈ keys ↔
      ∃ ref ∈ closure.refs .fullTextIndex, recallKeyOf ref = .ok key := by
    intro key
    rw [List.mapM_eq_ok_iff] at h
    generalize closure.refs .fullTextIndex = refs at h
    induction h with
    | nil => simp
    | cons hhead _ ih => simp [ih, hhead, eq_comm]
  rw [Bool.eq_iff_iff, List.contains_iff_mem, hmem]
  simp only [ExecutionClosure.refs, mem_refSet, List.mem_append, mem_refsOf, recallIsClosed]
  obtain ⟨⟨kind, id⟩, -, -, -⟩ := row
  cases kind with
  | sourceFragment =>
    simp only [List.contains_iff_mem]
    constructor
    · rintro ⟨⟨objectType, objectId⟩, ⟨rfl, hid⟩ | ⟨rfl, hid⟩, hkey⟩
      · cases hkey
        exact hid
      · cases hkey
    · intro hid
      exact ⟨⟨.sourceFragment, id⟩, .inl ⟨rfl, hid⟩, rfl⟩
  | memoryRecord =>
    simp only [List.contains_iff_mem]
    constructor
    · rintro ⟨⟨objectType, objectId⟩, ⟨rfl, hid⟩ | ⟨rfl, hid⟩, hkey⟩
      · cases hkey
      · cases hkey
        exact hid
    · intro hid
      exact ⟨⟨.memoryRecord, id⟩, .inr ⟨rfl, hid⟩, rfl⟩

theorem closeTargetsToRecall_eq_ok {request : DeleteRequest} {closure : ExecutionClosure}
    (h : closeTargetsToRecall db request closure = .ok db') :
    db' = db.closeRequest request closure := by
  simp only [closeTargetsToRecall, Except.bind_eq_ok_iff, Except.pure_eq_ok_iff] at h
  obtain ⟨db₁, h₁, keys, hkeys, rfl⟩ := h
  obtain rfl := foldlM_closeTarget_eq_ok h₁
  have hfragments : ∀ id, ((closure.refs .sourceFragment).map ObjectRef.objectId).contains id =
      closure.fragmentIds.contains id := by
    intro id
    rw [Bool.eq_iff_iff, List.contains_iff_mem, List.contains_iff_mem]
    exact mem_refSet_ids
  have hproposals : ∀ id, ((closure.refs .memoryProposal).map ObjectRef.objectId).contains id =
      closure.proposalIds.contains id := by
    intro id
    rw [Bool.eq_iff_iff, List.contains_iff_mem, List.contains_iff_mem]
    exact mem_refSet_ids
  simp only [hfragments, hproposals, mapM_recallKeyOf_eq_ok hkeys]
  rfl

/-! ## Storing -/

/-- What storing a request established and did. -/
structure StoredRequest (db db' : Database) (request : DeleteRequest)
    (closure : ExecutionClosure) : Prop where
  profile : validateRequestProfile request = .ok ()
  semantic : validateSemanticTargets db request = .ok ()
  built : buildExecutionClosure db request = .ok closure
  fresh : ∀ r ∈ db.requests, r.deleteRequestId ≠ request.params.deleteRequestId
  result : db' = (db.addRequest request closure).closeRequest request closure
  bindings : verifyOriginBindings db' = .ok ()
  derived : verifyDerivedIndex db' = .ok ()

theorem storeDeleteRequest_eq_ok {request : DeleteRequest}
    (h : storeDeleteRequest db request = .ok db') :
    ∃ closure, StoredRequest db db' request closure := by
  simp only [storeDeleteRequest, Except.bind_eq_ok_iff, Except.exists_unit_iff,
    Except.pure_eq_ok_iff] at h
  obtain ⟨hprofile, hsemantic, closure, hbuilt, db₁, h₁, db₂, h₂, hbindings, hderived, rfl⟩ := h
  obtain ⟨rfl, hfresh⟩ := insertRequest_eq_ok h₁
  obtain rfl := closeTargetsToRecall_eq_ok h₂
  exact ⟨closure, hprofile, hsemantic, hbuilt, hfresh, rfl, hbindings, hderived⟩

/-- The closure a request is stored with. -/
structure BuiltClosure (db : Database) (request : DeleteRequest) (closure : ExecutionClosure) :
    Prop where
  deleteRequestId : closure.deleteRequestId = request.params.deleteRequestId
  sourceIds : closure.sourceIds = request.params.sourceTargets
  memoryIds : closure.memoryIds = request.params.memoryTargets
  fragmentIds : ∀ id, id ∈ closure.fragmentIds ↔ ∃ f ∈ db.fragments, f.fragmentId = id ∧
    f.sourceId ∈ request.params.sourceTargets ∧ f.namespaceId = request.params.namespaceId ∧
    f.governance.deletionState = .active
  proposalIds : ∀ id, id ∈ closure.proposalIds ↔
    (∃ memoryId ∈ request.params.memoryTargets, ∃ r,
      activeRecordRow db request.params.namespaceId memoryId = some r ∧
        r.originProposalId = id) ∨
    ∃ p ∈ db.proposals, p.proposalId = id ∧ p.namespaceId = request.params.namespaceId ∧
      p.governance.deletionState = .active ∧
      ∃ link ∈ db.proposalFragments, link.owner = p.proposalId ∧
        link.value ∈ closure.fragmentIds
  decisionIds : ∀ id, id ∈ closure.decisionIds ↔ ∃ d ∈ db.decisions, d.decisionId = id ∧
    d.proposalId ∈ closure.proposalIds ∧ d.namespaceId = request.params.namespaceId

theorem buildExecutionClosure_eq_ok {request : DeleteRequest} {closure : ExecutionClosure}
    (h : buildExecutionClosure db request = .ok closure) : BuiltClosure db request closure := by
  simp only [buildExecutionClosure, Except.bind_eq_ok_iff, Except.pure_eq_ok_iff] at h
  obtain ⟨origins, horigins, rfl⟩ := h
  have hmem : ∀ id, id ∈ origins ↔ ∃ memoryId ∈ request.params.memoryTargets, ∃ r,
      activeRecordRow db request.params.namespaceId memoryId = some r ∧
        r.originProposalId = id := by
    intro id
    rw [List.mapM_eq_ok_iff] at horigins
    generalize request.params.memoryTargets = targets at horigins
    induction horigins with
    | nil => simp
    | cons hhead _ ih =>
      simp only [originProposal, Except.bind_eq_ok_iff, Option.orError_eq_ok_iff,
        Except.pure_eq_ok_iff] at hhead
      obtain ⟨r, hr, rfl⟩ := hhead
      simp [ih, hr, eq_comm]
  refine ⟨rfl, rfl, rfl, fun id => ?_, fun id => ?_, fun id => ?_⟩
  · simp only [List.mem_flatMap, activeFragmentIds, List.mem_map, List.mem_filter,
      Bool.and_eq_true, beq_iff_eq]
    constructor
    · rintro ⟨sourceId, hsource, f, ⟨hf, ⟨rfl, hns⟩, hactive⟩, rfl⟩
      exact ⟨f, hf, rfl, hsource, hns, hactive⟩
    · rintro ⟨f, hf, rfl, hsource, hns, hactive⟩
      exact ⟨f.sourceId, hsource, f, ⟨hf, ⟨rfl, hns⟩, hactive⟩, rfl⟩
  · simp only [List.mem_append, hmem, citingProposals, List.mem_map, List.mem_filter,
      Bool.and_eq_true, beq_iff_eq, List.any_eq_true, List.contains_iff_mem]
    refine or_congr Iff.rfl ?_
    constructor
    · rintro ⟨p, ⟨hp, ⟨hns, hactive⟩, link, hlink, howner, hvalue⟩, rfl⟩
      exact ⟨p, hp, rfl, hns, hactive, link, hlink, howner, hvalue⟩
    · rintro ⟨p, hp, rfl, hns, hactive, link, hlink, howner, hvalue⟩
      exact ⟨p, ⟨hp, ⟨hns, hactive⟩, link, hlink, howner, hvalue⟩, rfl⟩
  · simp only [List.mem_map, List.mem_filter, Bool.and_eq_true, beq_iff_eq,
      List.contains_iff_mem]
    constructor
    · rintro ⟨d, ⟨hd, hproposal, hns⟩, rfl⟩
      exact ⟨d, hd, rfl, hproposal, hns⟩
    · rintro ⟨d, hd, rfl, hproposal, hns⟩
      exact ⟨d, ⟨hd, hproposal, hns⟩, rfl⟩

/-- What the check of the targets established. -/
structure CheckedTargets (db : Database) (request : DeleteRequest) : Prop where
  sources : ∀ id ∈ request.params.sourceTargets, ∃ s ∈ db.sources, s.sourceId = id ∧
    s.namespaceId = request.params.namespaceId ∧ s.governance.deletionState = .active ∧
    (∀ t ∈ db.sources, t.namespaceId = request.params.namespaceId →
      t.lineageId = s.lineageId → t.governance.deletionState = .active →
        t.sourceId ∈ request.params.sourceTargets) ∧
    ∀ r ∈ db.records, r.namespaceId = request.params.namespaceId →
      r.governance.deletionState = .active → citesSource db id r.memoryId = true →
        r.memoryId ∈ request.params.memoryTargets
  records : ∀ id ∈ request.params.memoryTargets, ∃ r ∈ db.records, r.memoryId = id ∧
    r.namespaceId = request.params.namespaceId ∧ r.governance.deletionState = .active

theorem validateSemanticTargets_eq_ok {request : DeleteRequest} {u : Unit}
    (h : validateSemanticTargets db request = .ok u) : CheckedTargets db request := by
  simp only [validateSemanticTargets, Except.bind_eq_ok_iff, Except.exists_unit_iff,
    require_eq_ok_iff, checkAll_eq_ok_iff] at h
  obtain ⟨hexist, hsources, -⟩ := h
  refine ⟨fun id hid => ?_, fun id hid => ?_⟩
  · have hone := hsources id hid
    simp only [validateSourceTarget, Except.bind_eq_ok_iff, Except.exists_unit_iff,
      Option.orError_eq_ok_iff, require_eq_ok_iff, activeSourceRow, Option.filter_eq_some_iff,
      Bool.and_eq_true, beq_iff_eq] at hone
    obtain ⟨s, ⟨hlookup, hns, hactive⟩, hversions, hcites⟩ := hone
    refine ⟨s, lookup_mem hlookup, lookup_key hlookup, hns, hactive, ?_, hcites⟩
    intro t ht htns hlineage hstate
    refine hversions t ?_
    simp [activeVersions, ht, htns, hlineage, hstate]
  · have hone := hexist _ (mem_idsOfType.1 hid)
    simpa [targetExists, and_assoc] using hone

/-- The frozen ids after a request has been inserted. -/
theorem frozen_addRequest_iff {request : DeleteRequest} {closure : ExecutionClosure}
    {D id : Identifier} {componentType : DeletionComponentType} :
    Frozen (db.addRequest request closure) D componentType id ↔
      Frozen db D componentType id ∨ (D = request.params.deleteRequestId ∧
        id ∈ (closure.refs componentType).map ObjectRef.objectId) := by
  rw [← exists_mem_closureRows_iff]
  simp only [Frozen, Database.addRequest, List.mem_append]
  constructor
  · rintro ⟨c, hc | hc, heq⟩
    · exact .inl ⟨c, hc, heq⟩
    · exact .inr ⟨c, hc, heq⟩
  · rintro (⟨c, hc, heq⟩ | ⟨c, hc, heq⟩)
    · exact ⟨c, .inl hc, heq⟩
    · exact ⟨c, .inr hc, heq⟩

section Stored

variable {request : DeleteRequest} {closure : ExecutionClosure}

/-- What is frozen after a request has been stored: what was, and the request's own ids. -/
theorem StoredRequest.frozen_iff (hstored : StoredRequest db db' request closure)
    {D id : Identifier} {componentType : DeletionComponentType} :
    Frozen db' D componentType id ↔ Frozen db D componentType id ∨
      (D = request.params.deleteRequestId ∧
        id ∈ (closure.refs componentType).map ObjectRef.objectId) := by
  rw [hstored.result]
  exact frozen_addRequest_iff

/-- The sources a request freezes are its source targets. -/
theorem StoredRequest.frozen_source_iff (hstored : StoredRequest db db' request closure)
    {D id : Identifier} : Frozen db' D .sourceMetadata id ↔ Frozen db D .sourceMetadata id ∨
      (D = request.params.deleteRequestId ∧ id ∈ request.params.sourceTargets) := by
  rw [hstored.frozen_iff, ExecutionClosure.refs, mem_refSet_ids,
    (buildExecutionClosure_eq_ok hstored.built).sourceIds]

theorem StoredRequest.frozen_record_iff (hstored : StoredRequest db db' request closure)
    {D id : Identifier} : Frozen db' D .memoryRecord id ↔ Frozen db D .memoryRecord id ∨
      (D = request.params.deleteRequestId ∧ id ∈ request.params.memoryTargets) := by
  rw [hstored.frozen_iff, ExecutionClosure.refs, mem_refSet_ids,
    (buildExecutionClosure_eq_ok hstored.built).memoryIds]

theorem StoredRequest.frozen_proposal_iff (hstored : StoredRequest db db' request closure)
    {D id : Identifier} : Frozen db' D .memoryProposal id ↔ Frozen db D .memoryProposal id ∨
      (D = request.params.deleteRequestId ∧ id ∈ closure.proposalIds) := by
  rw [hstored.frozen_iff, ExecutionClosure.refs, mem_refSet_ids]

/-- A source after the request was stored: the row it was, or a target that is now pending. -/
theorem StoredRequest.mem_sources (hstored : StoredRequest db db' request closure)
    {s : SourceRow} : s ∈ db'.sources ↔ ∃ old ∈ db.sources,
      (if sourceIsClosed request.params.namespaceId request.params.sourceTargets old then
        SourceRow.setState .pending old else old) = s := by
  rw [hstored.result]
  exact mem_updateWhere

theorem StoredRequest.mem_records (hstored : StoredRequest db db' request closure)
    {r : RecordRow} : r ∈ db'.records ↔ ∃ old ∈ db.records,
      (if recordIsClosed request.params.namespaceId request.params.memoryTargets old then
        RecordRow.setState .pending old else old) = r := by
  rw [hstored.result]
  exact mem_updateWhere

theorem StoredRequest.mem_fragments (hstored : StoredRequest db db' request closure)
    {f : FragmentRow} : f ∈ db'.fragments ↔ ∃ old ∈ db.fragments,
      (if fragmentIsClosed request.params.namespaceId closure old then
        FragmentRow.setState .pending old else old) = f := by
  rw [hstored.result]
  exact mem_updateWhere

theorem StoredRequest.mem_proposals (hstored : StoredRequest db db' request closure)
    {p : ProposalRow} : p ∈ db'.proposals ↔ ∃ old ∈ db.proposals,
      (if proposalIsClosed request.params.namespaceId closure old then
        ProposalRow.setState .pending old else old) = p := by
  rw [hstored.result]
  exact mem_updateWhere

end Stored

end RadishMemory
