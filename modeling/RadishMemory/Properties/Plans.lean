import RadishMemory.Properties.LibraryInvariant

/-!
# Stored plans are read back as they were written

A delete request is spread over five tables: its row, its targets, its components, their targets
and the frozen closure.  `StoredPlan` says that the rows of a request are exactly the ones it was
stored with, whatever other requests there are; every reachable library has a stored plan for
every request row (`plannedLibrary_of_run`).  From it follow the three reads of an execution: the request
itself (`StoredPlan.loadRequest`), the closure of a component (`StoredPlan.loadExecutionClosure`)
and what is frozen (`StoredPlan.frozen_iff`).
-/

namespace RadishMemory

variable [Platform] {db db' : Database} {request : DeleteRequest} {closure : ExecutionClosure}

/-- The rows of the request are the ones it was stored with. -/
structure StoredPlan (db : Database) (request : DeleteRequest) (closure : ExecutionClosure) :
    Prop where
  profile : validateRequestProfile request = .ok ()
  closureId : closure.deleteRequestId = request.params.deleteRequestId
  sourceIds : closure.sourceIds = request.params.sourceTargets
  memoryIds : closure.memoryIds = request.params.memoryTargets
  row : lookup RequestRow.deleteRequestId db.requests request.params.deleteRequestId =
    some (RequestRow.ofRequest request.params)
  targets : db.requestTargets.filter
      (fun c => decide (c.owner = request.params.deleteRequestId)) =
    enumerate request.params.deleteRequestId 0 request.params.targetRefs
  components : db.requestComponents.filter
      (·.deleteRequestId == request.params.deleteRequestId) = componentRows request
  componentTargets : db.componentTargets.filter
      (fun c => decide (c.owner.1 = request.params.deleteRequestId)) =
    componentTargetRows request
  frozen : db.executionClosure.filter
      (fun c => decide (c.owner.1 = request.params.deleteRequestId)) =
    closureRows request.params.deleteRequestId closure

/-- Every request row has a stored plan. -/
def PlansStored (db : Database) : Prop :=
  ∀ r ∈ db.requests, ∃ request closure, r = RequestRow.ofRequest request.params ∧
    StoredPlan db request closure

/-! ## Reading a plan -/

omit [Platform] in
/-- A closure that follows the first component of its owner. -/
theorem filter_owner {α β : Type} [DecidableEq α] {rows : List (Child (Identifier × α) β)}
    {D : Identifier} {a : α} :
    rows.filter (fun c => decide (c.owner = (D, a))) =
      (rows.filter fun c => decide (c.owner.1 = D)).filter fun c => decide (c.owner = (D, a)) := by
  rw [List.filter_filter]
  refine List.filter_congr fun c _ => ?_
  by_cases h : c.owner = (D, a)
  · simp [h]
  · simp [h]

omit [Platform] in
theorem profile_types_nodup (D : Identifier) :
    (profile.map fun entry => (D, entry.2.1)).Nodup := by
  have hinj : Function.Injective fun componentType : DeletionComponentType =>
      (D, componentType) := fun a b h => (Prod.mk.inj h).2
  have htypes : (profile.map fun entry => entry.2.1).Nodup := by decide
  have hmapped := htypes.map hinj
  rwa [List.map_map] at hmapped

namespace StoredPlan

theorem loadExecutionClosure (h : StoredPlan db request closure)
    (componentType : DeletionComponentType) :
    RadishMemory.loadExecutionClosure db request.params.deleteRequestId componentType =
      .ok (closure.refs componentType) := by
  obtain ⟨entry, hentry, rfl⟩ := mem_profile_types componentType
  refine loadChildren_of_filter ?_
  rw [filter_owner, h.frozen, closureRows]
  exact filter_flatMap_enumerate (fun entry => (request.params.deleteRequestId, entry.2.1))
    (fun entry => closure.refs entry.2.1) (profile_types_nodup _) hentry

theorem frozen_iff (h : StoredPlan db request closure) {componentType : DeletionComponentType}
    {id : Identifier} : Frozen db request.params.deleteRequestId componentType id ↔
      id ∈ (closure.refs componentType).map ObjectRef.objectId :=
  (loadExecutionClosure_ids (h.loadExecutionClosure componentType)).symm

omit [Platform] in
theorem zipIdx_zipIdx {α : Type} (l : List α) (first : Nat) :
    (l.zipIdx first).zipIdx first = (l.zipIdx first).map fun entry => (entry, entry.2) := by
  induction l generalizing first with
  | nil => rfl
  | cons a l ih => simp [ih]

/-- The component rows of a request are in plan order. -/
theorem componentRows_pairwise (request : DeleteRequest) :
    (componentRows request).Pairwise fun a b => a.ordinal ≤ b.ordinal := by
  rw [componentRows]
  generalize 0 = first
  generalize request.params.plannedComponents = components
  induction components generalizing first with
  | nil => exact .nil
  | cons component rest ih =>
    rw [List.zipIdx_cons, List.map_cons]
    refine .cons (fun row hrow => ?_) (ih (first + 1))
    obtain ⟨⟨c, n⟩, hmem, rfl⟩ := List.mem_map.1 hrow
    have hle := List.le_snd_of_mem_zipIdx hmem
    change first ≤ n
    dsimp only at hle
    omega

/-- A component row with its targets gives the component back. -/
theorem intoDomain_ofTarget (D : Identifier) (ordinal : Nat) (component : DeletionTarget) :
    (ComponentRow.ofTarget D ordinal component).intoDomain
      component.params.targetRef.targetRefs = .ok component := by
  have href : storedTargetRef (ComponentRow.ofTarget D ordinal component)
      component.params.targetRef.targetRefs = .ok component.params.targetRef := by
    unfold storedTargetRef ComponentRow.ofTarget
    cases component.params.targetRef with
    | object ref => rfl
    | frozenClosure frozen =>
      simp only [DeletionTargetRef.kind, DeletionTargetRef.digest, DeletionTargetRef.targetRefs,
        FrozenTargetClosure.new, Except.bind_eq_ok_iff, Except.mapError_eq_ok_iff,
        Except.pure_eq_ok_iff, Checked.new_eq_ok_iff]
      exact ⟨frozen, rfl, rfl⟩
  simp only [ComponentRow.intoDomain, href, Except.ok_bind, Except.mapError_eq_ok_iff,
    DeletionTarget.new, Checked.new_eq_ok_iff]
  rfl

theorem componentKeys_nodup (request : DeleteRequest) :
    (request.params.plannedComponents.map fun component =>
      (request.params.deleteRequestId, component.params.componentKey)).Nodup := by
  have hvalid := request.valid
  simp only [DeleteRequestParams.check, Except.bind_eq_ok_iff, Except.exists_unit_iff,
    requireUnique, require_eq_ok_iff] at hvalid
  obtain ⟨-, -, -, hkeys⟩ := hvalid
  have hinj : Function.Injective fun key : Identifier => (request.params.deleteRequestId, key) :=
    fun a b h => (Prod.mk.inj h).2
  have hmapped := hkeys.map hinj
  rwa [List.map_map] at hmapped

theorem loadComponents (h : StoredPlan db request closure) :
    (componentRowsOf db request.params.deleteRequestId).zipIdx.mapM
      (loadComponent db request.params.deleteRequestId) =
      .ok request.params.plannedComponents := by
  rw [componentRowsOf, h.components, (componentRows_pairwise request).insertionSort_eq,
    componentRows, List.zipIdx_map, zipIdx_zipIdx, List.map_map, List.mapM_eq_ok_iff,
    List.forall₂_map_left_iff]
  have hfst := List.zipIdx_map_fst 0 request.params.plannedComponents
  conv => arg 3; rw [← hfst]
  rw [List.forall₂_map_right_iff, List.forall₂_same]
  rintro ⟨component, n⟩ hmem
  have hcomponent : component ∈ request.params.plannedComponents := by
    rw [← hfst]
    exact List.mem_map_of_mem hmem
  have htargets : loadChildren storedDeletion db.componentTargets
      (request.params.deleteRequestId, component.params.componentKey) =
      .ok component.params.targetRef.targetRefs := by
    refine loadChildren_of_filter ?_
    rw [filter_owner, h.componentTargets, componentTargetRows]
    exact filter_flatMap_enumerate
      (fun c : DeletionTarget => (request.params.deleteRequestId, c.params.componentKey))
      (fun c => c.params.targetRef.targetRefs) (componentKeys_nodup request) hcomponent
  change loadComponent db request.params.deleteRequestId
    (ComponentRow.ofTarget request.params.deleteRequestId n component, n) = .ok component
  have hordinal : require ((ComponentRow.ofTarget request.params.deleteRequestId n
      component).ordinal = n) storedDeletion = .ok () := require_of rfl
  have hkey : (ComponentRow.ofTarget request.params.deleteRequestId n component).componentKey =
      component.params.componentKey := rfl
  rw [loadComponent, hordinal, hkey, htargets]
  exact intoDomain_ofTarget _ n component

/-- The request is read back. -/
theorem loadRequest (h : StoredPlan db request closure) :
    RadishMemory.loadRequest db request.params.namespaceId request.params.deleteRequestId =
      .ok (some request) := by
  have hfound : (lookup RequestRow.deleteRequestId db.requests
      request.params.deleteRequestId).filter (·.namespaceId == request.params.namespaceId) =
      some (RequestRow.ofRequest request.params) := by
    rw [h.row]
    simp [RequestRow.ofRequest]
  rw [loadRequest_eq, hfound]
  have hdomain : (RequestRow.ofRequest request.params).intoDomain request.params.targetRefs
      request.params.plannedComponents = .ok request := by
    simp only [RequestRow.intoDomain, Except.mapError_eq_ok_iff, DeleteRequest.new,
      Checked.new_eq_ok_iff]
    rfl
  simp only [loadChildren_of_filter h.targets, h.loadComponents, hdomain, Except.ok_bind]
  rfl

end StoredPlan

/-! ## Every run stores its plans -/

theorem StoredPlan.congr (h : StoredPlan db request closure) (hsame : SamePlans db db') :
    StoredPlan db' request closure where
  profile := h.profile
  closureId := h.closureId
  sourceIds := h.sourceIds
  memoryIds := h.memoryIds
  row := by rw [hsame.requests, h.row]
  targets := by rw [hsame.requestTargets, h.targets]
  components := by rw [hsame.requestComponents, h.components]
  componentTargets := by rw [hsame.componentTargets, h.componentTargets]
  frozen := by rw [hsame.executionClosure, h.frozen]

/-- The plan of a request that has just been stored. -/
theorem StoredRequest.plan (hc : Constraints db) (h : StoredRequest db db' request closure) :
    StoredPlan db' request closure := by
  have hbuilt := buildExecutionClosure_eq_ok h.built
  have hold : ∀ {α : Type} {rows : List α} {f : α → Identifier} (p : α → Bool)
      (_ : References f rows RequestRow.deleteRequestId db.requests)
      (_ : ∀ a, p a = true → f a = request.params.deleteRequestId), rows.filter p = [] := by
    intro α rows f p hrefs hp
    rw [List.filter_eq_nil_iff]
    intro a ha hpa
    obtain ⟨r, hr, heq⟩ := hrefs a ha
    exact h.fresh r hr (heq.trans (hp a hpa))
  rw [h.result]
  refine ⟨h.profile, hbuilt.deleteRequestId, hbuilt.sourceIds, hbuilt.memoryIds, ?_, ?_, ?_, ?_,
    ?_⟩
  · change lookup _ (db.requests ++ _) _ = _
    have hnone := lookup_eq_none_iff.2 h.fresh
    unfold lookup at hnone ⊢
    rw [List.find?_append, hnone]
    simp [RequestRow.ofRequest]
  · change (db.requestTargets ++ _).filter _ = _
    rw [List.filter_append, hold _ hc.targetRequests (by simp), filter_enumerate_self,
      List.nil_append]
  · change (db.requestComponents ++ _).filter _ = _
    rw [List.filter_append, hold _ hc.componentRequests (by simp), List.nil_append,
      List.filter_eq_self]
    intro row hrow
    obtain ⟨entry, -, rfl⟩ := List.mem_map.1 hrow
    simp [ComponentRow.ofTarget]
  · change (db.componentTargets ++ _).filter _ = _
    rw [List.filter_append, hold _ hc.componentTargetRequests (by simp), List.nil_append,
      List.filter_eq_self]
    intro c hmem
    obtain ⟨component, -, hmem⟩ := List.mem_flatMap.1 hmem
    simp [(mem_enumerate hmem).1]
  · change (db.executionClosure ++ _).filter _ = _
    rw [List.filter_append, hold _ hc.closureRequests (by simp), List.nil_append,
      List.filter_eq_self]
    intro c hmem
    obtain ⟨entry, -, hmem⟩ := List.mem_flatMap.1 hmem
    simp [(mem_enumerate hmem).1]

/-- A request keeps its plan when another one is stored. -/
theorem StoredPlan.requestAdded {other : DeleteRequest} {otherClosure : ExecutionClosure}
    (h : StoredPlan db request closure) (hstored : StoredRequest db db' other otherClosure) :
    StoredPlan db' request closure := by
  have hne : other.params.deleteRequestId ≠ request.params.deleteRequestId :=
    fun heq => hstored.fresh _ (lookup_mem h.row) heq.symm
  rw [hstored.result]
  refine ⟨h.profile, h.closureId, h.sourceIds, h.memoryIds, lookup_append_of_some h.row, ?_, ?_,
    ?_, ?_⟩
  · change (db.requestTargets ++ _).filter _ = _
    rw [List.filter_append, h.targets, filter_enumerate_of_ne hne, List.append_nil]
  · change (db.requestComponents ++ componentRows other).filter _ = _
    have hnil : (componentRows other).filter
        (·.deleteRequestId == request.params.deleteRequestId) = [] := by
      rw [List.filter_eq_nil_iff]
      intro row hrow
      obtain ⟨entry, -, rfl⟩ := List.mem_map.1 hrow
      simpa [ComponentRow.ofTarget] using hne
    rw [List.filter_append, h.components, hnil, List.append_nil]
  · change (db.componentTargets ++ componentTargetRows other).filter _ = _
    have hnil : (componentTargetRows other).filter
        (fun c => decide (c.owner.1 = request.params.deleteRequestId)) = [] := by
      rw [List.filter_eq_nil_iff]
      intro c hmem
      obtain ⟨component, -, hmem⟩ := List.mem_flatMap.1 hmem
      simpa [(mem_enumerate hmem).1] using hne
    rw [List.filter_append, h.componentTargets, hnil, List.append_nil]
  · change (db.executionClosure ++ closureRows _ otherClosure).filter _ = _
    have hnil : (closureRows other.params.deleteRequestId otherClosure).filter
        (fun c => decide (c.owner.1 = request.params.deleteRequestId)) = [] := by
      rw [List.filter_eq_nil_iff]
      intro c hmem
      obtain ⟨entry, -, hmem⟩ := List.mem_flatMap.1 hmem
      simpa [(mem_enumerate hmem).1] using hne
    rw [List.filter_append, h.frozen, hnil, List.append_nil]

/-- No change touches a stored plan. -/
theorem StoredPlan.step {c : Change} (h : StoredPlan db request closure)
    (happlies : c.Applies db db') : StoredPlan db' request closure := by
  rcases happlies.plans with ⟨other, otherClosure, rfl⟩ | hsame
  · exact h.requestAdded happlies
  · exact h.congr hsame

theorem PlansStored.step {c : Change} (hc : Constraints db) (h : PlansStored db)
    (happlies : c.Applies db db') : PlansStored db' := by
  have hold : ∀ r ∈ db.requests, ∃ request closure, r = RequestRow.ofRequest request.params ∧
      StoredPlan db' request closure := by
    intro r hr
    obtain ⟨request, closure, heq, hplan⟩ := h r hr
    exact ⟨request, closure, heq, hplan.step happlies⟩
  intro r hr
  rcases happlies.plans with ⟨request, closure, rfl⟩ | hsame
  · have hstored : StoredRequest db db' request closure := happlies
    have hrequests : db'.requests = db.requests ++ [RequestRow.ofRequest request.params] := by
      rw [hstored.result]
      rfl
    rw [hrequests, List.mem_append, List.mem_singleton] at hr
    rcases hr with hr | hr
    · exact hold r hr
    · exact ⟨request, closure, hr, hstored.plan hc⟩
  · rw [hsame.requests] at hr
    exact hold r hr

/-- The invariant of the library together with its stored plans. -/
structure PlannedLibrary (db : Database) : Prop where
  library : LibraryInvariant db
  plans : PlansStored db

theorem PlannedLibrary.step {c : Change} (h : PlannedLibrary db) (happlies : c.Applies db db') :
    PlannedLibrary db' :=
  ⟨h.library.step happlies, h.plans.step h.library.constraints happlies⟩

theorem PlannedLibrary.op {operation : Op} (h : PlannedLibrary db) :
    PlannedLibrary (operation.apply db) :=
  Op.preserves (fun _ _ _ hP _ happlies => hP.step happlies)
    h.library.constraints.resultAttempts h

/-- Every library that operations can produce satisfies the invariant and reads its plans back. -/
theorem plannedLibrary_of_run (ops : List Op) : PlannedLibrary (runOps .empty ops) :=
  runOps_invariant (fun _ _ h => h.op)
    ⟨LibraryInvariant.empty, fun _ hr => absurd hr List.not_mem_nil⟩ ops

end RadishMemory
