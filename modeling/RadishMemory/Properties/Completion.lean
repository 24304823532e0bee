import RadishMemory.Properties.Effects
import RadishMemory.Construction.Samples

/-!
# What completed evidence stands for

Evidence repeats the stored results of the latest attempt of a request and says `completed` when
every component succeeded in it.  Here the stored results are tied to the library: the last
component of an attempt gives every closed object its final state, so as long as no later
attempt records a failure the objects of a completed request stay `deleted`
(`completed_is_final`).
-/

namespace RadishMemory

section Library

variable [Platform] {db db' : Database}

/-! ## Results -/

section Results

omit [Platform]

/-- The component of the type succeeded in the attempt. -/
def Succeeded (db : Database) (D : Identifier) (attemptOrdinal : Nat)
    (componentType : DeletionComponentType) : Prop :=
  ∃ c ∈ db.requestComponents, c.deleteRequestId = D ∧ c.componentType = componentType ∧
    ∃ r ∈ db.results, r.key = (D, attemptOrdinal, c.componentKey) ∧ r.status = .succeeded

/-- Every component of the plan succeeded in the attempt. -/
def AllSucceeded (db : Database) (D : Identifier) (attemptOrdinal : Nat) : Prop :=
  ∀ c ∈ db.requestComponents, c.deleteRequestId = D →
    ∃ r ∈ db.results, r.key = (D, attemptOrdinal, c.componentKey) ∧ r.status = .succeeded

theorem failedIn_eq_true_iff {D : Identifier} {attemptOrdinal : Nat} :
    failedIn db D attemptOrdinal = true ↔ ∃ r ∈ db.results, r.deleteRequestId = D ∧
      r.attemptOrdinal = attemptOrdinal ∧ r.status = .failed := by
  simp [failedIn, and_assoc]

/-- Where every component succeeded none failed: the key of a result is unique. -/
theorem AllSucceeded.not_failedIn (hc : Constraints db) {D : Identifier} {attemptOrdinal : Nat}
    (h : AllSucceeded db D attemptOrdinal) : failedIn db D attemptOrdinal = false := by
  rw [← Bool.not_eq_true, failedIn_eq_true_iff]
  rintro ⟨r, hr, rfl, rfl, hfailed⟩
  obtain ⟨c, hcomponent, heq⟩ := hc.resultComponents r hr
  rw [Prod.mk.injEq] at heq
  obtain ⟨s, hs, hkey, hsucceeded⟩ := h c hcomponent heq.1
  rw [heq.2] at hkey
  rw [← hc.resultKeys.eq_of_mem hs hr hkey, hsucceeded] at hfailed
  cases hfailed

theorem Succeeded.attempt (hc : Constraints db) {D : Identifier} {attemptOrdinal : Nat}
    {componentType : DeletionComponentType} (h : Succeeded db D attemptOrdinal componentType) :
    ∃ a ∈ db.attempts, a.deleteRequestId = D ∧ a.attemptOrdinal = attemptOrdinal := by
  obtain ⟨c, -, -, -, r, hr, hkey, -⟩ := h
  obtain ⟨a, ha, heq⟩ := hc.resultAttempts r hr
  rw [ResultRow.key, Prod.mk.injEq, Prod.mk.injEq] at hkey
  rw [Prod.mk.injEq] at heq
  exact ⟨a, ha, heq.1.trans hkey.1, heq.2.trans hkey.2.1⟩

theorem Succeeded.request (hc : Constraints db) {D : Identifier} {attemptOrdinal : Nat}
    {componentType : DeletionComponentType} (h : Succeeded db D attemptOrdinal componentType) :
    ∃ r ∈ db.requests, r.deleteRequestId = D := by
  obtain ⟨a, ha, rfl, -⟩ := h.attempt hc
  exact hc.attemptRequests a ha

end Results

/-! ## Plans -/

/-- The plan of a request that was loaded. -/
theorem PlansStored.of_loaded (h : PlansStored db) {namespaceId D : Identifier}
    {request : DeleteRequest} (hload : loadRequest db namespaceId D = .ok (some request)) :
    ∃ closure, StoredPlan db request closure := by
  obtain ⟨rfl, rfl, hrow⟩ := loadRequest_eq_ok hload
  obtain ⟨stored, closure, heq, hplan⟩ := h _ (lookup_mem hrow)
  have hid : stored.params.deleteRequestId = request.params.deleteRequestId :=
    (congrArg RequestRow.deleteRequestId heq).symm
  have hns : stored.params.namespaceId = request.params.namespaceId :=
    (congrArg RequestRow.namespaceId heq).symm
  have hread := hplan.loadRequest
  rw [hid, hns, hload, Except.ok.injEq, Option.some.injEq] at hread
  rw [hread]
  exact ⟨closure, hplan⟩

/-- The row of a planned component. -/
theorem StoredPlan.component_mem {request : DeleteRequest} {closure : ExecutionClosure}
    (h : StoredPlan db request closure) {component : DeletionTarget}
    (hmem : component ∈ request.params.plannedComponents) :
    ∃ c ∈ db.requestComponents, c.deleteRequestId = request.params.deleteRequestId ∧
      c.componentKey = component.params.componentKey ∧
      c.componentType = component.params.componentType := by
  have hfst := List.zipIdx_map_fst 0 request.params.plannedComponents
  rw [← hfst] at hmem
  obtain ⟨⟨_, n⟩, hentry, rfl⟩ := List.mem_map.1 hmem
  have hrow : ComponentRow.ofTarget request.params.deleteRequestId n _ ∈ componentRows request :=
    List.mem_map_of_mem hentry
  rw [← h.components, List.mem_filter] at hrow
  exact ⟨_, hrow.1, rfl, rfl, rfl⟩

/-- The planned component of a row. -/
theorem StoredPlan.component_of_row {request : DeleteRequest} {closure : ExecutionClosure}
    (h : StoredPlan db request closure) {c : ComponentRow} (hmem : c ∈ db.requestComponents)
    (hD : c.deleteRequestId = request.params.deleteRequestId) :
    ∃ component ∈ request.params.plannedComponents,
      c.componentKey = component.params.componentKey ∧
      c.componentType = component.params.componentType := by
  have hrow : c ∈ componentRows request := by
    rw [← h.components, List.mem_filter]
    exact ⟨hmem, by simp [hD]⟩
  obtain ⟨⟨component, n⟩, hentry, rfl⟩ := List.mem_map.1 hrow
  have hfst := List.zipIdx_map_fst 0 request.params.plannedComponents
  refine ⟨component, ?_, rfl, rfl⟩
  rw [← hfst]
  exact List.mem_map_of_mem hentry

/-- A plan has one component for each key. -/
theorem StoredPlan.component_unique {request : DeleteRequest} {closure : ExecutionClosure}
    (h : StoredPlan db request closure) {c : ComponentRow} (hmem : c ∈ db.requestComponents)
    (hD : c.deleteRequestId = request.params.deleteRequestId) {component : DeletionTarget}
    (hcomponent : component ∈ request.params.plannedComponents)
    (hkey : c.componentKey = component.params.componentKey) :
    c.componentType = component.params.componentType := by
  obtain ⟨other, hother, hotherKey, htype⟩ := h.component_of_row hmem hD
  have heq : other = component := by
    refine List.inj_on_of_nodup_map (StoredPlan.componentKeys_nodup request) hother hcomponent ?_
    rw [← hotherKey, hkey]
  rw [htype, heq]

/-- The result that a change stores: a component that was executed, or one that failed. -/
structure ResultWritten (db : Database) (c : Change) (executed : DeleteRequest) (n : Nat)
    (componentType : DeletionComponentType) (component : DeletionTarget) (r : ResultRow) :
    Prop where
  change : c = .component executed n componentType ∧ r.status = .succeeded ∨
    c = .failure executed n componentType ∧ r.status = .failed
  loaded : loadRequest db executed.params.namespaceId executed.params.deleteRequestId =
    .ok (some executed)
  planned : PlannedComponent executed componentType component
  key : r.key = (executed.params.deleteRequestId, n, component.params.componentKey)
  fresh : ∀ old ∈ db.results, old.key ≠ r.key

/-- A change stores one result or none. -/
theorem Change.Applies.results {c : Change} (h : c.Applies db db') :
    db'.results = db.results ∨ ∃ executed n componentType planned r,
      ResultWritten db c executed n componentType planned r ∧
        db'.results = db.results ++ [r] := by
  have heffect := h.deletionEffect
  cases c with
  | request new closure =>
    have heq : db'.toDeletionTables = _ := heffect
    exact .inl (by rw [heq]; rfl)
  | attempt D =>
    obtain ⟨checkedAt, heq⟩ := heffect
    exact .inl (by rw [heq])
  | evidence new executionOrdinal =>
    have heq : db'.toDeletionTables = _ := heffect
    exact .inl (by rw [heq])
  | component executed n componentType =>
    obtain ⟨planned, result, acted, hdone⟩ := h
    obtain ⟨-, hfresh, -, rfl⟩ := Database.insertResult_eq_ok_iff.1 hdone.result
    rw [hdone.effect.frame] at hfresh ⊢
    refine .inr ⟨executed, n, componentType, planned, _, ⟨.inl ⟨rfl, hdone.succeeded⟩,
      hdone.loaded, hdone.planned, ?_, fun old hold heq => hfresh old hold ?_⟩, rfl⟩
    · rw [← hdone.key]
      rfl
    · simpa [ResultRow.key] using heq
  | failure executed n componentType =>
    obtain ⟨planned, result, hrecorded⟩ := h
    obtain ⟨-, hfresh, -, rfl⟩ := Database.insertResult_eq_ok_iff.1 hrecorded.result
    refine .inr ⟨executed, n, componentType, planned, _, ⟨.inr ⟨rfl, hrecorded.failed⟩,
      hrecorded.loaded, hrecorded.planned, ?_, fun old hold heq => hfresh old hold ?_⟩, rfl⟩
    · rw [← hrecorded.key]
      rfl
    · simpa [ResultRow.key] using heq
  | _ =>
    have heq : db'.toDeletionTables = _ := heffect
    exact .inl (by rw [heq])

/-- A change stores one piece of evidence or none. -/
theorem Change.Applies.evidence {c : Change} (h : c.Applies db db') :
    db'.evidence = db.evidence ∨ ∃ new n, c = .evidence new n ∧
      db'.evidence = db.evidence ++ [EvidenceRow.ofEvidence n new.params] := by
  have heffect := h.deletionEffect
  cases c with
  | request new closure =>
    have heq : db'.toDeletionTables = _ := heffect
    exact .inl (by rw [heq]; rfl)
  | attempt D =>
    obtain ⟨checkedAt, heq⟩ := heffect
    exact .inl (by rw [heq])
  | component executed n componentType =>
    obtain ⟨planned, result, -, -, heq⟩ := heffect
    exact .inl (by rw [heq])
  | failure executed n componentType =>
    obtain ⟨planned, result, -, -, heq⟩ := heffect
    exact .inl (by rw [heq])
  | evidence new n =>
    have heq : db'.toDeletionTables = _ := heffect
    exact .inr ⟨new, n, rfl, by rw [heq]⟩
  | _ =>
    have heq : db'.toDeletionTables = _ := heffect
    exact .inl (by rw [heq])

/-- Results are only added. -/
theorem Change.Applies.results_subset {c : Change} (h : c.Applies db db') :
    ∀ r ∈ db.results, r ∈ db'.results := by
  intro r hr
  rcases h.results with heq | ⟨-, -, -, -, new, -, heq⟩
  · rw [heq]
    exact hr
  · rw [heq]
    exact List.mem_append_left _ hr

/-- A stored request stays stored. -/
theorem Change.Applies.request_stays {c : Change} (h : c.Applies db db') {D : Identifier}
    (hD : ∃ r ∈ db.requests, r.deleteRequestId = D) :
    ∃ r ∈ db'.requests, r.deleteRequestId = D := by
  obtain ⟨r, hr, hid⟩ := hD
  rcases h.plans with ⟨new, closure, rfl⟩ | hsame
  · rw [StoredRequest.result h]
    exact ⟨r, List.mem_append_left _ hr, hid⟩
  · rw [hsame.requests]
    exact ⟨r, hr, hid⟩

/-- A request that has results keeps its components. -/
theorem Change.Applies.components {c : Change} (h : c.Applies db db')
    {D : Identifier} (hD : ∃ r ∈ db.requests, r.deleteRequestId = D) {row : ComponentRow}
    (hrow : row.deleteRequestId = D) :
    row ∈ db'.requestComponents ↔ row ∈ db.requestComponents := by
  rcases h.plans with ⟨new, closure, rfl⟩ | hsame
  · have hstored : StoredRequest db db' new closure := h
    obtain ⟨old, hold, hid⟩ := hD
    have hcomponents : db'.requestComponents = db.requestComponents ++ componentRows new := by
      rw [hstored.result]
      rfl
    rw [hcomponents, List.mem_append, or_iff_left]
    intro hmem
    obtain ⟨entry, -, rfl⟩ := List.mem_map.1 hmem
    exact hstored.fresh old hold (hid.trans hrow.symm)
  · rw [hsame.requestComponents]

/-- A component that succeeded after a change succeeded before it, or was just executed. -/
theorem Change.Applies.succeeded (h : PlannedLibrary db) {c : Change}
    (happlies : c.Applies db db') {D : Identifier} {n : Nat}
    {componentType : DeletionComponentType} (hsucceeded : Succeeded db' D n componentType) :
    Succeeded db D n componentType ∨ ∃ executed : DeleteRequest,
      executed.params.deleteRequestId = D ∧ c = .component executed n componentType := by
  have hc := h.library.constraints
  obtain ⟨row, hrow, hD, htype, r, hr, hkey, hstatus⟩ := hsucceeded
  have hold : r ∈ db.results → Succeeded db D n componentType := by
    intro hr
    obtain ⟨a, ha, hattempt⟩ := hc.resultAttempts r hr
    obtain ⟨q, hq, hid⟩ := hc.attemptRequests a ha
    rw [Prod.mk.injEq] at hattempt
    have hrD : r.deleteRequestId = D := congrArg Prod.fst hkey
    exact ⟨row, (happlies.components ⟨q, hq, hid.trans (hattempt.1.trans hrD)⟩ hD).1 hrow, hD,
      htype, r, hr, hkey, hstatus⟩
  rcases happlies.results with heq | ⟨executed, m, executedType, planned, new, hwritten, heq⟩
  · rw [heq] at hr
    exact .inl (hold hr)
  rw [heq, List.mem_append, List.mem_singleton] at hr
  rcases hr with hr | rfl
  · exact .inl (hold hr)
  rcases hwritten.change with ⟨rfl, -⟩ | ⟨-, hfailed⟩
  · -- The key of the result names the planned component, and with it the type.
    rw [hwritten.key, Prod.mk.injEq, Prod.mk.injEq] at hkey
    obtain ⟨rfl, rfl, hkey⟩ := hkey
    obtain ⟨closure, hplan⟩ := h.plans.of_loaded hwritten.loaded
    have hmem := List.mem_of_find?_eq_some hwritten.planned
    have hplannedType : planned.params.componentType = executedType := by
      simpa using List.find?_some hwritten.planned
    have hsame := (hplan.step happlies).component_unique hrow hD hmem hkey.symm
    rw [htype, hplannedType] at hsame
    rw [hsame]
    exact .inr ⟨executed, rfl, rfl⟩
  · rw [hfailed] at hstatus
    cases hstatus

/-- An executed component has succeeded. -/
theorem Change.Applies.succeeded_of_component (h : PlannedLibrary db) {executed : DeleteRequest}
    {n : Nat} {componentType : DeletionComponentType}
    (happlies : (Change.component executed n componentType).Applies db db') :
    Succeeded db' executed.params.deleteRequestId n componentType := by
  obtain ⟨planned, result, acted, hdone⟩ := id happlies
  obtain ⟨closure, hplan⟩ := h.plans.of_loaded hdone.loaded
  obtain ⟨row, hrow, hD, hkey, htype⟩ :=
    (hplan.step happlies).component_mem (List.mem_of_find?_eq_some hdone.planned)
  have hplannedType : planned.params.componentType = componentType := by
    simpa using List.find?_some hdone.planned
  obtain ⟨-, -, -, hresult⟩ := Database.insertResult_eq_ok_iff.1 hdone.result
  refine ⟨row, hrow, hD, htype.trans hplannedType,
    ResultRow.ofResult executed.params.deleteRequestId n result, ?_, ?_, hdone.succeeded⟩
  · rw [hresult]
    exact List.mem_append_right _ List.mem_cons_self
  · rw [hkey, ← hdone.key]
    rfl

theorem Change.Applies.failedIn_mono {c : Change} (h : c.Applies db db') {D : Identifier} {n : Nat}
    (hnone : failedIn db' D n = false) : failedIn db D n = false := by
  rw [← Bool.not_eq_true, failedIn_eq_true_iff] at hnone ⊢
  rintro ⟨r, hr, hfailed⟩
  exact hnone ⟨r, h.results_subset r hr, hfailed⟩

/-- An attempt in which every component succeeded gets no further result. -/
theorem AllSucceeded.step {c : Change} (happlies : c.Applies db db') {D : Identifier} {n : Nat} (hD : ∃ r ∈ db.requests, r.deleteRequestId = D)
    (h : AllSucceeded db D n) : AllSucceeded db' D n := by
  intro row hrow hrowD
  obtain ⟨r, hr, hkey, hstatus⟩ := h row ((happlies.components hD hrowD).1 hrow) hrowD
  exact ⟨r, happlies.results_subset r hr, hkey, hstatus⟩

/-! ## The final state -/

/-- The change does not freeze anything for a request that is already stored. -/
theorem Change.Applies.frozen_iff {c : Change} (h : c.Applies db db') {D id : Identifier}
    {componentType : DeletionComponentType} (hD : ∃ r ∈ db.requests, r.deleteRequestId = D) :
    Frozen db' D componentType id ↔ Frozen db D componentType id := by
  rcases h.plans with ⟨request, closure, rfl⟩ | hsame
  · obtain ⟨r, hr, rfl⟩ := hD
    rw [StoredRequest.frozen_iff h, or_iff_left]
    rintro ⟨heq, -⟩
    exact StoredRequest.fresh h r hr heq
  · rw [Frozen, hsame.executionClosure]
    rfl

namespace ClosedTable

variable {α : Type} (T : ClosedTable α)

/-- Every row that the request froze has the state. -/
def AllHave (db : Database) (D : Identifier) (deletionState : DeletionState) : Prop :=
  ∀ row ∈ T.rows db.toDataTables, Frozen db D T.component (T.id row) →
    T.state row = deletionState

/-- Frozen ids have rows, and no two requests freeze the same one. -/
structure Kept (db : Database) : Prop where
  stored : ∀ D id, Frozen db D T.component id → ∃ row ∈ T.rows db.toDataTables, T.id row = id
  one : ∀ D D' id, Frozen db D T.component id → Frozen db D' T.component id → D = D'

variable {T}

/-- What is `deleted` stays so until the request is executed to its end again. -/
theorem AllHave.step (hT : T.Sound) (hkept : T.Kept db) (hc : Constraints db) {c : Change}
    (happlies : c.Applies db db') {D : Identifier}
    (hD : ∃ r ∈ db.requests, r.deleteRequestId = D)
    (hother : ∀ executed n, c = .component executed n .minimalAudit →
      executed.params.deleteRequestId ≠ D)
    (h : T.AllHave db D .deleted) : T.AllHave db' D .deleted := by
  intro row hrow hfrozen
  rw [happlies.frozen_iff hD] at hfrozen
  rcases (hT.mem_rows hc happlies).1 hrow with ⟨old, hold, rfl⟩ | hnew
  · rw [T.on_id] at hfrozen
    have hdeleted := h old hold hfrozen
    rcases T.on_state c old with hsame | hactive | ⟨executed, n, rfl, hexecuted⟩
    · rw [hsame, hdeleted]
    · rw [hdeleted] at hactive
      cases hactive
    · exact absurd (hkept.one _ _ _ hexecuted hfrozen) (hother executed n rfl)
  · obtain ⟨old, hold, hid⟩ := hkept.stored _ _ hfrozen
    exact absurd hid (hT.fresh db db' c happlies row hnew old hold)

/-- The last component gives every frozen row the final state of the attempt. -/
theorem AllHave.of_audit (hT : T.Sound) (hc : Constraints db) {executed : DeleteRequest} {n : Nat}
    (happlies : (Change.component executed n .minimalAudit).Applies db db')
    (hD : ∃ r ∈ db.requests, r.deleteRequestId = executed.params.deleteRequestId) :
    T.AllHave db' executed.params.deleteRequestId
      (finalState db executed.params.deleteRequestId n) := by
  intro row hrow hfrozen
  rw [happlies.frozen_iff hD] at hfrozen
  have hadded : T.added (.component executed n .minimalAudit) = [] := T.added_component _ _ _
  rcases (hT.mem_rows hc happlies).1 hrow with ⟨old, hold, rfl⟩ | hnew
  · rw [T.on_id] at hfrozen
    have hon : T.on db (.component executed n .minimalAudit) old =
        T.setState (finalState db executed.params.deleteRequestId n) old := by
      unfold on
      dsimp only
      rw [if_pos hfrozen, if_neg T.component_ne.symm, if_pos rfl]
    rw [hon, T.state_setState]
  · rw [hadded] at hnew
    cases hnew

end ClosedTable

namespace LibraryInvariant

theorem sourceKept (h : LibraryInvariant db) : sourceTable.Kept db where
  stored D id hfrozen := by
    obtain ⟨s, hs, hid, -⟩ := h.closedSources D id hfrozen
    exact ⟨s, hs, hid⟩
  one _ _ _ hD hD' := h.oneSource hD hD'

theorem proposalKept (h : LibraryInvariant db) : proposalTable.Kept db where
  stored D id hfrozen := by
    obtain ⟨p, hp, hid, -⟩ := h.closedProposals D id hfrozen
    exact ⟨p, hp, hid⟩
  one := h.oneProposal

theorem recordKept (h : LibraryInvariant db) : recordTable.Kept db where
  stored D id hfrozen := by
    obtain ⟨r, hr, hid, -⟩ := h.closedRecords D id hfrozen
    exact ⟨r, hr, hid⟩
  one := h.oneRecord

end LibraryInvariant

/-- Every source, proposal and record that the request froze has the state. -/
structure ClosedAs (db : Database) (D : Identifier) (deletionState : DeletionState) : Prop where
  sources : sourceTable.AllHave db D deletionState
  proposals : proposalTable.AllHave db D deletionState
  records : recordTable.AllHave db D deletionState

theorem ClosedAs.step (h : LibraryInvariant db) {c : Change} (happlies : c.Applies db db')
    {D : Identifier} (hD : ∃ r ∈ db.requests, r.deleteRequestId = D)
    (hother : ∀ executed n, c = .component executed n .minimalAudit →
      executed.params.deleteRequestId ≠ D)
    (hclosed : ClosedAs db D .deleted) : ClosedAs db' D .deleted where
  sources := hclosed.sources.step sourceTable_sound h.sourceKept h.constraints happlies hD hother
  proposals := hclosed.proposals.step proposalTable_sound h.proposalKept h.constraints happlies hD
    hother
  records := hclosed.records.step recordTable_sound h.recordKept h.constraints happlies hD hother

/-- The last attempt of a request that came to its end without a failure left everything
`deleted`. -/
def FinalStates (db : Database) : Prop :=
  ∀ D n, Succeeded db D n .minimalAudit → failedIn db D n = false →
    (∀ m, Succeeded db D m .minimalAudit → m ≤ n) → ClosedAs db D .deleted

theorem Succeeded.step {c : Change} (happlies : c.Applies db db') (hc : Constraints db)
    {D : Identifier} {n : Nat} {componentType : DeletionComponentType}
    (h : Succeeded db D n componentType) : Succeeded db' D n componentType := by
  obtain ⟨row, hrow, hD, htype, r, hr, hkey, hstatus⟩ := id h
  exact ⟨row, (happlies.components (h.request hc) hD).2 hrow, hD, htype, r,
    happlies.results_subset r hr, hkey, hstatus⟩

theorem FinalStates.step (h : PlannedLibrary db) (hfinal : FinalStates db) {c : Change} {op : Op}
    {start : Database} (hwithin : c.Within op start db) (happlies : c.Applies db db') :
    FinalStates db' := by
  have hc := h.library.constraints
  intro D n hsucceeded hnone hlast
  by_cases haudit : ∃ executed : DeleteRequest, executed.params.deleteRequestId = D ∧
      c = .component executed n .minimalAudit
  · obtain ⟨executed, rfl, rfl⟩ := haudit
    obtain ⟨planned, result, acted, hdone⟩ := id happlies
    have hD : ∃ r ∈ db.requests, r.deleteRequestId = executed.params.deleteRequestId := by
      obtain ⟨r, hr, hid, -⟩ := hdone.stored
      exact ⟨r, hr, hid⟩
    have hstate : finalState db executed.params.deleteRequestId n = .deleted := by
      rw [finalState, happlies.failedIn_mono hnone]
      rfl
    rw [← hstate]
    exact ⟨.of_audit sourceTable_sound hc happlies hD,
      .of_audit proposalTable_sound hc happlies hD, .of_audit recordTable_sound hc happlies hD⟩
  · have hbefore : Succeeded db D n .minimalAudit :=
      (happlies.succeeded h hsucceeded).resolve_right haudit
    have hclosed : ClosedAs db D .deleted :=
      hfinal D n hbefore (happlies.failedIn_mono hnone) fun m hm =>
        hlast m (hm.step happlies hc)
    refine hclosed.step h.library happlies (hbefore.request hc) fun executed m hchange heq => ?_
    -- An audit of a later attempt would contradict that `n` is the last one.
    subst heq hchange
    have hlatest : latestAttempt db executed.params.deleteRequestId = some m := hwithin.2.2
    obtain ⟨a, ha, hattempt, rfl⟩ := hbefore.attempt hc
    have hle := (latestAttempt_eq_some hlatest).2 a ha hattempt
    have hge := hlast m (happlies.succeeded_of_component h)
    exact haudit ⟨executed, rfl, by rw [le_antisymm hle hge]⟩

/-! ## Evidence -/

/-- Completed evidence is about an attempt in which every component succeeded. -/
def EvidenceBacked (db : Database) : Prop :=
  ∀ e ∈ db.evidence, (∃ r ∈ db.requests, r.deleteRequestId = e.deleteRequestId) ∧
    (e.overallStatus = .completed → AllSucceeded db e.deleteRequestId e.executionOrdinal)

/-- The results of an attempt, when all of them say `succeeded`. -/
theorem StoredPlan.allSucceeded {request : DeleteRequest} {closure : ExecutionClosure}
    (h : StoredPlan db request closure) {n : Nat} {results : List ComponentResult}
    (hresults : (request.params.plannedComponents.mapM fun component =>
      loadExecutionResult db request.params.deleteRequestId n component) = .ok results)
    (hall : ∀ result ∈ results, result.params.status = .succeeded) :
    AllSucceeded db request.params.deleteRequestId n := by
  rw [List.mapM_eq_ok_iff] at hresults
  intro c hc hD
  obtain ⟨component, hcomponent, hkey, -⟩ := h.component_of_row hc hD
  obtain ⟨result, hresult, hone⟩ := List.Forall₂.exists_of_mem_left hresults hcomponent
  simp only [loadExecutionResult, Except.bind_eq_ok_iff, Option.orError_eq_ok_iff,
    ResultRow.intoDomain, Except.mapError_eq_ok_iff, ComponentResult.new,
    Checked.new_eq_ok_iff] at hone
  obtain ⟨row, hlookup, hparams⟩ := hone
  have hstatus := hall result hresult
  rw [hparams] at hstatus
  refine ⟨row, lookup_mem hlookup, ?_, hstatus⟩
  rw [lookup_key hlookup, hkey]

/-- The results that an evidence write read back, when they call for `completed`. -/
theorem EvidenceChecked.allSucceeded (h : PlannedLibrary db) {evidence : DeletionEvidence}
    {n : Nat} (hchecked : EvidenceChecked db evidence n)
    (hcompleted : evidence.params.overallStatus = .completed) :
    AllSucceeded db evidence.params.deleteRequestId n := by
  obtain ⟨request, hload, -, persisted, hpersisted, hvalid⟩ := hchecked.results
  obtain ⟨hid, -, -⟩ := loadRequest_eq_ok hload
  obtain ⟨closure, hplan⟩ := h.plans.of_loaded hload
  simp only [validateEvidenceResults, Except.bind_eq_ok_iff, Except.exists_unit_iff,
    require_eq_ok_iff] at hvalid
  have hall : persisted.all (·.params.status == .succeeded) = true := by
    have hstatus := hvalid.2.1
    rw [hcompleted, expectedStatus] at hstatus
    by_contra hnot
    rw [if_neg hnot] at hstatus
    cases hstatus
  rw [← hid]
  exact hplan.allSucceeded hpersisted fun result hresult => by
    simpa using List.all_eq_true.1 hall result hresult

theorem EvidenceBacked.step (h : PlannedLibrary db) (hbacked : EvidenceBacked db) {c : Change}
    (happlies : c.Applies db db') : EvidenceBacked db' := by
  have hrequests : ∀ D, (∃ r ∈ db.requests, r.deleteRequestId = D) →
      ∃ r ∈ db'.requests, r.deleteRequestId = D := fun D hD => happlies.request_stays hD
  have hold : ∀ e ∈ db.evidence, (∃ r ∈ db'.requests, r.deleteRequestId = e.deleteRequestId) ∧
      (e.overallStatus = .completed → AllSucceeded db' e.deleteRequestId e.executionOrdinal) := by
    intro e he
    obtain ⟨hD, hall⟩ := hbacked e he
    exact ⟨hrequests _ hD, fun hcompleted => (hall hcompleted).step happlies hD⟩
  rcases happlies.evidence with heq | ⟨new, n, rfl, heq⟩
  · intro e he
    rw [heq] at he
    exact hold e he
  · intro e he
    rw [heq, List.mem_append, List.mem_singleton] at he
    rcases he with he | rfl
    · exact hold e he
    · obtain ⟨request, hload, -⟩ := happlies.1.results
      obtain ⟨hid, -, hrow⟩ := loadRequest_eq_ok hload
      have hD : ∃ r ∈ db.requests, r.deleteRequestId = new.params.deleteRequestId :=
        ⟨_, lookup_mem hrow, hid⟩
      exact ⟨hrequests _ hD, fun hcompleted =>
        (happlies.1.allSucceeded h hcompleted).step happlies hD⟩

/-! ## Runs -/

/-- The invariant of the library with what its results and its evidence stand for. -/
structure ExecutedLibrary (db : Database) : Prop extends PlannedLibrary db where
  final : FinalStates db
  backed : EvidenceBacked db

theorem ExecutedLibrary.step (h : ExecutedLibrary db) {c : Change} {op : Op} {start : Database}
    (hwithin : c.Within op start db) (happlies : c.Applies db db') : ExecutedLibrary db' :=
  ⟨h.toPlannedLibrary.step happlies, h.final.step h.toPlannedLibrary hwithin happlies,
    h.backed.step h.toPlannedLibrary happlies⟩

theorem ExecutedLibrary.op {operation : Op} (h : ExecutedLibrary db) :
    ExecutedLibrary (operation.apply db) :=
  Op.preserves (fun _ _ _ hP hwithin happlies => hP.step hwithin happlies)
    h.library.constraints.resultAttempts h

theorem ExecutedLibrary.run (h : ExecutedLibrary db) (ops : List Op) :
    ExecutedLibrary (runOps db ops) :=
  runOps_invariant (fun _ _ hP => hP.op) h ops

/-- Evidence is only added. -/
theorem ExecutedLibrary.evidence_run (hlibrary : ExecutedLibrary db) {e : EvidenceRow}
    (h : e ∈ db.evidence) (ops : List Op) : e ∈ (runOps db ops).evidence := by
  refine (runOps_invariant (P := fun db => ExecutedLibrary db ∧ e ∈ db.evidence)
    (fun db op hP => ⟨hP.1.op, ?_⟩) ⟨hlibrary, h⟩ ops).2
  refine Op.preserves (P := fun db => e ∈ db.evidence) (fun a b c hmem _ happlies => ?_)
    hP.1.library.constraints.resultAttempts hP.2
  rcases happlies.evidence with hsame | ⟨new, n, -, hadded⟩
  · rw [hsame]
    exact hmem
  · rw [hadded]
    exact List.mem_append_left _ hmem

/-- A plan is never touched again. -/
theorem StoredPlan.run (h : ExecutedLibrary db) {request : DeleteRequest}
    {closure : ExecutionClosure} (hplan : StoredPlan db request closure) (ops : List Op) :
    StoredPlan (runOps db ops) request closure := by
  refine (runOps_invariant (P := fun db => ExecutedLibrary db ∧ StoredPlan db request closure)
    (fun db op hP => ⟨hP.1.op, ?_⟩) ⟨h, hplan⟩ ops).2
  exact Op.preserves (P := fun db => StoredPlan db request closure)
    (fun _ _ _ hplan _ happlies => hplan.step happlies) hP.1.library.constraints.resultAttempts hP.2

theorem executedLibrary_of_run (ops : List Op) : ExecutedLibrary (runOps .empty ops) := by
  refine runOps_invariant (fun _ _ h => h.op) ⟨⟨LibraryInvariant.empty, ?_⟩, ?_, ?_⟩ ops
  · exact fun _ hr => absurd hr List.not_mem_nil
  · rintro D n ⟨c, hc, -⟩
    exact absurd hc List.not_mem_nil
  · exact fun _ he => absurd he List.not_mem_nil

section Targets

omit [Platform]

/-- The objects a stored request names. -/
def targetsOf (db : Database) (D : Identifier) : List ObjectRef :=
  (db.requestTargets.filter fun c => c.owner = D).map Child.value

/-- The target is stored and has the state. -/
def TargetHas (db : Database) (deletionState : DeletionState) (ref : ObjectRef) : Prop :=
  match ref.objectType with
  | .sourceArtifact => ∃ s ∈ db.sources, s.sourceId = ref.objectId ∧
      s.governance.deletionState = deletionState
  | .memoryRecord => ∃ r ∈ db.records, r.memoryId = ref.objectId ∧
      r.governance.deletionState = deletionState
  | _ => False

/-- Nothing more is stored as evidence for the request. -/
def NoFurtherEvidence (stored db : Database) (D : Identifier) : Prop :=
  ∀ e ∈ db.evidence, e.deleteRequestId = D → e ∈ stored.evidence

/-- Every target of the request that was `deleted` still is. -/
def TargetsStayDeleted (stored db : Database) (D : Identifier) : Prop :=
  ∀ ref ∈ targetsOf stored D, TargetHas stored .deleted ref → TargetHas db .deleted ref

end Targets

/-- The targets of a request are the sources and records it froze. -/
theorem StoredPlan.target_frozen {request : DeleteRequest} {closure : ExecutionClosure}
    (h : StoredPlan db request closure) {ref : ObjectRef}
    (hmem : ref ∈ targetsOf db request.params.deleteRequestId) :
    ref.objectType = .sourceArtifact ∧
      Frozen db request.params.deleteRequestId .sourceMetadata ref.objectId ∨
    ref.objectType = .memoryRecord ∧
      Frozen db request.params.deleteRequestId .memoryRecord ref.objectId := by
  rw [targetsOf, h.targets] at hmem
  obtain ⟨c, hc, rfl⟩ := List.mem_map.1 hmem
  have htarget : c.value ∈ request.params.targetRefs := (mem_enumerate hc).2.2
  have hprofile := h.profile
  simp only [validateRequestProfile, Except.bind_eq_ok_iff, Except.exists_unit_iff,
    require_eq_ok_iff] at hprofile
  rcases hprofile.1.2.2 c.value htarget with htype | htype
  · refine .inl ⟨htype, h.frozen_iff.2 ?_⟩
    rw [ExecutionClosure.refs, mem_refSet_ids, h.sourceIds]
    refine mem_idsOfType.2 ?_
    rw [← htype]
    exact htarget
  · refine .inr ⟨htype, h.frozen_iff.2 ?_⟩
    rw [ExecutionClosure.refs, mem_refSet_ids, h.memoryIds]
    refine mem_idsOfType.2 ?_
    rw [← htype]
    exact htarget

/-- The targets of a request have the state that everything it froze has. -/
theorem ClosedAs.targetHas {request : DeleteRequest} {closure : ExecutionClosure}
    {deletionState : DeletionState}
    (hclosed : ClosedAs db request.params.deleteRequestId deletionState) (h : LibraryInvariant db)
    (hplan : StoredPlan db request closure) {ref : ObjectRef}
    (href : ref ∈ targetsOf db request.params.deleteRequestId) :
    TargetHas db deletionState ref := by
  rcases hplan.target_frozen href with ⟨htype, hfrozen⟩ | ⟨htype, hfrozen⟩
  · obtain ⟨s, hs, hsource, -⟩ := h.closedSources _ _ hfrozen
    rw [TargetHas, htype]
    refine ⟨s, hs, hsource, hclosed.sources s hs ?_⟩
    rw [show sourceTable.id s = ref.objectId from hsource]
    exact hfrozen
  · obtain ⟨r, hr, hrecord, -⟩ := h.closedRecords _ _ hfrozen
    rw [TargetHas, htype]
    refine ⟨r, hr, hrecord, hclosed.records r hr ?_⟩
    rw [show recordTable.id r = ref.objectId from hrecord]
    exact hfrozen

/-- The plan of a request has a component of every type. -/
theorem StoredPlan.component_of_type {request : DeleteRequest} {closure : ExecutionClosure}
    (h : StoredPlan db request closure) (componentType : DeletionComponentType) :
    ∃ c ∈ db.requestComponents, c.deleteRequestId = request.params.deleteRequestId ∧
      c.componentType = componentType := by
  have hprofile := h.profile
  simp only [validateRequestProfile, Except.bind_eq_ok_iff, Except.exists_unit_iff,
    require_eq_ok_iff, List.all_eq_true] at hprofile
  obtain ⟨⟨-, hlength, -⟩, expected, -, hmatches⟩ := hprofile
  obtain ⟨entry, hentry, htype⟩ := mem_profile_types componentType
  rw [← List.map_snd_zip hlength.ge] at hentry
  obtain ⟨⟨component, _⟩, hzip, rfl⟩ := List.mem_map.1 hentry
  have hmatch := hmatches _ hzip
  simp only [componentMatches, Bool.and_eq_true, beq_iff_eq] at hmatch
  obtain ⟨c, hc, hD, -, hcType⟩ := h.component_mem (List.of_mem_zip hzip).1
  exact ⟨c, hc, hD, by rw [hcType, hmatch.1.1.1.2, htype]⟩

/-- Where every component succeeded, the one of each type did. -/
theorem StoredPlan.succeeded {request : DeleteRequest} {closure : ExecutionClosure}
    (h : StoredPlan db request closure) {n : Nat}
    (hall : AllSucceeded db request.params.deleteRequestId n)
    (componentType : DeletionComponentType) :
    Succeeded db request.params.deleteRequestId n componentType := by
  obtain ⟨c, hc, hD, htype⟩ := h.component_of_type componentType
  exact ⟨c, hc, hD, htype, hall c hc hD⟩

omit [Platform] in
/-- The latest attempt that came to its end. -/
theorem exists_last_audit (hc : Constraints db) {D : Identifier} {n : Nat}
    (h : Succeeded db D n .minimalAudit) :
    ∃ m, n ≤ m ∧ Succeeded db D m .minimalAudit ∧
      ∀ k, Succeeded db D k .minimalAudit → k ≤ m := by
  classical
  obtain ⟨a, ha, hD, hordinal⟩ := h.attempt hc
  cases hlatest : latestAttempt db D with
  | none => exact absurd hD (latestAttempt_eq_none hlatest a ha)
  | some bound =>
    have hbound : ∀ k, Succeeded db D k .minimalAudit → k ≤ bound := by
      intro k hk
      obtain ⟨b, hb, hbD, rfl⟩ := hk.attempt hc
      exact (latestAttempt_eq_some hlatest).2 b hb hbD
    refine ⟨Nat.findGreatest (fun k => Succeeded db D k .minimalAudit) bound,
      Nat.le_findGreatest (hbound n h) h, ?_, fun k hk => Nat.le_findGreatest (hbound k hk) hk⟩
    exact Nat.findGreatest_spec (P := fun k => Succeeded db D k .minimalAudit) (hbound n h) h

/-- Where completed evidence is stored and no later attempt recorded a failure, everything the
request froze is `deleted`. -/
theorem ExecutedLibrary.closedAs (h : ExecutedLibrary db) {e : EvidenceRow}
    (he : e ∈ db.evidence) (hcompleted : e.overallStatus = .completed)
    (hlater : ∀ r ∈ db.results, r.deleteRequestId = e.deleteRequestId → r.status = .failed →
      r.attemptOrdinal ≤ e.executionOrdinal) :
    ClosedAs db e.deleteRequestId .deleted := by
  have hc := h.library.constraints
  obtain ⟨⟨q, hq, hD⟩, hall⟩ := h.backed e he
  have hsucceeded := hall hcompleted
  obtain ⟨request, closure, rfl, hplan⟩ := h.plans q hq
  have hid : request.params.deleteRequestId = e.deleteRequestId := hD
  have haudit : Succeeded db e.deleteRequestId e.executionOrdinal .minimalAudit := by
    rw [← hid] at hsucceeded ⊢
    exact hplan.succeeded hsucceeded .minimalAudit
  obtain ⟨m, hle, hm, hlast⟩ := exists_last_audit hc haudit
  refine h.final _ m hm ?_ hlast
  rw [← Bool.not_eq_true, failedIn_eq_true_iff]
  rintro ⟨r, hr, hrD, rfl, hfailed⟩
  -- A failure in the last attempt is one of the attempt that the evidence is about.
  have heq := le_antisymm (hlater r hr hrD hfailed) hle
  have hnone := hsucceeded.not_failedIn hc
  rw [← heq, ← Bool.not_eq_true, failedIn_eq_true_iff] at hnone
  exact hnone ⟨r, hr, hrD, rfl, hfailed⟩

/-- The attempt that the evidence is about is still the latest, and no evidence was added. -/
structure Unextended (stored : Database) (D : Identifier) (n : Nat) (db : Database) : Prop where
  latest : latestAttempt db D = some n
  present : ∃ e ∈ db.evidence, e.deleteRequestId = D ∧ e.executionOrdinal = n
  same : NoFurtherEvidence stored db D

theorem Unextended.step {stored : Database} {D : Identifier} {n : Nat} (h : Unextended stored D n db)
    {c : Change} {op : Op} {start : Database} (hother : op.executes ≠ some D)
    (hwithin : c.Within op start db) (happlies : c.Applies db db') :
    Unextended stored D n db' := by
  have hattempts : latestAttempt db' D = latestAttempt db D := by
    have heffect := happlies.deletionEffect
    cases c with
    | attempt D' =>
      obtain ⟨checkedAt, m, hopen⟩ := happlies
      obtain ⟨rfl, -, rfl⟩ := insertNextAttempt_eq_ok hopen
      refine latestAttempt_append_of_ne fun heq => hother ?_
      rw [hwithin.1]
      exact congrArg some heq
    | request new closure =>
      have heq : db'.toDeletionTables = _ := heffect
      exact latestAttempt_congr (by rw [heq]; rfl) D
    | component executed m componentType =>
      obtain ⟨planned, result, -, -, heq⟩ := heffect
      exact latestAttempt_congr (by rw [heq]) D
    | failure executed m componentType =>
      obtain ⟨planned, result, -, -, heq⟩ := heffect
      exact latestAttempt_congr (by rw [heq]) D
    | _ =>
      have heq : db'.toDeletionTables = _ := heffect
      exact latestAttempt_congr (by rw [heq]) D
  refine ⟨hattempts.trans h.latest, ?_, ?_⟩
  · obtain ⟨e, he, heq⟩ := h.present
    rcases happlies.evidence with hsame | ⟨new, m, -, hadded⟩
    · exact ⟨e, by rw [hsame]; exact he, heq⟩
    · exact ⟨e, by rw [hadded]; exact List.mem_append_left _ he, heq⟩
  · rcases happlies.evidence with hsame | ⟨new, m, rfl, hadded⟩
    · intro e he
      rw [hsame] at he
      exact h.same e he
    · intro e he hD
      rw [hadded, List.mem_append, List.mem_singleton] at he
      rcases he with he | rfl
      · exact h.same e he hD
      · -- A second evidence about the same attempt is refused.
        have hD : new.params.deleteRequestId = D := hD
        have hm : latestAttempt db new.params.deleteRequestId = some m := happlies.1.isLatest
        rw [hD, h.latest, Option.some.injEq] at hm
        obtain ⟨old, hold, holdD, hordinal⟩ := h.present
        obtain ⟨hfresh, -⟩ := Database.insertEvidenceRow_eq_ok happlies.2
        exact absurd (hordinal.trans hm) ((hfresh old hold).2 (holdD.trans hD.symm)).1

/-- Once completed evidence is stored for a request, no evidence is added for it until it is
executed again, and its targets are `deleted` as long as no later execution of it records a
failed component. -/
theorem completed_is_final (before after : List Op) (evidence : DeletionEvidence)
    (stored : Database)
    (hstored : (storeDeletionEvidence evidence).run (runOps .empty before) = (.ok (), stored))
    (hcompleted : evidence.params.overallStatus = .completed) :
    ((∀ op ∈ after, op.executes ≠ some evidence.params.deleteRequestId) →
      NoFurtherEvidence stored (runOps stored after) evidence.params.deleteRequestId) ∧
    ((∀ r ∈ (runOps stored after).results, r.deleteRequestId = evidence.params.deleteRequestId →
        r.status = .failed → r ∈ stored.results) →
      ∀ ref ∈ targetsOf stored evidence.params.deleteRequestId,
        TargetHas (runOps stored after) .deleted ref) := by
  obtain ⟨n, hchecked, hrow⟩ := storeDeletionEvidence_eq_ok hstored
  have hwithin : Change.Within (.storeDeletionEvidence evidence none) (runOps .empty before)
      (runOps .empty before) (.evidence evidence n) := rfl
  have hlibrary : ExecutedLibrary stored :=
    (executedLibrary_of_run before).step hwithin ⟨hchecked, hrow⟩
  obtain ⟨-, hresult⟩ := Database.insertEvidenceRow_eq_ok hrow
  have hmem : EvidenceRow.ofEvidence n evidence.params ∈ stored.evidence := by
    rw [hresult]
    exact List.mem_append_right _ List.mem_cons_self
  have hlatest : latestAttempt stored evidence.params.deleteRequestId = some n := by
    rw [latestAttempt_congr (by rw [hresult])]
    exact hchecked.isLatest
  constructor
  · intro hafter
    have hstart : Unextended stored evidence.params.deleteRequestId n stored :=
      ⟨hlatest, ⟨_, hmem, rfl, rfl⟩, fun _ he _ => he⟩
    have halong : Along (fun _ op => op.executes ≠ some evidence.params.deleteRequestId) stored
        after := Along.of_forall (fun op hop _ => hafter op hop) stored
    refine (runOps_preserves (P := fun db => ExecutedLibrary db ∧
      Unextended stored evidence.params.deleteRequestId n db) ?_ ⟨hlibrary, hstart⟩
      halong).2.same
    intro db op hP hother
    exact ⟨hP.1.op, Op.preserves (fun _ _ _ hold hwithin happlies =>
      hold.step hother hwithin happlies) hP.1.library.constraints.resultAttempts hP.2⟩
  · intro hafter ref href
    have hrun := hlibrary.run after
    have hclosed : ClosedAs (runOps stored after) evidence.params.deleteRequestId .deleted := by
      refine hrun.closedAs (hlibrary.evidence_run hmem after) hcompleted fun r hr hD hfailed => ?_
      obtain ⟨a, ha, heq⟩ := hlibrary.library.constraints.resultAttempts r (hafter r hr hD hfailed)
      rw [Prod.mk.injEq] at heq
      rw [← heq.2]
      exact (latestAttempt_eq_some hlatest).2 a ha (heq.1.trans hD)
    obtain ⟨⟨q, hq, hD⟩, -⟩ := hlibrary.backed _ hmem
    obtain ⟨request, closure, rfl, hplan⟩ := hlibrary.plans q hq
    have hid : request.params.deleteRequestId = evidence.params.deleteRequestId := hD
    have htargets : targetsOf (runOps stored after) request.params.deleteRequestId =
        targetsOf stored request.params.deleteRequestId := by
      rw [targetsOf, targetsOf, (hplan.run hlibrary after).targets, hplan.targets]
    rw [← hid, ← htargets] at href
    rw [← hid] at hclosed
    exact hclosed.targetHas hrun.library (hplan.run hlibrary after) href

end Library

section Run

open Sample

/-- The run in which the completed deletion of the first file is executed once more, without its
body, and evidence of the failure is stored. -/
def firstReopened : List Op :=
  [executeFirstWithoutBody, .storeDeletionEvidence failedFirst none]

/-- What happens in these runs, evaluated. -/
theorem firstCompleted_evaluated :
    ((storeDeletionEvidence completedFirst).run
        (runOps .empty (firstRequested ++ [executeFirst]))).1.toOption.isSome = true ∧
      completedFirst.params.overallStatus = .completed ∧
      targetsOf (runOps .empty firstCompleted) completedFirst.params.deleteRequestId =
        [⟨.sourceArtifact, identifier "source-1"⟩] ∧
      ((runOps .empty firstCompleted).evidence.any fun e =>
        e.deletionEvidenceId == identifier "evidence-2") = false ∧
      ((runOps (runOps .empty firstCompleted) firstReopened).evidence.any fun e =>
        e.deleteRequestId == completedFirst.params.deleteRequestId &&
          e.deletionEvidenceId == identifier "evidence-2") = true ∧
      ((runOps .empty firstCompleted).sources.any fun s =>
        s.sourceId == identifier "source-1" && s.governance.deletionState == .deleted) = true ∧
      ((runOps (runOps .empty firstCompleted) firstReopened).sources.any fun s =>
        s.sourceId == identifier "source-1" && s.governance.deletionState == .deleted) = false ∧
      ((runOps (runOps .empty firstCompleted) [captureSecond]).results.all fun r =>
        r.status != .failed) = true := by
  decide +kernel

theorem firstCompleted_run :
    (storeDeletionEvidence completedFirst).run (runOps .empty (firstRequested ++ [executeFirst])) =
      (.ok (), runOps .empty firstCompleted) := by
  have hok := firstCompleted_evaluated.1
  have hlast : runOps .empty firstCompleted = ((storeDeletionEvidence completedFirst).run
      (runOps .empty (firstRequested ++ [executeFirst]))).2 := by
    rw [firstCompleted, ← Op.apply_storeDeletionEvidence, runOps_append, runOps_append]
    simp only [runOps_cons, runOps_nil]
  generalize (storeDeletionEvidence completedFirst).run
    (runOps .empty (firstRequested ++ [executeFirst])) = outcome at hok hlast ⊢
  obtain ⟨result, after⟩ := outcome
  cases result with
  | ok u => rw [hlast]
  | error e => cases hok

/-- A completed deletion is reopened by executing it again: evidence is added, and a target that
was `deleted` is not any more. -/
theorem completed_can_be_reopened :
    ∃ before evidence stored after,
      (storeDeletionEvidence evidence).run (runOps .empty before) = (.ok (), stored) ∧
      evidence.params.overallStatus = .completed ∧
      (∀ op ∈ after, op.executes = some evidence.params.deleteRequestId ∨
        ∃ next, op = .storeDeletionEvidence next none ∧
          next.params.deleteRequestId = evidence.params.deleteRequestId) ∧
      ¬ NoFurtherEvidence stored (runOps stored after) evidence.params.deleteRequestId ∧
      ¬ TargetsStayDeleted stored (runOps stored after) evidence.params.deleteRequestId := by
  obtain ⟨-, hcompleted, htarget, hbefore, hadded, hdeleted, hfailed, -⟩ :=
    firstCompleted_evaluated
  refine ⟨firstRequested ++ [executeFirst], completedFirst, runOps .empty firstCompleted,
    firstReopened, firstCompleted_run, hcompleted, ?_, ?_, ?_⟩
  · intro op hop
    have hfirst : completedFirst.params.deleteRequestId = identifier "delete-1" := rfl
    have hsecond : failedFirst.params.deleteRequestId = identifier "delete-1" := rfl
    rw [hfirst]
    rcases List.mem_cons.1 hop with rfl | hop
    · exact .inl rfl
    · exact .inr ⟨failedFirst, List.mem_singleton.1 hop, hsecond⟩
  · intro hnone
    obtain ⟨e, he, hkey⟩ := List.any_eq_true.1 hadded
    simp only [Bool.and_eq_true, beq_iff_eq] at hkey
    rw [List.any_eq_false] at hbefore
    exact hbefore e (hnone e he hkey.1) (by simp [hkey.2])
  · intro hstay
    have hlost := hstay ⟨.sourceArtifact, identifier "source-1"⟩ (by rw [htarget]; simp)
      (by simpa [TargetHas] using hdeleted)
    simp only [TargetHas] at hlost
    obtain ⟨s, hs, hid, hstate⟩ := hlost
    rw [List.any_eq_false] at hfailed
    exact hfailed s hs (by simp [hid, hstate])

/-- Nothing happens to the deletion of the file when another file is captured. -/
theorem completed_is_final_of_one_file :
    NoFurtherEvidence (runOps .empty firstCompleted)
        (runOps (runOps .empty firstCompleted) [captureSecond])
        completedFirst.params.deleteRequestId ∧
      ∀ ref ∈ targetsOf (runOps .empty firstCompleted) completedFirst.params.deleteRequestId,
        TargetHas (runOps (runOps .empty firstCompleted) [captureSecond]) .deleted ref := by
  obtain ⟨-, hcompleted, -, -, -, -, -, hresults⟩ := firstCompleted_evaluated
  obtain ⟨hevidence, htargets⟩ := completed_is_final (firstRequested ++ [executeFirst])
    [captureSecond] completedFirst _ firstCompleted_run hcompleted
  refine ⟨hevidence fun op hop => ?_, htargets fun r hr _ hfailed => ?_⟩
  · rw [List.mem_singleton.1 hop]
    exact nofun
  · have := List.all_eq_true.1 hresults r hr
    rw [hfailed] at this
    cases this

end Run

end RadishMemory
