import RadishMemory.Properties.Residue

/-!
# When a stored request can be executed

Nine of the ten actions always succeed on a stored plan.  The tenth deletes the fragment rows of
the closure, and a fragment row cannot be deleted while a proposal or a record still links it.
The closure takes in only the proposals that are active when the request is stored, so a link of
a proposal that another request has closed but not yet redacted is not in it, and blocks the
execution (`Blocked`).  `execution_succeeds_iff` says that nothing else does.
-/

namespace RadishMemory

section Library

variable [Platform] {db db' : Database}

/-! ## Plans -/

section Plan

variable {request : DeleteRequest} {closure : ExecutionClosure}

/-- The component of a type, with what the profile says about it. -/
structure PlanEntry (request : DeleteRequest) (componentType : DeletionComponentType)
    (component : DeletionTarget) : Prop where
  planned : PlannedComponent request componentType component
  entry : (component.params.componentKey.asStr, componentType, component.params.requiredAction) ∈
    profile

theorem StoredPlan.entry (h : StoredPlan db request closure)
    (componentType : DeletionComponentType) :
    ∃ component, PlanEntry request componentType component := by
  have hprofile := h.profile
  simp only [validateRequestProfile, Except.bind_eq_ok_iff, Except.exists_unit_iff,
    require_eq_ok_iff, List.all_eq_true] at hprofile
  obtain ⟨⟨-, hlength, -⟩, expected, -, hmatches⟩ := hprofile
  obtain ⟨entry, hentry, htype⟩ := mem_profile_types componentType
  rw [← List.map_snd_zip hlength.ge] at hentry
  obtain ⟨⟨some, _⟩, hzip, rfl⟩ := List.mem_map.1 hentry
  have hsome := hmatches _ hzip
  simp only [componentMatches, Bool.and_eq_true, beq_iff_eq] at hsome
  cases hfind : request.params.plannedComponents.find? (fun component =>
      component.params.componentType == componentType) with
  | none =>
    rw [List.find?_eq_none] at hfind
    refine absurd ?_ (hfind some (List.of_mem_zip hzip).1)
    rw [beq_iff_eq, hsome.1.1.1.2, htype]
  | some component =>
    refine ⟨component, hfind, ?_⟩
    -- The component that is found has its own entry in the profile.
    have hmem := List.mem_of_find?_eq_some hfind
    have hfound : component.params.componentType = componentType := by
      simpa using List.find?_some hfind
    rw [← List.map_fst_zip hlength.le] at hmem
    obtain ⟨⟨_, own⟩, hown, rfl⟩ := List.mem_map.1 hmem
    have hmatch := hmatches _ hown
    simp only [componentMatches, Bool.and_eq_true, beq_iff_eq] at hmatch
    dsimp only at hfound ⊢
    rw [hmatch.1.1.1.1, hmatch.1.1.2, ← hfound, hmatch.1.1.1.2]
    exact (List.of_mem_zip hown).2

/-- The components of a plan have the types of the profile, in its order. -/
theorem plannedTypes_eq (h : StoredPlan db request closure) :
    request.params.plannedComponents.map (·.params.componentType) = profile.map (·.2.1) := by
  have hprofile := h.profile
  simp only [validateRequestProfile, Except.bind_eq_ok_iff, Except.exists_unit_iff,
    require_eq_ok_iff, List.all_eq_true] at hprofile
  obtain ⟨⟨-, hlength, -⟩, expected, -, hmatches⟩ := hprofile
  have hall : List.Forall₂ (fun component entry => component.params.componentType = entry.2.1)
      request.params.plannedComponents profile := by
    refine List.forall₂_iff_zip.2 ⟨hlength, fun hzip => ?_⟩
    have hmatch := hmatches _ hzip
    simp only [componentMatches, Bool.and_eq_true, beq_iff_eq] at hmatch
    exact hmatch.1.1.1.2
  rw [← List.forall₂_eq_eq_eq, List.forall₂_map_left_iff, List.forall₂_map_right_iff]
  exact hall

/-- A plan has one component of each type. -/
theorem StoredPlan.planned_unique (h : StoredPlan db request closure)
    {component planned : DeletionTarget} (hcomponent : component ∈ request.params.plannedComponents)
    (hplanned : PlannedComponent request component.params.componentType planned) :
    planned = component := by
  have hnodup : (request.params.plannedComponents.map (·.params.componentType)).Nodup := by
    rw [plannedTypes_eq h]
    decide
  refine List.inj_on_of_nodup_map hnodup (List.mem_of_find?_eq_some hplanned) hcomponent ?_
  simpa using List.find?_some hplanned

end Plan

/-! ## Actions -/

section Actions

omit [Platform]

/-- The outcome of a component that found something to act on. -/
def requiredOutcome : RequiredAction → ComponentOutcome
  | .delete => .deleted
  | .redact => .redacted
  | .retainMinimal => .retainedMinimal

/-- What an action reports can be stored as the result of its component. -/
structure Reportable (componentType : DeletionComponentType) (action : ActionResult) : Prop where
  outcome : ∀ entry ∈ profile, entry.2.1 = componentType →
    action.outcome = .notFound ∨ action.outcome = requiredOutcome entry.2.2
  method : textOk action.verificationMethod = true

/-- The report of an action that looks for something and acts on it. -/
theorem Reportable.of_found {componentType : DeletionComponentType} {found : Bool}
    {outcome : ComponentOutcome} {verificationMethod : String}
    (houtcome : ∀ entry ∈ profile, entry.2.1 = componentType →
      outcome = requiredOutcome entry.2.2) (hmethod : textOk verificationMethod = true) :
    Reportable componentType { outcome := outcomeWhen found outcome, verificationMethod } := by
  refine ⟨fun entry hentry htype => ?_, hmethod⟩
  cases found with
  | false => exact .inl rfl
  | true => exact .inr (houtcome entry hentry htype)

theorem requireClosureType_refSet (objectType : CanonicalObjectType) (ids : List Identifier) :
    requireClosureType (refSet (refsOf objectType ids)) objectType = .ok () := by
  refine require_of fun target htarget => ?_
  rw [mem_refSet, mem_refsOf] at htarget
  exact htarget.1

/-- The request among the references of the last component. -/
theorem requestTargets_audit (sourceIds : List Identifier) (D : Identifier) :
    idsOfType .deleteRequest (refSet (refsOf .sourceArtifact sourceIds ++
      refsOf .deleteRequest [D])) = [D] := by
  have hnodup : (refSet (refsOf .sourceArtifact sourceIds ++ refsOf .deleteRequest [D])).Nodup :=
    (List.perm_insertionSort _ _).nodup_iff.2 (List.nodup_dedup _)
  have hfilter : (refSet (refsOf .sourceArtifact sourceIds ++ refsOf .deleteRequest [D])).filter
      (·.objectType == .deleteRequest) = [⟨.deleteRequest, D⟩] := by
    rw [← List.perm_singleton]
    refine (List.perm_ext_iff_of_nodup (hnodup.filter _) (List.nodup_singleton _)).2 fun ref => ?_
    simp only [List.mem_filter, mem_refSet, List.mem_append, mem_refsOf, List.mem_singleton,
      beq_iff_eq]
    constructor
    · rintro ⟨⟨htype, -⟩ | ⟨htype, hid⟩, hrequest⟩
      · rw [htype] at hrequest
        cases hrequest
      · rw [← htype, ← hid]
    · rintro rfl
      exact ⟨.inr ⟨rfl, rfl⟩, rfl⟩
  rw [idsOfType, hfilter]
  rfl

/-- The references of the last component are the request and the sources. -/
theorem targets_audit_length (sourceIds : List Identifier) (D : Identifier) :
    (idsOfType .deleteRequest (refSet (refsOf .sourceArtifact sourceIds ++
        refsOf .deleteRequest [D]))).length +
      (idsOfType .sourceArtifact (refSet (refsOf .sourceArtifact sourceIds ++
        refsOf .deleteRequest [D]))).length =
      (refSet (refsOf .sourceArtifact sourceIds ++ refsOf .deleteRequest [D])).length := by
  have htypes : ∀ ref ∈ refSet (refsOf .sourceArtifact sourceIds ++ refsOf .deleteRequest [D]),
      ref.objectType = .deleteRequest ∨ ref.objectType = .sourceArtifact := by
    intro ref href
    rw [mem_refSet, List.mem_append, mem_refsOf, mem_refsOf] at href
    rcases href with ⟨htype, -⟩ | ⟨htype, -⟩
    · exact .inr htype
    · exact .inl htype
  generalize refSet (refsOf .sourceArtifact sourceIds ++ refsOf .deleteRequest [D]) = refs at htypes
  rw [idsOfType, idsOfType, List.length_map, List.length_map, ← List.countP_eq_length_filter,
    ← List.countP_eq_length_filter, List.length_eq_countP_add_countP (·.objectType == .deleteRequest)]
  congr 1
  refine List.countP_congr fun ref href => ?_
  rcases htypes ref href with htype | htype <;> simp [htype]

end Actions

section Action

variable {request : DeleteRequest} {closure : ExecutionClosure}

/-- What the action of a component needs besides the plan. -/
def CanAct (db : Database) (D : Identifier) (attemptOrdinal : Nat) : DeletionComponentType → Prop
  | .sourceFragment => ∀ f ∈ db.fragments, Frozen db D .sourceFragment f.fragmentId →
      fragmentIsLinked db f.fragmentId = false
  | .minimalAudit => db.results.countP (fun row => row.deleteRequestId == D &&
      row.attemptOrdinal == attemptOrdinal) = 9
  | _ => True

/-- The lineages of the frozen sources, all of them without a tip. -/
theorem StoredPlan.lineages_ok (h : LibraryInvariant db) (hplan : StoredPlan db request closure) :
    ∃ lineages, (idsOfType .sourceArtifact (closure.refs .minimalAudit)).mapM
        (sourceLineageOf db request.params.namespaceId) = .ok lineages ∧
      ∀ tip ∈ db.tips, tip.namespaceId = request.params.namespaceId →
        tip.lineageId ∉ lineages := by
  have hsource : ∀ id ∈ idsOfType .sourceArtifact (closure.refs .minimalAudit),
      ∃ s ∈ db.sources, s.sourceId = id ∧ s.namespaceId = request.params.namespaceId ∧
        sourceLineageOf db request.params.namespaceId id = .ok s.lineageId ∧
        Frozen db request.params.deleteRequestId .sourceMetadata s.sourceId := by
    intro id hid
    have hfrozen : Frozen db request.params.deleteRequestId .sourceMetadata id := by
      refine hplan.audited_frozen ?_
      exact (mem_of_loadChildren (hplan.loadExecutionClosure .minimalAudit)).1 (mem_idsOfType.1 hid)
    obtain ⟨s, hs, rfl, -⟩ := h.closedSources _ _ hfrozen
    have hns := h.requestNamespaces _ (lookup_mem hplan.row) s hs hfrozen
    refine ⟨s, hs, rfl, hns, ?_, hfrozen⟩
    rw [sourceLineageOf, (lookup_eq_some_iff h.constraints.sourceIds).2 ⟨hs, rfl⟩]
    simp [Option.filter, show s.namespaceId = request.params.namespaceId from hns, Option.orError]
  obtain ⟨lineages, hlineages⟩ := List.exists_mapM_eq_ok fun id hid => by
    obtain ⟨s, -, -, -, hlineage, -⟩ := hsource id hid
    exact ⟨_, hlineage⟩
  refine ⟨lineages, hlineages, fun tip htip hns hmem => ?_⟩
  rw [List.mapM_eq_ok_iff] at hlineages
  obtain ⟨id, hid, hlineage⟩ := List.Forall₂.exists_of_mem_right hlineages hmem
  obtain ⟨s, hs, -, hsns, hown, hfrozen⟩ := hsource id hid
  rw [hlineage, Except.ok.injEq] at hown
  refine (h.closedLineages _ s hs hfrozen).1 tip htip ?_
  rw [TipRow.key, hns, hsns, hown]

/-- The closed objects can be given a state. -/
theorem finalizeGovernanceState_ok (hplan : StoredPlan db request closure) {a : Database}
    (hclosure : a.executionClosure = db.executionClosure) (deletionState : DeletionState) :
    ∃ b, finalizeGovernanceState a request.params.deleteRequestId deletionState = .ok b := by
  have hload : ∀ componentType,
      loadExecutionClosure a request.params.deleteRequestId componentType =
        .ok (closure.refs componentType) := by
    intro componentType
    rw [loadExecutionClosure, hclosure]
    exact hplan.loadExecutionClosure componentType
  rw [finalizeGovernanceState, hload, hload, hload]
  exact ⟨_, rfl⟩

/-- The action of a component succeeds where it can act. -/
theorem StoredPlan.action_ok (h : LibraryInvariant db) (hplan : StoredPlan db request closure)
    {n : Nat} {componentType : DeletionComponentType}
    (hcan : CanAct db request.params.deleteRequestId n componentType) (hasFailed : Bool) :
    ∃ action acted, executeComponentAction db request.params.namespaceId
        request.params.deleteRequestId componentType n hasFailed = .ok (action, acted) ∧
      Reportable componentType action := by
  rw [executeComponentAction, hplan.loadExecutionClosure, Except.ok_bind]
  cases componentType with
  | sourceBody =>
    rw [deleteSourceBodies, ExecutionClosure.refs, requireClosureType_refSet, Except.ok_bind]
    exact ⟨_, _, rfl, .of_found (by decide) (by decide)⟩
  | sourceMetadata =>
    rw [redactSourceMetadata, ExecutionClosure.refs, requireClosureType_refSet, Except.ok_bind]
    exact ⟨_, _, rfl, .of_found (by decide) (by decide)⟩
  | sourceFragment =>
    have hunlinked : ∀ row ∈ db.fragments,
        ((closure.refs .sourceFragment).map ObjectRef.objectId).contains row.fragmentId = true →
          fragmentIsLinked db row.fragmentId = false := by
      intro row hrow hmem
      rw [List.contains_iff_mem, ← hplan.frozen_iff] at hmem
      exact hcan row hrow hmem
    rw [ExecutionClosure.refs] at hunlinked ⊢
    rw [deleteSourceFragments, requireClosureType_refSet, Except.ok_bind]
    dsimp only
    rw [require_of hunlinked, Except.ok_bind]
    exact ⟨_, _, rfl, .of_found (by decide) (by decide)⟩
  | memoryProposal =>
    rw [redactMemoryProposals, ExecutionClosure.refs, requireClosureType_refSet, Except.ok_bind]
    exact ⟨_, _, rfl, .of_found (by decide) (by decide)⟩
  | memoryDecision =>
    rw [retainMemoryDecisions, ExecutionClosure.refs, requireClosureType_refSet, Except.ok_bind]
    exact ⟨_, _, rfl, .of_found (by decide) (by decide)⟩
  | memoryRecord =>
    rw [redactMemoryRecords, ExecutionClosure.refs, requireClosureType_refSet, Except.ok_bind]
    exact ⟨_, _, rfl, .of_found (by decide) (by decide)⟩
  | memoryStateEvent =>
    rw [retainMemoryEvents, ExecutionClosure.refs, requireClosureType_refSet, Except.ok_bind]
    exact ⟨_, _, rfl, .of_found (by decide) (by decide)⟩
  | fullTextIndex =>
    obtain ⟨keys, hkeys⟩ : ∃ keys, (closure.refs .fullTextIndex).mapM recallKeyOf = .ok keys := by
      refine List.exists_mapM_eq_ok fun ref href => ?_
      simp only [ExecutionClosure.refs, mem_refSet, List.mem_append, mem_refsOf] at href
      rcases href with ⟨htype, -⟩ | ⟨htype, -⟩
      · exact ⟨_, by rw [recallKeyOf, htype]⟩
      · exact ⟨_, by rw [recallKeyOf, htype]⟩
    rw [deleteFullTextRows, hkeys, Except.ok_bind]
    exact ⟨_, _, rfl, .of_found (by decide) (by decide)⟩
  | contextCache =>
    exact ⟨_, _, rfl, fun _ _ _ => .inl rfl, by decide⟩
  | minimalAudit =>
    obtain ⟨lineages, hlineages, htips⟩ := hplan.lineages_ok h
    have hrequest := requestTargets_audit closure.sourceIds request.params.deleteRequestId
    have hlength := targets_audit_length closure.sourceIds request.params.deleteRequestId
    rw [← hplan.closureId] at hrequest hlength
    have hcount : db.results.countP (fun row =>
        row.deleteRequestId == request.params.deleteRequestId && row.attemptOrdinal == n) = 9 :=
      hcan
    rw [ExecutionClosure.refs] at hlineages ⊢
    rw [retainMinimalAudit]
    dsimp only
    rw [require_of ⟨hrequest.trans (by rw [hplan.closureId]), hlength⟩, Except.ok_bind,
      require_of hcount, Except.ok_bind, purgeSourceEntryState, hlineages, Except.ok_bind,
      require_of htips, Except.ok_bind]
    obtain ⟨final, hfinal⟩ := finalizeGovernanceState_ok hplan (a := { db with
      captureAudit := deleteWhere (auditIsPurged db request.params.namespaceId lineages)
        db.captureAudit
      bindings := deleteWhere (bindingIsPurged request.params.namespaceId lineages)
        db.bindings }) rfl (if hasFailed then .failed else .deleted)
    have hreport : Reportable .minimalAudit
        { outcome := .retainedMinimal, verificationMethod := "sqlite-minimal-audit-chain-v1" } := by
      have hfound : outcomeWhen true .retainedMinimal = ComponentOutcome.retainedMinimal := rfl
      rw [← hfound]
      exact .of_found (by decide) (by decide)
    refine ⟨_, final, ?_, hreport⟩
    change (finalizeGovernanceState _ _ _ >>= _) = _
    rw [hfinal]
    rfl

/-! ## Results -/

/-- The result is the one of a component that succeeded in the execution. -/
structure SucceededAs (component : DeletionTarget) (result : ComponentResult) : Prop where
  key : result.params.componentKey = component.params.componentKey
  componentType : result.params.componentType = component.params.componentType
  targetRef : result.params.targetRef = component.params.targetRef
  requiredAction : result.params.requiredAction = component.params.requiredAction
  targetCount : result.params.targetCount = component.params.targetCount
  status : result.params.status = .succeeded

/-- A stored result is read back. -/
theorem SucceededAs.intoDomain {component : DeletionTarget} {result : ComponentResult}
    (h : SucceededAs component result) (D : Identifier) (n : Nat) :
    (ResultRow.ofResult D n result).intoDomain component = .ok result := by
  simp only [ResultRow.intoDomain, Except.mapError_eq_ok_iff, ComponentResult.new,
    Checked.new_eq_ok_iff, ← h.key, ← h.componentType, ← h.targetRef, ← h.requiredAction,
    ← h.targetCount]
  rfl

theorem successfulResult_ok {componentType : DeletionComponentType} {component : DeletionTarget}
    (hentry : PlanEntry request componentType component) {action : ActionResult}
    (hreport : Reportable componentType action) {execution : LocalDeletionExecution}
    (hbasis : idOk execution.retentionBasis.evidenceId = true) :
    ∃ result, successfulResult component execution action = .ok result ∧
      SucceededAs component result ∧
      ∀ D n, (ResultRow.ofResult D n result).check = true := by
  have hmethod : action.verificationMethod ≠ "" := by
    intro hempty
    have hok := hreport.method
    rw [hempty] at hok
    exact absurd hok (by decide)
  have htext : nonEmptyText action.verificationMethod =
      .ok ⟨action.verificationMethod, hmethod⟩ := by
    rw [nonEmptyText, NonEmptyText.new, dif_pos hmethod]
    rfl
  have hkey : textOk component.params.componentKey.asStr = true := by
    have hkeys : ∀ entry ∈ profile, textOk entry.1 = true := by decide +kernel
    exact hkeys _ hentry.entry
  have houtcome := hreport.outcome _ hentry.entry rfl
  have hcount : component.params.targetCount ≠ 0 ∧
      component.params.targetCount = component.params.targetRef.targetLen := by
    have hvalid := component.valid
    simp only [DeletionTargetParams.check, require_eq_ok_iff] at hvalid
    exact hvalid
  have hvalid : ComponentResultParams.check
      { componentKey := component.params.componentKey
        componentType := component.params.componentType
        targetRef := component.params.targetRef
        requiredAction := component.params.requiredAction
        targetCount := component.params.targetCount
        processedCount := component.params.targetCount
        status := .succeeded
        outcome := action.outcome
        verificationMethod := ⟨action.verificationMethod, hmethod⟩
        checkedAt := execution.checkedAt
        errorCode := none
        retryable := none
        retentionBasis :=
          if action.outcome = .retainedMinimal then some execution.retentionBasis
          else none } = .ok () := by
    simp only [ComponentResultParams.check, Except.bind_eq_ok_iff, Except.exists_unit_iff,
      require_eq_ok_iff]
    refine ⟨hcount, le_refl _, rfl, fun _ => trivial, ?_, ?_⟩
    · rcases houtcome with hnone | hsome
      · rw [hnone]
        rfl
      · rw [hsome]
        cases component.params.requiredAction <;> rfl
    · by_cases hretained : action.outcome = .retainedMinimal
      · simp [ComponentResultParams.retentionBasisMatches, hretained, execution.policyBasis]
      · simp [ComponentResultParams.retentionBasisMatches, hretained]
  refine ⟨⟨_, hvalid⟩, ?_, ⟨rfl, rfl, rfl, rfl, rfl, rfl⟩, fun D n => ?_⟩
  · rw [successfulResult, htext, Except.ok_bind, Except.mapError_eq_ok_iff]
    exact Checked.new_of_ok hvalid
  · by_cases hretained : action.outcome = .retainedMinimal
    · simp [ResultRow.check, ResultRow.ofResult, idOk, hkey, hreport.method, hretained,
        execution.policyBasis, show textOk _ = true from hbasis]
    · simp [ResultRow.check, ResultRow.ofResult, idOk, hkey, hreport.method, hretained]

end Action

/-! ## One attempt -/

section Attempt

omit [Platform]

/-- A proposal or record that the request did not freeze links a fragment that it did. -/
def Blocked (db : Database) (D : Identifier) : Prop :=
  ∃ f ∈ db.fragments, Frozen db D .sourceFragment f.fragmentId ∧
    ((∃ link ∈ db.proposalFragments, link.value = f.fragmentId ∧
        ¬ Frozen db D .memoryProposal link.owner) ∨
      ∃ link ∈ db.recordFragments, link.value = f.fragmentId ∧
        ¬ Frozen db D .memoryRecord link.owner)

/-- The row is a result of the attempt. -/
def inAttempt (D : Identifier) (attemptOrdinal : Nat) (row : ResultRow) : Bool :=
  row.deleteRequestId == D && row.attemptOrdinal == attemptOrdinal

/-- The component comes at its place: links go before fragments, and the audit comes last. -/
def readyAfter (done : List DeletionComponentType) (componentType : DeletionComponentType) : Bool :=
  !done.contains componentType &&
    (componentType != .sourceFragment ||
      done.contains .memoryProposal && done.contains .memoryRecord) &&
    (componentType != .minimalAudit || done.length == 9)

/-- Every component of the list comes at its place. -/
def readyInOrder : List DeletionComponentType → List DeletionComponentType → Bool
  | _, [] => true
  | done, componentType :: rest =>
    readyAfter done componentType && readyInOrder (done ++ [componentType]) rest

end Attempt

section Progress

variable {request : DeleteRequest} {closure : ExecutionClosure} {n : Nat}
  {done : List DeletionComponentType}

/-- The attempt has carried out some components, and none of them has failed. -/
structure Progress (request : DeleteRequest) (closure : ExecutionClosure) (n : Nat)
    (done : List DeletionComponentType) (db : Database) : Prop extends PlannedLibrary db where
  plan : StoredPlan db request closure
  attempt : ∃ a ∈ db.attempts, a.deleteRequestId = request.params.deleteRequestId ∧
    a.attemptOrdinal = n
  results : ∃ results : List ComponentResult,
    db.results.filter (inAttempt request.params.deleteRequestId n) =
      results.map (ResultRow.ofResult request.params.deleteRequestId n) ∧
    results.map (·.params.componentType) = done ∧
    ∀ result ∈ results, ∃ component,
      PlannedComponent request result.params.componentType component ∧
        SucceededAs component result
  free : ∀ componentType ∈ done,
    ResidueFree db request.params.deleteRequestId componentType
  unblocked : ¬ Blocked db request.params.deleteRequestId

/-- Nothing has failed in the attempt. -/
theorem Progress.not_failedIn (h : Progress request closure n done db) :
    failedIn db request.params.deleteRequestId n = false := by
  obtain ⟨results, hrows, -, hall⟩ := h.results
  rw [← Bool.not_eq_true, failedIn_eq_true_iff]
  rintro ⟨row, hrow, hD, hn, hfailed⟩
  have hmem : row ∈ db.results.filter (inAttempt request.params.deleteRequestId n) := by
    rw [List.mem_filter, inAttempt]
    simp [hrow, hD, hn]
  rw [hrows] at hmem
  obtain ⟨result, hresult, rfl⟩ := List.mem_map.1 hmem
  obtain ⟨component, -, hsucceeded⟩ := hall result hresult
  have hstatus : result.params.status = .failed := hfailed
  rw [hsucceeded.status] at hstatus
  cases hstatus

/-- A component that has not been carried out has no result in the attempt. -/
theorem Progress.fresh (h : Progress request closure n done db)
    {componentType : DeletionComponentType} {component : DeletionTarget}
    (hplanned : PlannedComponent request componentType component) (hnew : componentType ∉ done) :
    ∀ row ∈ db.results, ¬ (row.deleteRequestId = request.params.deleteRequestId ∧
      row.attemptOrdinal = n ∧ row.componentKey = component.params.componentKey) := by
  rintro row hrow ⟨hD, hn, hkey⟩
  obtain ⟨results, hrows, hdone, hall⟩ := h.results
  have hmem : row ∈ db.results.filter (inAttempt request.params.deleteRequestId n) := by
    rw [List.mem_filter, inAttempt]
    simp [hrow, hD, hn]
  rw [hrows] at hmem
  obtain ⟨result, hresult, rfl⟩ := List.mem_map.1 hmem
  obtain ⟨other, hother, hsucceeded⟩ := hall result hresult
  -- The result is of the component with its key.
  have hsame : other = component := by
    refine List.inj_on_of_nodup_map (StoredPlan.componentKeys_nodup request)
      (List.mem_of_find?_eq_some hother) (List.mem_of_find?_eq_some hplanned) ?_
    rw [← hsucceeded.key, ← hkey]
    rfl
  have htype : component.params.componentType = componentType := by
    simpa using List.find?_some hplanned
  refine hnew ?_
  rw [← hdone, ← htype, ← hsame, ← hsucceeded.componentType]
  exact List.mem_map_of_mem hresult

/-- Links that block the request were there before its component acted. -/
theorem Blocked.of_component (h : PlannedLibrary db) {componentType : DeletionComponentType}
    (happlies : (Change.component request n componentType).Applies db db')
    (hblocked : Blocked db' request.params.deleteRequestId) :
    Blocked db request.params.deleteRequestId := by
  have hc := h.library.constraints
  have hfrozen : ∀ {componentType id}, Frozen db' request.params.deleteRequestId componentType id ↔
      Frozen db request.params.deleteRequestId componentType id := by
    obtain ⟨planned, result, acted, hdone⟩ := id happlies
    obtain ⟨r, hr, hid, -⟩ := hdone.stored
    exact happlies.frozen_iff ⟨r, hr, hid⟩
  obtain ⟨f, hf, hid, hlinked⟩ := hblocked
  rw [hfrozen] at hid
  have hfragment : f ∈ db.fragments := by
    rcases (happlies.mem_fragments hc).1 hf with ⟨old, hold, -, heq⟩ | hnew
    · exact (show old = f from heq) ▸ hold
    · cases hnew
  refine ⟨f, hfragment, hid, ?_⟩
  rcases hlinked with ⟨link, hlink, hvalue, howner⟩ | ⟨link, hlink, hvalue, howner⟩
  · rw [hfrozen] at howner
    rcases (happlies.mem_proposalFragments hc).1 hlink with ⟨hold, -⟩ | hnew
    · exact .inl ⟨link, hold, hvalue, howner⟩
    · cases hnew
  · rw [hfrozen] at howner
    rcases (happlies.mem_recordFragments hc).1 hlink with ⟨hold, -⟩ | hnew
    · exact .inr ⟨link, hold, hvalue, howner⟩
    · cases hnew

/-- A component that comes at its place can act. -/
theorem Progress.canAct (h : Progress request closure n done db)
    {componentType : DeletionComponentType} (hready : readyAfter done componentType = true) :
    CanAct db request.params.deleteRequestId n componentType := by
  cases componentType with
  | sourceFragment =>
    simp only [readyAfter, Bool.and_eq_true, List.contains_iff_mem, bne_self_eq_false,
      Bool.false_or] at hready
    obtain ⟨⟨-, hproposal, hrecord⟩, -⟩ := hready
    intro f hf hfrozen
    rw [← Bool.not_eq_true, fragmentIsLinked, Bool.or_eq_true, List.any_eq_true, List.any_eq_true]
    rintro (⟨link, hlink, hvalue⟩ | ⟨link, hlink, hvalue⟩)
    · rw [beq_iff_eq] at hvalue
      refine h.unblocked ⟨f, hf, hfrozen, .inl ⟨link, hlink, hvalue, ?_⟩⟩
      exact (h.free _ hproposal).2 link hlink
    · rw [beq_iff_eq] at hvalue
      refine h.unblocked ⟨f, hf, hfrozen, .inr ⟨link, hlink, hvalue, ?_⟩⟩
      exact (h.free _ hrecord).2 link hlink
  | minimalAudit =>
    simp only [readyAfter, Bool.and_eq_true, bne_self_eq_false, Bool.false_or, beq_iff_eq] at hready
    obtain ⟨results, hrows, hdone, -⟩ := h.results
    have hlength : results.length = done.length := by
      rw [← hdone, List.length_map]
    change db.results.countP (inAttempt request.params.deleteRequestId n) = 9
    rw [List.countP_eq_length_filter, hrows, List.length_map, hlength]
    exact hready.2
  | _ => trivial

/-- A component that comes at its place succeeds. -/
theorem Progress.component (h : Progress request closure n done db)
    {execution : LocalDeletionExecution} (hbasis : idOk execution.retentionBasis.evidenceId = true)
    {componentType : DeletionComponentType} (hready : readyAfter done componentType = true) :
    ∃ db', (executeComponent request execution (fun _ => false) n false componentType).run db =
        (.ok false, db') ∧ Progress request closure n (done ++ [componentType]) db' := by
  have hnew : componentType ∉ done := by
    simp only [readyAfter, Bool.and_eq_true, Bool.not_eq_true', List.contains_eq_mem,
      decide_eq_false_iff_not] at hready
    exact hready.1.1
  obtain ⟨component, hentry⟩ := h.plan.entry componentType
  obtain ⟨action, acted, haction, hreport⟩ := h.plan.action_ok h.library (h.canAct hready) false
  obtain ⟨result, hresult, hsucceeded, hcheck⟩ := successfulResult_ok hentry hreport hbasis
  have heffect := executeComponentAction_effect haction
  have hframe := heffect.frame
  -- The result is stored next to the effect of the action.
  obtain ⟨db', hdb', hinsert⟩ : ∃ db', db' = { acted with results := acted.results ++
      [ResultRow.ofResult request.params.deleteRequestId n result] } ∧
      insertExecutionResult acted request.params.deleteRequestId n result = .ok db' := by
    obtain ⟨row, hrow, hD, hkey, -⟩ :=
      h.plan.component_mem (List.mem_of_find?_eq_some hentry.planned)
    refine ⟨_, rfl, Database.insertResult_eq_ok_iff.2 ⟨hcheck _ _, ?_, ⟨?_, ?_⟩, rfl⟩⟩
    · rw [show acted.results = db.results by rw [hframe]]
      change ∀ r ∈ db.results, ¬ (_ ∧ _ ∧ r.componentKey = result.params.componentKey)
      rw [hsucceeded.key]
      exact h.fresh hentry.planned hnew
    · rw [show acted.attempts = db.attempts by rw [hframe]]
      exact h.attempt
    · rw [show acted.requestComponents = db.requestComponents by rw [hframe]]
      exact ⟨row, hrow, hD, hkey.trans hsucceeded.key.symm⟩
  have happlies : (Change.component request n componentType).Applies db db' :=
    ⟨component, result, acted, h.plan.profile, h.plan.loadRequest, hentry.planned,
      by rw [h.not_failedIn]; exact heffect, hsucceeded.status, hsucceeded.key, hinsert⟩
  refine ⟨db', ?_, h.toPlannedLibrary.step happlies, h.plan.step happlies, ?_, ?_, ?_, ?_⟩
  · have htransaction : componentTransaction request execution n false false component
        componentType db = .ok (true, db') := by
      rw [componentTransaction]
      simp only [Bool.false_eq_true, ↓reduceIte, haction, hresult, hinsert, Except.ok_bind]
      rfl
    rw [executeComponent, Program.run_bind, Program.run_ofExcept,
      show request.params.plannedComponents.find? _ = some component from hentry.planned]
    change (Program.transact .other _ >>= _).run db = _
    rw [Program.run_bind, Program.run_transact, Program.commit, htransaction]
    rfl
  · rw [hdb']
    change ∃ a ∈ acted.attempts, _
    rw [show acted.attempts = db.attempts by rw [hframe]]
    exact h.attempt
  · obtain ⟨results, hrows, hdone, hall⟩ := h.results
    refine ⟨results ++ [result], ?_, ?_, fun other hother => ?_⟩
    · rw [hdb']
      change (acted.results ++ _).filter _ = _
      rw [show acted.results = db.results by rw [hframe], List.filter_append, hrows,
        List.map_append]
      simp [inAttempt, ResultRow.ofResult]
    · rw [List.map_append, hdone]
      have htype : component.params.componentType = componentType := by
        simpa using List.find?_some hentry.planned
      simp [hsucceeded.componentType, htype]
    · rcases List.mem_append.1 hother with hold | hlast
      · exact hall other hold
      · rw [List.mem_singleton.1 hlast]
        have htype : component.params.componentType = componentType := by
          simpa using List.find?_some hentry.planned
        refine ⟨component, ?_, hsucceeded⟩
        rw [hsucceeded.componentType, htype]
        exact hentry.planned
  · intro other hother
    rcases List.mem_append.1 hother with hold | hlast
    · exact (h.free other hold).step h.library happlies ⟨_, lookup_mem h.plan.row, rfl⟩
    · rw [List.mem_singleton.1 hlast]
      exact .of_component h.toPlannedLibrary happlies
  · exact fun hblocked => h.unblocked (hblocked.of_component h.toPlannedLibrary happlies)

/-- Components that come at their places succeed one after the other. -/
theorem Progress.components {execution : LocalDeletionExecution}
    (hbasis : idOk execution.retentionBasis.evidenceId = true)
    {order : List DeletionComponentType} (h : Progress request closure n done db)
    (hready : readyInOrder done order = true) :
    ∃ db', (order.foldlM (executeComponent request execution (fun _ => false) n) false).run db =
        (.ok false, db') ∧ Progress request closure n (done ++ order) db' := by
  induction order generalizing done db with
  | nil => exact ⟨db, rfl, by rwa [List.append_nil]⟩
  | cons componentType rest ih =>
    rw [readyInOrder, Bool.and_eq_true] at hready
    obtain ⟨db₁, hrun, hnext⟩ := h.component hbasis hready.1
    obtain ⟨db₂, hrest, hend⟩ := ih hnext hready.2
    refine ⟨db₂, ?_, by rwa [List.append_assoc] at hend⟩
    rw [List.foldlM_cons, Program.run_bind, hrun]
    exact hrest

/-- An attempt on a request that nothing blocks can be opened. -/
theorem Progress.open_attempt (h : PlannedLibrary db) (hplan : StoredPlan db request closure)
    (hunblocked : ¬ Blocked db request.params.deleteRequestId) (checkedAt : Timestamp) :
    ∃ n db', insertNextAttempt request.params.deleteRequestId checkedAt db = .ok (n, db') ∧
      Progress request closure n [] db' := by
  have hrequest : ∃ r ∈ db.requests, r.deleteRequestId = request.params.deleteRequestId :=
    ⟨_, lookup_mem hplan.row, rfl⟩
  let n := (latestAttempt db request.params.deleteRequestId).getD 0 + 1
  let row : AttemptRow :=
    { deleteRequestId := request.params.deleteRequestId, attemptOrdinal := n, checkedAt }
  have hopen : insertNextAttempt request.params.deleteRequestId checkedAt db =
      .ok (n, { db with attempts := db.attempts ++ [row] }) := by
    have hinsert : db.insertAttempt row = .ok { db with attempts := db.attempts ++ [row] } := by
      refine Database.insertAttempt_eq_ok_iff.2
        ⟨Nat.succ_pos _, fun a ha hD => ?_, Database.hasRequest_iff.2 hrequest, rfl⟩
      exact (attemptOrdinal_lt_next ha hD).ne
    change (db.insertAttempt row >>= _) = _
    rw [hinsert]
    rfl
  have happlies : (Change.attempt request.params.deleteRequestId).Applies db
      { db with attempts := db.attempts ++ [row] } := ⟨checkedAt, n, hopen⟩
  refine ⟨n, _, hopen, h.step happlies, hplan.step happlies, ⟨row, ?_, rfl, rfl⟩, ⟨[], ?_, rfl, ?_⟩,
    ?_, ?_⟩
  · exact List.mem_append_right _ List.mem_cons_self
  · rw [List.map_nil, List.filter_eq_nil_iff]
    intro result hresult hin
    simp only [inAttempt, Bool.and_eq_true, beq_iff_eq] at hin
    obtain ⟨a, ha, heq⟩ := h.library.constraints.resultAttempts result hresult
    rw [Prod.mk.injEq] at heq
    have hlt := attemptOrdinal_lt_next ha (heq.1.trans hin.1)
    have hsame : a.attemptOrdinal = n := heq.2.trans hin.2
    omega
  · exact fun result hresult => absurd hresult List.not_mem_nil
  · exact fun componentType hdone => absurd hdone List.not_mem_nil
  · exact hunblocked

/-- The results of an attempt that carried out every component are read back. -/
theorem Progress.results_ok (h : Progress request closure n executionOrder db) :
    ∃ results, (request.params.plannedComponents.mapM fun component =>
        loadExecutionResult db request.params.deleteRequestId n component) = .ok results ∧
      ∀ result ∈ results, result.params.status = .succeeded := by
  have hone : ∀ component ∈ request.params.plannedComponents, ∃ result,
      loadExecutionResult db request.params.deleteRequestId n component = .ok result ∧
        result.params.status = .succeeded := by
    intro component hcomponent
    obtain ⟨results, hrows, hdone, hall⟩ := h.results
    have htype : component.params.componentType ∈ results.map (·.params.componentType) := by
      rw [hdone]
      cases component.params.componentType <;> decide
    obtain ⟨result, hresult, hsame⟩ := List.mem_map.1 htype
    obtain ⟨planned, hplanned, hsucceeded⟩ := hall result hresult
    rw [hsame] at hplanned
    -- The plan has one component of each type.
    have heq : planned = component := h.plan.planned_unique hcomponent hplanned
    subst heq
    have hmem : ResultRow.ofResult request.params.deleteRequestId n result ∈ db.results := by
      have hfilter := List.mem_map_of_mem
        (f := ResultRow.ofResult request.params.deleteRequestId n) hresult
      rw [← hrows] at hfilter
      exact (List.mem_filter.1 hfilter).1
    refine ⟨result, ?_, hsucceeded.status⟩
    rw [loadExecutionResult, (lookup_eq_some_iff h.library.constraints.resultKeys).2
      ⟨hmem, by rw [← hsucceeded.key]; rfl⟩]
    exact hsucceeded.intoDomain _ _
  obtain ⟨results, hresults⟩ := List.exists_mapM_eq_ok fun component hcomponent => by
    obtain ⟨result, hresult, -⟩ := hone component hcomponent
    exact ⟨result, hresult⟩
  refine ⟨results, hresults, fun result hresult => ?_⟩
  rw [List.mapM_eq_ok_iff] at hresults
  obtain ⟨component, hcomponent, hloaded⟩ := List.Forall₂.exists_of_mem_right hresults hresult
  obtain ⟨other, hother, hstatus⟩ := hone component hcomponent
  rw [hloaded, Except.ok.injEq] at hother
  rw [hother]
  exact hstatus

end Progress

/-! ## Whole executions -/

section Execution

variable {request : DeleteRequest} {closure : ExecutionClosure} {execution : LocalDeletionExecution}

/-- The execution returns the ten results of its components, and all of them succeeded. -/
def ExecutesFully (db : Database) (namespaceId deleteRequestId : Identifier)
    (execution : LocalDeletionExecution) : Prop :=
  ∃ results db', (executeDeletion namespaceId deleteRequestId execution fun _ => false).run db =
      (.ok results, db') ∧
    results.length = 10 ∧ ∀ result ∈ results, result.params.status = .succeeded

/-- Loading a stored request with its plan. -/
theorem StoredPlan.run_load (hplan : StoredPlan db request closure) :
    (loadCheckedRequest request.params.namespaceId request.params.deleteRequestId).run db =
      (.ok request, db) := by
  refine Prod.ext ?_ ((loadCheckedRequest_readOnly _ _).run_snd db)
  rw [run_loadCheckedRequest, hplan.loadRequest, Except.ok_bind]
  change (validateRequestProfile request >>= _) = _
  rw [hplan.profile]
  rfl

/-- A request that nothing blocks is executed to its end. -/
theorem executesFully_of_unblocked (h : PlannedLibrary db) (hplan : StoredPlan db request closure)
    (hbasis : idOk execution.retentionBasis.evidenceId = true)
    (hunblocked : ¬ Blocked db request.params.deleteRequestId) :
    ExecutesFully db request.params.namespaceId request.params.deleteRequestId execution := by
  obtain ⟨n, opened, hopen, hstart⟩ :=
    Progress.open_attempt h hplan hunblocked execution.checkedAt
  have hready : readyInOrder [] executionOrder = true := by decide
  obtain ⟨db', hcomponents, hend⟩ := hstart.components hbasis hready
  rw [List.nil_append] at hend
  obtain ⟨results, hresults, hall⟩ := hend.results_ok
  have hlength : results.length = 10 := by
    rw [← (List.mapM_eq_ok_iff.1 hresults).length_eq, ← List.length_map (·.params.componentType),
      plannedTypes_eq hplan]
    rfl
  refine ⟨results, db', ?_, hlength, hall⟩
  rw [executeDeletion, Program.run_bind, hplan.run_load]
  change (executeRequest request execution fun _ => false).run db = _
  rw [executeRequest, Program.run_bind, Program.run_transact, Program.commit, hopen]
  change (executionOrder.foldlM (executeComponent request execution (fun _ => false) n) false >>=
    fun _ => _).run opened = _
  rw [Program.run_bind, hcomponents]
  change (loadExecutionResults .other request n).run db' = _
  rw [run_loadExecutionResults, hresults]

/-- What every step of an execution keeps, and under which the component of one type cannot
succeed. -/
structure Refuses (request : DeleteRequest) (execution : LocalDeletionExecution)
    (refused : DeletionComponentType) (P : Database → Prop) : Prop where
  attempt : ∀ a row, P a → P { a with attempts := a.attempts ++ [row] }
  result : ∀ a row, P a → P { a with results := a.results ++ [row] }
  action : ∀ a acted componentType n hasFailed action, P a →
    executeComponentAction a request.params.namespaceId request.params.deleteRequestId
      componentType n hasFailed = .ok (action, acted) → P acted
  refused : ∀ a acted b component n hasFailed action result, P a →
    executeComponentAction a request.params.namespaceId request.params.deleteRequestId refused n
      hasFailed = .ok (action, acted) →
    successfulResult component execution action = .ok result →
    insertExecutionResult acted request.params.deleteRequestId n result ≠ .ok b

/-- The loop of an attempt whose component of one type cannot succeed. -/
theorem Refuses.loop {refused : DeletionComponentType} {P : Database → Prop}
    (hP : Refuses request execution refused P) {component : DeletionTarget}
    (hcomponent : PlannedComponent request refused component) (n : Nat) :
    LoopInvariant request execution n fun _ db => P db ∧ ∀ row ∈ db.results,
      row.key = (request.params.deleteRequestId, n, component.params.componentKey) →
        row.status ≠ .succeeded where
  succeed hasFailed db acted db' componentType planned action result h hplanned haction hresult
      hinsert := by
    have hdb' := insertExecutionResult_eq_ok hinsert
    refine ⟨?_, ?_⟩
    · rw [hdb']
      exact hP.result _ _ (hP.action _ _ _ _ _ _ h.1 haction)
    · have hframe := (executeComponentAction_effect haction).frame
      intro row hrow hkey
      rw [hdb', List.mem_append, List.mem_singleton,
        show acted.results = db.results by rw [hframe]] at hrow
      rcases hrow with hold | rfl
      · exact h.2 row hold hkey
      -- The row that is written has the key of another component.
      exfalso
      have hsame : planned = component := by
        refine List.inj_on_of_nodup_map (StoredPlan.componentKeys_nodup request)
          (List.mem_of_find?_eq_some hplanned) (List.mem_of_find?_eq_some hcomponent) ?_
        rw [← (successfulResult_eq_ok hresult).2]
        exact congrArg (fun key => (key.1, key.2.2)) hkey
      have htype : planned.params.componentType = componentType := by
        simpa using List.find?_some hplanned
      have htype' : component.params.componentType = refused := by
        simpa using List.find?_some hcomponent
      have hrefused : componentType = refused := by
        rw [← htype, hsame, htype']
      rw [hrefused] at haction
      exact hP.refused _ _ _ _ _ _ _ _ h.1 haction hresult hinsert
  fail hasFailed db db' componentType planned result h hplanned hresult hinsert := by
    have hdb' := insertExecutionResult_eq_ok hinsert
    refine ⟨?_, ?_⟩
    · rw [hdb']
      exact hP.result _ _ h.1
    · intro row hrow hkey
      rw [hdb', List.mem_append, List.mem_singleton] at hrow
      rcases hrow with hold | rfl
      · exact h.2 row hold hkey
      · have hstatus := (failedResult_eq_ok hresult).1
        change result.params.status ≠ .succeeded
        rw [hstatus]
        exact nofun

/-- A request of which one component cannot succeed is not executed fully. -/
theorem Refuses.not_executesFully {refused : DeletionComponentType} {P : Database → Prop}
    (hP : Refuses request execution refused P) (hresults : ResultsHaveAttempts db)
    (hplan : StoredPlan db request closure) (h : P db) :
    ¬ ExecutesFully db request.params.namespaceId request.params.deleteRequestId execution := by
  obtain ⟨component, hentry⟩ := hplan.entry refused
  have hsafe : (executeDeletion request.params.namespaceId request.params.deleteRequestId execution
      fun _ => false).Safe (fun _ => True) (fun result _ => ∀ results, result = .ok results →
        ∃ result ∈ results, result.params.status ≠ .succeeded) db := by
    refine executeDeletion_safe trivial (fun e results heq => nomatch heq) fun loaded hload _ => ?_
    rw [hplan.loadRequest, Except.ok.injEq, Option.some.injEq] at hload
    subst hload
    refine executeRequest_safe (fun n => hP.loop hentry.planned n) (fun _ _ _ _ => trivial) trivial
      (fun e db _ results heq => nomatch heq) (fun n b after hafter results heq => ?_) ?_
    · rw [List.mapM_eq_ok_iff] at heq
      obtain ⟨result, hresult, hone⟩ := List.Forall₂.exists_of_mem_left heq
        (List.mem_of_find?_eq_some hentry.planned)
      simp only [loadExecutionResult, Except.bind_eq_ok_iff, Option.orError_eq_ok_iff,
        ResultRow.intoDomain, Except.mapError_eq_ok_iff, ComponentResult.new,
        Checked.new_eq_ok_iff] at hone
      obtain ⟨row, hlookup, hparams⟩ := hone
      refine ⟨result, hresult, ?_⟩
      rw [hparams]
      exact hafter.2 row (lookup_mem hlookup) (lookup_key hlookup)
    · intro n opened hopen
      obtain ⟨rfl, -, rfl⟩ := insertNextAttempt_eq_ok hopen
      refine ⟨hP.attempt _ _ h, fun row hrow hkey => ?_⟩
      -- The attempt is new, so it has no results.
      obtain ⟨a, ha, heq⟩ := hresults row hrow
      rw [Prod.mk.injEq] at heq
      rw [ResultRow.key, Prod.mk.injEq, Prod.mk.injEq] at hkey
      have hlt := attemptOrdinal_lt_next ha (heq.1.trans hkey.1)
      have hsame := heq.2.trans hkey.2.1
      omega
  rintro ⟨results, after, hrun, -, hall⟩
  have hend := hsafe.run
  rw [hrun] at hend
  obtain ⟨result, hresult, hnot⟩ := hend results rfl
  exact hnot (hall result hresult)

/-- A blocked request stays blocked while it is executed, and its fragments stay. -/
theorem Blocked.acted {acted : Database} {namespaceId D : Identifier} {hasFailed : Bool}
    {componentType : DeletionComponentType} (h : Blocked db D)
    (heffect : ActionEffect db acted namespaceId D hasFailed componentType) :
    componentType ≠ .sourceFragment ∧ Blocked acted D := by
  have hframe := heffect.frame
  have hfrozen : ∀ {componentType id}, Frozen acted D componentType id ↔
      Frozen db D componentType id := by
    intro componentType id
    rw [Frozen, Frozen, show acted.executionClosure = db.executionClosure by rw [hframe]]
  obtain ⟨f, hf, hid, hlinked⟩ := h
  -- The links of what is not frozen are left alone, and so is the fragment they hold.
  have hkept : acted.fragments = db.fragments →
      (∀ link ∈ db.proposalFragments, ¬ Frozen db D .memoryProposal link.owner →
        link ∈ acted.proposalFragments) →
      (∀ link ∈ db.recordFragments, ¬ Frozen db D .memoryRecord link.owner →
        link ∈ acted.recordFragments) → Blocked acted D := by
    intro hfragments hproposals hrecords
    refine ⟨f, hfragments ▸ hf, hfrozen.2 hid, ?_⟩
    rcases hlinked with ⟨link, hlink, hvalue, howner⟩ | ⟨link, hlink, hvalue, howner⟩
    · exact .inl ⟨link, hproposals link hlink howner, hvalue, mt hfrozen.1 howner⟩
    · exact .inr ⟨link, hrecords link hlink howner, hvalue, mt hfrozen.1 howner⟩
  cases componentType with
  | sourceFragment =>
    obtain ⟨ids, hids, hunlinked, -⟩ := heffect
    have hnone := hunlinked f hf ((hids _).2 hid)
    rw [← Bool.not_eq_true, fragmentIsLinked, Bool.or_eq_true, List.any_eq_true,
      List.any_eq_true] at hnone
    refine absurd ?_ hnone
    rcases hlinked with ⟨link, hlink, hvalue, -⟩ | ⟨link, hlink, hvalue, -⟩
    · exact .inl ⟨link, hlink, by simpa using hvalue⟩
    · exact .inr ⟨link, hlink, by simpa using hvalue⟩
  | memoryProposal =>
    obtain ⟨ids, hids, rfl⟩ := heffect
    refine ⟨by decide, hkept rfl (fun link hlink howner => ?_) fun link hlink _ => hlink⟩
    refine mem_deleteWhere.2 ⟨hlink, ?_⟩
    rw [← hids, ← List.contains_iff_mem, Bool.not_eq_true] at howner
    exact howner
  | memoryRecord =>
    obtain ⟨ids, hids, rfl⟩ := heffect
    refine ⟨by decide, hkept rfl (fun link hlink _ => hlink) fun link hlink howner => ?_⟩
    refine mem_deleteWhere.2 ⟨hlink, ?_⟩
    rw [← hids, ← List.contains_iff_mem, Bool.not_eq_true] at howner
    exact howner
  | minimalAudit =>
    obtain ⟨_, _, _, _, _, -, -, -, -, -, -, rfl⟩ := heffect
    exact ⟨by decide, hkept rfl (fun link hlink _ => hlink) fun link hlink _ => hlink⟩
  | memoryStateEvent =>
    rw [show acted = db from heffect] at hkept ⊢
    exact ⟨by decide, hkept rfl (fun link hlink _ => hlink) fun link hlink _ => hlink⟩
  | contextCache =>
    rw [show acted = db from heffect] at hkept ⊢
    exact ⟨by decide, hkept rfl (fun link hlink _ => hlink) fun link hlink _ => hlink⟩
  | fullTextIndex =>
    obtain ⟨_, _, -, -, rfl⟩ := heffect
    exact ⟨by decide, hkept rfl (fun link hlink _ => hlink) fun link hlink _ => hlink⟩
  | sourceBody =>
    obtain ⟨_, -, rfl⟩ := heffect
    exact ⟨by decide, hkept rfl (fun link hlink _ => hlink) fun link hlink _ => hlink⟩
  | sourceMetadata =>
    obtain ⟨_, -, rfl⟩ := heffect
    exact ⟨by decide, hkept rfl (fun link hlink _ => hlink) fun link hlink _ => hlink⟩
  | memoryDecision =>
    obtain ⟨_, -, rfl⟩ := heffect
    exact ⟨by decide, hkept rfl (fun link hlink _ => hlink) fun link hlink _ => hlink⟩

/-- The fragments of a blocked request cannot be deleted. -/
theorem refuses_of_blocked (request : DeleteRequest) (execution : LocalDeletionExecution) :
    Refuses request execution .sourceFragment fun db =>
      Blocked db request.params.deleteRequestId where
  attempt _ _ h := h
  result _ _ h := h
  action _ _ _ _ _ _ h haction := (h.acted (executeComponentAction_effect haction)).2
  refused _ _ _ _ _ _ _ _ h haction _ _ :=
    (h.acted (executeComponentAction_effect haction)).1 rfl

/-- The audit of a request cannot be recorded under a basis that the table does not accept. -/
theorem refuses_of_basis (request : DeleteRequest)
    (hbasis : idOk execution.retentionBasis.evidenceId = false) :
    Refuses request execution .minimalAudit fun _ => True where
  attempt _ _ _ := trivial
  result _ _ _ := trivial
  action _ _ _ _ _ _ _ _ := trivial
  refused a acted b component n hasFailed action result _ haction hresult hinsert := by
    have houtcome : action.outcome = .retainedMinimal := by
      simp only [executeComponentAction, retainMinimalAudit, Except.bind_eq_ok_iff,
        Except.exists_unit_iff, Except.pure_eq_ok_iff, Prod.mk.injEq] at haction
      obtain ⟨_, -, -, -, _, -, _, -, rfl, -⟩ := haction
      rfl
    simp only [successfulResult, Except.bind_eq_ok_iff, Except.mapError_eq_ok_iff,
      ComponentResult.new, Checked.new_eq_ok_iff] at hresult
    obtain ⟨text, -, hparams⟩ := hresult
    have hcheck := (Database.insertResult_eq_ok_iff.1 hinsert).1
    simp [ResultRow.check, ResultRow.ofResult, hparams, houtcome, hbasis] at hcheck

/-- Every stored request can be executed, as often as one likes, as long as nothing that it did
not freeze still links a fragment that it did. -/
theorem execution_succeeds_iff (ops : List Op) (r : RequestRow)
    (hr : r ∈ (runOps .empty ops).requests) (execution : LocalDeletionExecution) :
    ExecutesFully (runOps .empty ops) r.namespaceId r.deleteRequestId execution ↔
      idOk execution.retentionBasis.evidenceId = true ∧
        ¬ Blocked (runOps .empty ops) r.deleteRequestId := by
  have hlibrary := plannedLibrary_of_run ops
  obtain ⟨request, closure, rfl, hplan⟩ := hlibrary.plans r hr
  have hresults := hlibrary.library.constraints.resultAttempts
  constructor
  · intro hfull
    refine ⟨?_, fun hblocked => ?_⟩
    · by_contra hbasis
      rw [Bool.not_eq_true] at hbasis
      exact (refuses_of_basis request hbasis).not_executesFully hresults hplan trivial hfull
    · exact (refuses_of_blocked request execution).not_executesFully hresults hplan hblocked hfull
  · rintro ⟨hbasis, hunblocked⟩
    exact executesFully_of_unblocked hlibrary hplan hbasis hunblocked

end Execution

end Library

section Run

open Sample

/-- The first request alone, and a second request beside it, evaluated. -/
theorem bothRequested_evaluated :
    ((runOps .empty firstRequested).proposalFragments = [] ∧
      (runOps .empty firstRequested).recordFragments = [] ∧
      (runOps .empty firstRequested).requests.map (fun r => (r.namespaceId, r.deleteRequestId)) =
        [(namespaceId, identifier "delete-1")]) ∧
    (runOps .empty bothRequested).requests.map (fun r => (r.namespaceId, r.deleteRequestId)) =
      [(namespaceId, identifier "delete-1"), (namespaceId, identifier "delete-2")] ∧
    (((executeDeletion namespaceId (identifier "delete-2") execution fun _ => false).run
      (runOps .empty bothRequested)).1.toOption.any fun results =>
        results.all (·.params.status == .succeeded)) = false := by
  decide +kernel

/-- The deletion of the first file can be executed. -/
theorem execution_succeeds_of_one_file :
    ExecutesFully (runOps .empty firstRequested) namespaceId (identifier "delete-1")
      execution := by
  obtain ⟨hproposals, hrecords, hrequests⟩ := bothRequested_evaluated.1
  have hmem : (namespaceId, identifier "delete-1") ∈
      (runOps .empty firstRequested).requests.map (fun r => (r.namespaceId, r.deleteRequestId)) := by
    rw [hrequests]
    exact List.mem_cons_self
  obtain ⟨r, hr, heq⟩ := List.mem_map.1 hmem
  rw [Prod.mk.injEq] at heq
  rw [← heq.1, ← heq.2]
  refine (execution_succeeds_iff firstRequested r hr execution).2 ⟨by decide, ?_⟩
  rintro ⟨f, -, -, ⟨link, hlink, -⟩ | ⟨link, hlink, -⟩⟩
  · rw [hproposals] at hlink
    exact List.not_mem_nil hlink
  · rw [hrecords] at hlink
    exact List.not_mem_nil hlink

/-- A proposal cites both files.  The request for the first file closes it, so the one for the
second does not take it in, and cannot delete the fragment that the proposal still links. -/
theorem overlapping_request_is_stuck :
    (∃ r ∈ (runOps .empty bothRequested).requests, r.namespaceId = namespaceId ∧
      r.deleteRequestId = identifier "delete-2") ∧
    ¬ ExecutesFully (runOps .empty bothRequested) namespaceId (identifier "delete-2")
      execution := by
  obtain ⟨-, hrequests, hfailed⟩ := bothRequested_evaluated
  have hmem : (namespaceId, identifier "delete-2") ∈
      (runOps .empty bothRequested).requests.map (fun r => (r.namespaceId, r.deleteRequestId)) := by
    rw [hrequests]
    exact List.mem_cons_of_mem _ List.mem_cons_self
  obtain ⟨r, hr, heq⟩ := List.mem_map.1 hmem
  rw [Prod.mk.injEq] at heq
  refine ⟨⟨r, hr, heq⟩, ?_⟩
  rintro ⟨results, after, hrun, -, hall⟩
  rw [hrun] at hfailed
  have hsome : results.all (·.params.status == .succeeded) = false := hfailed
  rw [← Bool.not_eq_true, List.all_eq_true] at hsome
  exact hsome fun result hresult => by simpa using hall result hresult

end Run

end RadishMemory
