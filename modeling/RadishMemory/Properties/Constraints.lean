import RadishMemory.Properties.Changes

/-!
# The declared constraints hold in every state

The primary keys and references that the schema declares, as far as later proofs use them.
Statements check them one row at a time; here they are facts about whole tables, kept by every
change.
-/

namespace RadishMemory

variable [Platform] {db db' : Database}

omit [Platform] in
/-- The key of a binding. -/
def BindingRow.key (row : BindingRow) : Identifier × Identifier :=
  (row.namespaceId, row.originBindingId)

omit [Platform] in
/-- Primary keys, references and row checks of the schema. -/
structure Constraints (db : Database) : Prop where
  sourceIds : UniqueBy SourceRow.sourceId db.sources
  sourceVersions : UniqueBy SourceRow.versionKey db.sources
  fragmentIds : UniqueBy FragmentRow.fragmentId db.fragments
  tipKeys : UniqueBy TipRow.key db.tips
  bindingKeys : UniqueBy BindingRow.key db.bindings
  proposalIds : UniqueBy ProposalRow.proposalId db.proposals
  decisionIds : UniqueBy MemoryDecisionParams.decisionId db.decisions
  recordIds : UniqueBy RecordRow.memoryId db.records
  requestIds : UniqueBy RequestRow.deleteRequestId db.requests
  resultKeys : UniqueBy ResultRow.key db.results
  fragmentSources : References FragmentRow.sourceId db.fragments SourceRow.sourceId db.sources
  headingFragments : References Child.owner db.headings FragmentRow.fragmentId db.fragments
  supersedesSources : References Child.owner db.sourceSupersedes SourceRow.sourceId db.sources
  auditBindings : References (fun a : AuditRow => (a.namespaceId, a.originBindingId))
    db.captureAudit BindingRow.key db.bindings
  proposalFragmentOwners : References Child.owner db.proposalFragments
    ProposalRow.proposalId db.proposals
  proposalTargetOwners : References Child.owner db.proposalTargets
    ProposalRow.proposalId db.proposals
  decisionProposals : References MemoryDecisionParams.proposalId db.decisions
    ProposalRow.proposalId db.proposals
  recordFragmentOwners : References Child.owner db.recordFragments RecordRow.memoryId db.records
  recordSupersedesOwners : References Child.owner db.recordSupersedes
    RecordRow.memoryId db.records
  recordContradictsOwners : References Child.owner db.recordContradicts
    RecordRow.memoryId db.records
  eventRecords : References EventRow.memoryId db.events RecordRow.memoryId db.records
  relatedEvents : References Child.owner db.eventRelated EventRow.eventId db.events
  targetRequests : References Child.owner db.requestTargets
    RequestRow.deleteRequestId db.requests
  componentRequests : References ComponentRow.deleteRequestId db.requestComponents
    RequestRow.deleteRequestId db.requests
  componentTargetRequests : References (fun c : Child (Identifier × Identifier) ObjectRef =>
    c.owner.1) db.componentTargets RequestRow.deleteRequestId db.requests
  closureRequests : References
    (fun c : Child (Identifier × DeletionComponentType) ObjectRef => c.owner.1)
    db.executionClosure RequestRow.deleteRequestId db.requests
  attemptRequests : References AttemptRow.deleteRequestId db.attempts
    RequestRow.deleteRequestId db.requests
  resultAttempts : ResultsHaveAttempts db
  resultComponents : References (fun r : ResultRow => (r.deleteRequestId, r.componentKey))
    db.results (fun c : ComponentRow => (c.deleteRequestId, c.componentKey)) db.requestComponents
  proposalProfiles : ∀ p ∈ db.proposals, p.content.contentDigest.profile = .utf8NfcTextV1
  recordProfiles : ∀ r ∈ db.records, r.content.contentDigest.profile = .utf8NfcTextV1

namespace Constraints

omit [Platform] in
theorem empty : Constraints Database.empty := by
  constructor <;> first
    | exact UniqueBy.nil
    | exact References.nil
    | exact fun _ h => absurd h List.not_mem_nil

omit [Platform] in
/-- The rows of a list belong to its owner. -/
theorem references_enumerate {α β κ : Type} {key : α → κ} {parent : List α} {owner : κ}
    {first : Nat} {values : List β} (h : ∃ a ∈ parent, key a = owner) :
    References Child.owner (enumerate owner first values) key parent := by
  intro c hc
  rw [(mem_enumerate hc).1]
  exact h

/-! ## Sources -/

theorem sourceAdded {source : SourceArtifact} (h : Constraints db)
    (hadded : SourceAdded db db' source) : Constraints db' := by
  have hsourceIds : UniqueBy SourceRow.sourceId (db.addSource source).sources :=
    h.sourceIds.append_singleton hadded.fresh
  have hversions : UniqueBy SourceRow.versionKey (db.addSource source).sources :=
    h.sourceVersions.append_singleton hadded.freshVersion
  have hsupersedes : References Child.owner (db.addSource source).sourceSupersedes
      SourceRow.sourceId (db.addSource source).sources := by
    refine h.supersedesSources.append_parent.append (references_enumerate ?_)
    exact ⟨_, List.mem_append_right _ List.mem_cons_self, rfl⟩
  rcases hadded.tip with ⟨hnone, -, rfl⟩ | ⟨current, hsome, -, -, -, rfl⟩
  · refine { h with
      sourceIds := hsourceIds
      sourceVersions := hversions
      supersedesSources := hsupersedes
      fragmentSources := h.fragmentSources.append_parent
      tipKeys := h.tipKeys.append_singleton (lookup_eq_none_iff.1 hnone) }
  · exact { h with
      sourceIds := hsourceIds
      sourceVersions := hversions
      supersedesSources := hsupersedes
      fragmentSources := h.fragmentSources.append_parent
      tipKeys := h.tipKeys.updateWhere fun _ => rfl }

theorem fragmentsAdded {source : SourceArtifact} {fragments : List SourceFragment}
    (h : Constraints db) (hadded : FragmentsAdded db db' source fragments) :
    Constraints db' := by
  obtain rfl := hadded.result
  have hids : UniqueBy FragmentRow.fragmentId (db.addFragments source fragments).fragments := by
    refine h.fragmentIds.append ?_ ?_
    · rw [UniqueBy, List.map_map]
      exact hadded.fresh.distinct
    · intro a ha r hr
      obtain ⟨f, hf, rfl⟩ := List.mem_map.1 ha
      exact hadded.fresh.ids f hf r hr
  refine { h with
    fragmentIds := hids
    fragmentSources := h.fragmentSources.append ?_
    headingFragments := h.headingFragments.append_parent.append ?_ }
  · intro a ha
    obtain ⟨f, hf, rfl⟩ := List.mem_map.1 ha
    refine ⟨_, hadded.stored, ?_⟩
    exact (validateSourceFragmentResolution_eq_ok_iff.1 (hadded.resolved f hf)).1.symm
  · intro c hc
    obtain ⟨f, hf, hc⟩ := List.mem_flatMap.1 hc
    rw [(mem_enumerate hc).1]
    exact ⟨_, List.mem_append_right _ (List.mem_map.2 ⟨f, hf, rfl⟩), rfl⟩

omit [Platform] in
theorem bindingAdded {row : BindingRow} (h : Constraints db)
    (hadded : db.insertBinding row = .ok db') : Constraints db' := by
  obtain ⟨hfresh, rfl⟩ := Database.insertBinding_eq_ok hadded
  refine { h with
    bindingKeys := h.bindingKeys.append_singleton fun r hr heq => ?_
    auditBindings := h.auditBindings.append_parent }
  rw [BindingRow.key, BindingRow.key, Prod.mk.injEq] at heq
  exact (hfresh r hr heq.1).1 heq.2

omit [Platform] in
theorem auditAdded {row : AuditRow} (h : Constraints db) (hadded : AuditAdded db db' row) :
    Constraints db' := by
  obtain ⟨⟨s, -, -, -, -, b, hb, hns, hbid, -⟩, rfl⟩ := hadded
  refine { h with auditBindings := h.auditBindings.append fun a ha => ?_ }
  rw [List.mem_singleton] at ha
  subst ha
  exact ⟨b, hb, by rw [BindingRow.key, hns, hbid]⟩

/-! ## Memories -/

theorem proposalAdded {proposal : MemoryProposal} (h : Constraints db)
    (hadded : storeMemoryProposal db proposal = .ok db') : Constraints db' := by
  obtain ⟨-, rfl, hfresh, -⟩ := storeMemoryProposal_eq_ok hadded
  have hnew : ∃ p ∈ (db.addProposal proposal).proposals,
      p.proposalId = proposal.params.proposalId :=
    ⟨_, List.mem_append_right _ List.mem_cons_self, rfl⟩
  refine { h with
    proposalIds := h.proposalIds.append_singleton hfresh
    proposalFragmentOwners :=
      h.proposalFragmentOwners.append_parent.append (references_enumerate hnew)
    proposalTargetOwners := h.proposalTargetOwners.append_parent.append (references_enumerate hnew)
    decisionProposals := h.decisionProposals.append_parent
    proposalProfiles := fun p hp => ?_ }
  rcases List.mem_append.1 hp with hp | hp
  · exact h.proposalProfiles p hp
  · rw [List.mem_singleton] at hp
    subst hp
    have hvalid := proposal.params.proposedContent.valid
    simp only [MemoryValueParams.check, Except.bind_eq_ok_iff, requireProfile,
      require_eq_ok_iff] at hvalid
    obtain ⟨-, hprofile, -⟩ := hvalid
    exact hprofile

theorem decisionAdded {decision : MemoryDecision} (h : Constraints db)
    (hadded : storeMemoryDecision db decision = .ok db') : Constraints db' := by
  obtain ⟨proposal, decisions, hload, -, -, hfresh, rfl⟩ := storeMemoryDecision_eq_ok hadded
  have hrow := (activeProposalRow_eq_some_iff.1 (loadMemoryProposalWith_eq_ok_iff.1 hload).row).1
  refine { h with
    decisionIds := h.decisionIds.append_singleton hfresh
    decisionProposals := h.decisionProposals.append fun d hd => ?_ }
  rw [List.mem_singleton] at hd
  subst hd
  exact ⟨_, lookup_mem hrow, lookup_key hrow⟩

theorem recordAdded {record : MemoryRecord} (h : Constraints db)
    (hfresh : ∀ r ∈ db.records, r.memoryId ≠ record.params.memoryId) :
    Constraints (db.addRecord record) := by
  have hnew : ∃ r ∈ (db.addRecord record).records, r.memoryId = record.params.memoryId :=
    ⟨_, List.mem_append_right _ List.mem_cons_self, rfl⟩
  refine { h with
    recordIds := h.recordIds.append_singleton hfresh
    recordFragmentOwners := h.recordFragmentOwners.append_parent.append (references_enumerate hnew)
    recordSupersedesOwners :=
      h.recordSupersedesOwners.append_parent.append (references_enumerate hnew)
    recordContradictsOwners :=
      h.recordContradictsOwners.append_parent.append (references_enumerate hnew)
    eventRecords := h.eventRecords.append_parent
    recordProfiles := fun r hr => ?_ }
  rcases List.mem_append.1 hr with hr | hr
  · exact h.recordProfiles r hr
  · rw [List.mem_singleton] at hr
    subst hr
    have hvalid := record.params.content.valid
    have hrecord := record.valid
    simp only [MemoryValueParams.check, Except.bind_eq_ok_iff, requireProfile,
      require_eq_ok_iff] at hvalid
    simp only [MemoryRecordParams.check, Except.bind_eq_ok_iff, require_eq_ok_iff] at hrecord
    obtain ⟨-, hprofile, -⟩ := hvalid
    obtain ⟨-, -, -, -, -, -, -, -, -, -, -, hdigest, -⟩ := hrecord
    change record.params.contentDigest.profile = _
    rw [hdigest, hprofile]

omit [Platform] in
theorem eventsAdded {events : List MemoryStateEvent} (h : Constraints db)
    (hfresh : FreshEvents db events) : Constraints (db.addEvents events) := by
  refine { h with
    eventRecords := h.eventRecords.append fun e he => ?_
    relatedEvents := h.relatedEvents.append_parent.append fun c hc => ?_ }
  · obtain ⟨event, hevent, rfl⟩ := List.mem_map.1 he
    exact Database.hasRecord_iff.1 (hfresh.records event hevent)
  · obtain ⟨event, hevent, hc⟩ := List.mem_flatMap.1 hc
    rw [(mem_enumerate hc).1]
    exact ⟨_, List.mem_append_right _ (List.mem_map.2 ⟨event, hevent, rfl⟩), rfl⟩

omit [Platform] in
theorem derivedUpdate {written : Identifier → Prop} (h : Constraints db)
    (hupdate : DerivedUpdate db db' written) : Constraints db' := by
  rw [hupdate.tables]
  exact { h with }

omit [Platform] in
theorem withDerived {tips : List TipRow} {projection : List ProjectionRow}
    {recallFts : List RecallRow} (h : Constraints db) (hkeys : UniqueBy TipRow.key tips) :
    Constraints (db.withDerived tips projection recallFts) :=
  { h with tipKeys := hkeys }

/-! ## Requests and executions -/

theorem requestAdded {request : DeleteRequest} {closure : ExecutionClosure} (h : Constraints db)
    (hfresh : ∀ r ∈ db.requests, r.deleteRequestId ≠ request.params.deleteRequestId) :
    Constraints (db.addRequest request closure) := by
  have hnew : ∃ r ∈ (db.addRequest request closure).requests,
      r.deleteRequestId = request.params.deleteRequestId :=
    ⟨_, List.mem_append_right _ List.mem_cons_self, rfl⟩
  refine { h with
    requestIds := h.requestIds.append_singleton hfresh
    targetRequests := h.targetRequests.append_parent.append (references_enumerate hnew)
    componentRequests := h.componentRequests.append_parent.append fun c hc => ?_
    componentTargetRequests := h.componentTargetRequests.append_parent.append fun c hc => ?_
    closureRequests := h.closureRequests.append_parent.append fun c hc => ?_
    attemptRequests := h.attemptRequests.append_parent
    resultComponents := h.resultComponents.append_parent }
  · obtain ⟨entry, -, rfl⟩ := List.mem_map.1 hc
    exact hnew
  · obtain ⟨component, -, hc⟩ := List.mem_flatMap.1 hc
    dsimp only
    rw [(mem_enumerate hc).1]
    exact hnew
  · obtain ⟨entry, -, hc⟩ := List.mem_flatMap.1 hc
    dsimp only
    rw [(mem_enumerate hc).1]
    exact hnew

theorem requestClosed {request : DeleteRequest} {closure : ExecutionClosure}
    (h : Constraints db) : Constraints (db.closeRequest request closure) := by
  refine { h with
    sourceIds := h.sourceIds.updateWhere fun _ => rfl
    sourceVersions := h.sourceVersions.updateWhere fun _ => rfl
    fragmentIds := h.fragmentIds.updateWhere fun _ => rfl
    tipKeys := h.tipKeys.deleteWhere
    proposalIds := h.proposalIds.updateWhere fun _ => rfl
    recordIds := h.recordIds.updateWhere fun _ => rfl
    fragmentSources := (h.fragmentSources.update_child (f := FragmentRow.setState .pending)
      fun _ => rfl).update_parent (f := SourceRow.setState .pending) fun _ => rfl
    headingFragments := h.headingFragments.update_parent fun _ => rfl
    supersedesSources := h.supersedesSources.update_parent fun _ => rfl
    proposalFragmentOwners := h.proposalFragmentOwners.update_parent fun _ => rfl
    proposalTargetOwners := h.proposalTargetOwners.update_parent fun _ => rfl
    decisionProposals := h.decisionProposals.update_parent fun _ => rfl
    recordFragmentOwners := h.recordFragmentOwners.update_parent fun _ => rfl
    recordSupersedesOwners := h.recordSupersedesOwners.update_parent fun _ => rfl
    recordContradictsOwners := h.recordContradictsOwners.update_parent fun _ => rfl
    eventRecords := h.eventRecords.update_parent fun _ => rfl
    proposalProfiles := fun p hp => ?_
    recordProfiles := fun r hr => ?_ }
  · obtain ⟨old, hold, rfl⟩ := mem_updateWhere.1 hp
    split <;> exact h.proposalProfiles old hold
  · obtain ⟨old, hold, rfl⟩ := mem_updateWhere.1 hr
    split <;> exact h.recordProfiles old hold

omit [Platform] in
theorem fragmentsDeleted {ids : List Identifier} (h : Constraints db) :
    Constraints { db with
      headings := deleteWhere (fun row => ids.contains row.owner) db.headings
      fragments := deleteWhere (fun row => ids.contains row.fragmentId) db.fragments } := by
  refine { h with
    fragmentIds := h.fragmentIds.deleteWhere
    fragmentSources := h.fragmentSources.delete_child
    headingFragments := fun c hc => ?_ }
  obtain ⟨hc, hkept⟩ := mem_deleteWhere.1 hc
  obtain ⟨f, hf, heq⟩ := h.headingFragments c hc
  exact ⟨f, mem_deleteWhere.2 ⟨hf, by rw [heq]; exact hkept⟩, heq⟩

omit [Platform] in
theorem lineagesPurged {namespaceId : Identifier} {lineages : List Identifier}
    (h : Constraints db) : Constraints (db.purgeLineages namespaceId lineages) := by
  refine { h with
    bindingKeys := h.bindingKeys.deleteWhere
    auditBindings := fun a ha => ?_ }
  obtain ⟨ha, hkept⟩ := mem_deleteWhere.1 ha
  obtain ⟨b, hb, heq⟩ := h.auditBindings a ha
  refine ⟨b, mem_deleteWhere.2 ⟨hb, ?_⟩, heq⟩
  -- An audit row whose binding is purged goes with it.
  rw [BindingRow.key, Prod.mk.injEq] at heq
  rw [auditIsPurged, Bool.or_eq_false_iff, List.any_eq_false] at hkept
  simpa [heq.1, heq.2] using hkept.2 b hb

omit [Platform] in
theorem finalized {sources proposals records : List Identifier} {state : DeletionState}
    (h : Constraints db) : Constraints (db.finalize sources proposals records state) := by
  refine { h with
    sourceIds := h.sourceIds.updateWhere fun _ => rfl
    sourceVersions := h.sourceVersions.updateWhere fun _ => rfl
    proposalIds := h.proposalIds.updateWhere fun _ => rfl
    recordIds := h.recordIds.updateWhere fun _ => rfl
    fragmentSources := h.fragmentSources.update_parent fun _ => rfl
    supersedesSources := h.supersedesSources.update_parent fun _ => rfl
    proposalFragmentOwners := h.proposalFragmentOwners.update_parent fun _ => rfl
    proposalTargetOwners := h.proposalTargetOwners.update_parent fun _ => rfl
    decisionProposals := h.decisionProposals.update_parent fun _ => rfl
    recordFragmentOwners := h.recordFragmentOwners.update_parent fun _ => rfl
    recordSupersedesOwners := h.recordSupersedesOwners.update_parent fun _ => rfl
    recordContradictsOwners := h.recordContradictsOwners.update_parent fun _ => rfl
    eventRecords := h.eventRecords.update_parent fun _ => rfl
    proposalProfiles := fun p hp => ?_
    recordProfiles := fun r hr => ?_ }
  · obtain ⟨old, hold, rfl⟩ := mem_updateWhere.1 hp
    split <;> exact h.proposalProfiles old hold
  · obtain ⟨old, hold, rfl⟩ := mem_updateWhere.1 hr
    split <;> exact h.recordProfiles old hold

theorem acted {namespaceId deleteRequestId : Identifier} {hasFailed : Bool}
    {componentType : DeletionComponentType} (h : Constraints db)
    (heffect : ActionEffect db db' namespaceId deleteRequestId hasFailed componentType) :
    Constraints db' := by
  cases componentType with
  | sourceBody =>
    obtain ⟨ids, -, rfl⟩ := heffect
    exact { h with }
  | sourceMetadata =>
    obtain ⟨ids, -, rfl⟩ := heffect
    exact { h with
      sourceIds := h.sourceIds.updateWhere fun _ => rfl
      sourceVersions := h.sourceVersions.updateWhere fun _ => rfl
      fragmentSources := h.fragmentSources.update_parent fun _ => rfl
      supersedesSources := h.supersedesSources.update_parent fun _ => rfl }
  | sourceFragment =>
    obtain ⟨ids, -, -, rfl⟩ := heffect
    exact h.fragmentsDeleted
  | memoryProposal =>
    obtain ⟨ids, -, rfl⟩ := heffect
    refine { h with
      proposalIds := h.proposalIds.updateWhere fun _ => rfl
      proposalFragmentOwners := h.proposalFragmentOwners.delete_child.update_parent fun _ => rfl
      proposalTargetOwners := h.proposalTargetOwners.update_parent fun _ => rfl
      decisionProposals := h.decisionProposals.update_parent fun _ => rfl
      proposalProfiles := fun p hp => ?_ }
    obtain ⟨old, hold, rfl⟩ := mem_updateWhere.1 hp
    split <;> exact h.proposalProfiles old hold
  | memoryDecision =>
    obtain ⟨ids, -, rfl⟩ := heffect
    exact { h with
      decisionIds := h.decisionIds.updateWhere fun _ => rfl
      decisionProposals := h.decisionProposals.update_child fun _ => rfl }
  | memoryRecord =>
    obtain ⟨ids, -, rfl⟩ := heffect
    refine { h with
      recordIds := h.recordIds.updateWhere fun _ => rfl
      recordFragmentOwners := h.recordFragmentOwners.delete_child.update_parent fun _ => rfl
      recordSupersedesOwners := h.recordSupersedesOwners.update_parent fun _ => rfl
      recordContradictsOwners := h.recordContradictsOwners.update_parent fun _ => rfl
      eventRecords := h.eventRecords.update_parent fun _ => rfl
      recordProfiles := fun r hr => ?_ }
    obtain ⟨old, hold, rfl⟩ := mem_updateWhere.1 hr
    split <;> exact h.recordProfiles old hold
  | memoryStateEvent =>
    rw [show db' = db from heffect]
    exact h
  | fullTextIndex =>
    obtain ⟨targets, keys, -, -, rfl⟩ := heffect
    exact { h with }
  | contextCache =>
    rw [show db' = db from heffect]
    exact h
  | minimalAudit =>
    obtain ⟨targets, lineages, sources, proposals, records, -, -, -, -, -, -, rfl⟩ := heffect
    exact h.lineagesPurged.finalized

omit [Platform] in
theorem resultAdded {row : ResultRow} (h : Constraints db)
    (hadded : db.insertResult row = .ok db') : Constraints db' := by
  obtain ⟨-, hfresh, ⟨⟨a, ha, hD, hn⟩, c, hcomponent, hcD, hkey⟩, rfl⟩ :=
    Database.insertResult_eq_ok_iff.1 hadded
  refine { h with
    resultKeys := h.resultKeys.append_singleton fun r hr heq => hfresh r hr ?_
    resultAttempts := References.append h.resultAttempts fun r hr => ?_
    resultComponents := h.resultComponents.append fun r hr => ?_ }
  · simpa [ResultRow.key] using heq
  · rw [List.mem_singleton] at hr
    subst hr
    exact ⟨a, ha, by rw [hD, hn]⟩
  · rw [List.mem_singleton] at hr
    subst hr
    exact ⟨c, hcomponent, Prod.ext hcD hkey⟩

omit [Platform] in
theorem attemptAdded {deleteRequestId : Identifier} {checkedAt : Timestamp} {n : Nat}
    (h : Constraints db) (hadded : insertNextAttempt deleteRequestId checkedAt db = .ok (n, db')) :
    Constraints db' := by
  obtain ⟨-, ⟨r, hr, hid⟩, rfl⟩ := insertNextAttempt_eq_ok hadded
  refine { h with
    attemptRequests := h.attemptRequests.append fun a ha => ?_
    resultAttempts := References.append_parent h.resultAttempts }
  rw [List.mem_singleton] at ha
  subst ha
  exact ⟨r, hr, hid⟩

/-- Every change keeps the constraints. -/
theorem step {c : Change} (h : Constraints db) (happlies : c.Applies db db') :
    Constraints db' := by
  cases c with
  | source new => exact h.sourceAdded happlies
  | binding row => exact h.bindingAdded happlies.2
  | fragments owner new => exact h.fragmentsAdded happlies
  | audit row => exact h.auditAdded happlies
  | proposal new => exact h.proposalAdded happlies
  | decision new => exact h.decisionAdded happlies
  | memory record initialEvent supersededEvents =>
    obtain ⟨proposal, superseded, hm⟩ := materializeAcceptedMemory_eq_ok happlies
    exact ((h.recordAdded hm.freshRecord).eventsAdded hm.freshEvents).derivedUpdate hm.derived
  | event new =>
    obtain ⟨closure, projected, -, -, -, -, hfresh, hderived⟩ :=
      appendMemoryStateEvent_eq_ok happlies
    exact (h.eventsAdded hfresh).derivedUpdate hderived
  | derived =>
    obtain ⟨tips, projection, recallFts, rfl, hsound⟩ := happlies
    exact h.withDerived hsound.tipKeys
  | request new closure =>
    obtain rfl := StoredRequest.result happlies
    exact (h.requestAdded (StoredRequest.fresh happlies)).requestClosed
  | attempt deleteRequestId =>
    obtain ⟨checkedAt, n, hopen⟩ := happlies
    exact h.attemptAdded hopen
  | component executed attemptOrdinal componentType =>
    obtain ⟨planned, result, acted, hdone⟩ := happlies
    exact (h.acted hdone.effect).resultAdded hdone.result
  | failure executed attemptOrdinal componentType =>
    obtain ⟨planned, result, hrecorded⟩ := happlies
    exact h.resultAdded hrecorded.result
  | evidence new executionOrdinal =>
    obtain ⟨-, rfl⟩ := Database.insertEvidenceRow_eq_ok happlies.2
    exact { h with }

end Constraints

theorem Op.constraints {op : Op} (h : Constraints db) : Constraints (op.apply db) :=
  Op.preserves (fun _ _ _ hP _ happlies => hP.step happlies) h.resultAttempts h

end RadishMemory
