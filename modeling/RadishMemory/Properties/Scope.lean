import RadishMemory.Properties.Completion

/-!
# What an execution leaves alone

An execution works on the ids its request froze when it was stored.  Rows of other sources,
proposals and records stay as they are (`ScopeKept`), with one exception: fragment rows are
removed for good, so a later source may use the id of a removed fragment again, and another
execution of the same request then takes the new fragment with it.  `execution_keeps_scope` is
about runs in which that does not happen.
-/

namespace RadishMemory

section Library

variable [Platform] {db db' : Database}

/-! ## Owners -/

section Owners

omit [Platform]

/-- Some fragment row with the id belongs to a source that the request did not freeze. -/
def foreignFragment (db : Database) (D fragmentId : Identifier) : Bool :=
  db.fragments.any fun f => f.fragmentId == fragmentId &&
    notFrozen db D .sourceMetadata FragmentRow.sourceId f

/-- The full-text row stands for an object outside the request. -/
def foreignRecall (db : Database) (D : Identifier) (row : RecallRow) : Bool :=
  match row.key.objectKind with
  | .sourceFragment => foreignFragment db D row.key.objectId
  | .memoryRecord => !decide (Frozen db D .memoryRecord row.key.objectId)

/-- No version of the lineage was frozen. -/
def foreignLineage (db : Database) (D namespaceId lineageId : Identifier) : Bool :=
  !db.sources.any fun s => s.namespaceId == namespaceId && s.lineageId == lineageId &&
    decide (Frozen db D .sourceMetadata s.sourceId)

/-- A row of `db` that belongs to a source, proposal or record outside the closure of the request
is in `db'` as it was, and no such row has appeared. -/
structure ScopeKept (db db' : Database) (D : Identifier) : Prop where
  sources : db'.sources.filter (notFrozen db D .sourceMetadata SourceRow.sourceId) =
    db.sources.filter (notFrozen db D .sourceMetadata SourceRow.sourceId)
  bodies : db'.bodies.filter (notFrozen db D .sourceMetadata BodyRow.sourceId) =
    db.bodies.filter (notFrozen db D .sourceMetadata BodyRow.sourceId)
  fragments : db'.fragments.filter (notFrozen db D .sourceMetadata FragmentRow.sourceId) =
    db.fragments.filter (notFrozen db D .sourceMetadata FragmentRow.sourceId)
  headings : db'.headings.filter (fun row => foreignFragment db D row.owner) =
    db.headings.filter (fun row => foreignFragment db D row.owner)
  recallFts : db'.recallFts.filter (foreignRecall db D) =
    db.recallFts.filter (foreignRecall db D)
  proposals : db'.proposals.filter (notFrozen db D .memoryProposal ProposalRow.proposalId) =
    db.proposals.filter (notFrozen db D .memoryProposal ProposalRow.proposalId)
  proposalFragments : db'.proposalFragments.filter (notFrozen db D .memoryProposal Child.owner) =
    db.proposalFragments.filter (notFrozen db D .memoryProposal Child.owner)
  decisions : db'.decisions.filter
      (notFrozen db D .memoryProposal MemoryDecisionParams.proposalId) =
    db.decisions.filter (notFrozen db D .memoryProposal MemoryDecisionParams.proposalId)
  records : db'.records.filter (notFrozen db D .memoryRecord RecordRow.memoryId) =
    db.records.filter (notFrozen db D .memoryRecord RecordRow.memoryId)
  recordFragments : db'.recordFragments.filter (notFrozen db D .memoryRecord Child.owner) =
    db.recordFragments.filter (notFrozen db D .memoryRecord Child.owner)
  bindings : db'.bindings.filter (fun row => foreignLineage db D row.namespaceId row.lineageId) =
    db.bindings.filter (fun row => foreignLineage db D row.namespaceId row.lineageId)
  captureAudit : db'.captureAudit.filter (notFrozen db D .sourceMetadata AuditRow.sourceId) =
    db.captureAudit.filter (notFrozen db D .sourceMetadata AuditRow.sourceId)
  tips : db'.tips = db.tips
  projection : db'.projection = db.projection
  relations : db'.sourceSupersedes = db.sourceSupersedes ∧
    db'.proposalTargets = db.proposalTargets ∧ db'.recordSupersedes = db.recordSupersedes ∧
    db'.recordContradicts = db.recordContradicts ∧ db'.events = db.events ∧
    db'.eventRelated = db.eventRelated

/-- Every active source, fragment, proposal and record is still there as it was. -/
structure ActiveRowsKept (db db' : Database) : Prop where
  sources : ∀ s ∈ db.sources, s.governance.deletionState = .active → s ∈ db'.sources
  fragments : ∀ f ∈ db.fragments, f.governance.deletionState = .active → f ∈ db'.fragments
  proposals : ∀ p ∈ db.proposals, p.governance.deletionState = .active → p ∈ db'.proposals
  records : ∀ r ∈ db.records, r.governance.deletionState = .active → r ∈ db'.records

/-- The fragments that the request froze belong to sources it froze, and its decisions to its
proposals. -/
structure ClosureOwned (db : Database) (D : Identifier) : Prop where
  fragments : ∀ f ∈ db.fragments, Frozen db D .sourceFragment f.fragmentId →
    Frozen db D .sourceMetadata f.sourceId
  decisions : ∀ d ∈ db.decisions, Frozen db D .memoryDecision d.decisionId →
    Frozen db D .memoryProposal d.proposalId

end Owners

/-- The operation writes no fragment under an id that the request has frozen. -/
def FreshFragmentIds (D : Identifier) (db : Database) (op : Op) : Prop :=
  ∀ f ∈ op.fragments, ¬ Frozen db D .sourceFragment f.params.fragmentId

instance FreshFragmentIds.decidable (D : Identifier) (db : Database) (op : Op) :
    Decidable (FreshFragmentIds D db op) :=
  inferInstanceAs (Decidable (∀ f ∈ op.fragments, _))

theorem ClosureOwned.requestAdded (h : LibraryInvariant db) {D : Identifier}
    (howned : ClosureOwned db D) {request : DeleteRequest} {closure : ExecutionClosure}
    (hstored : StoredRequest db db' request closure) : ClosureOwned db' D := by
  have hbuilt := buildExecutionClosure_eq_ok hstored.built
  constructor
  · intro f hf hfrozen
    obtain ⟨old, hold, heq⟩ := hstored.mem_fragments.1 hf
    have hkey : f.fragmentId = old.fragmentId ∧ f.sourceId = old.sourceId := by
      rw [← heq]
      split <;> exact ⟨rfl, rfl⟩
    rw [hkey.1, hstored.frozen_iff, ExecutionClosure.refs, mem_refSet_ids] at hfrozen
    rw [hkey.2, hstored.frozen_source_iff]
    rcases hfrozen with hfrozen | ⟨rfl, hmem⟩
    · exact .inl (howned.fragments old hold hfrozen)
    · obtain ⟨g, hg, hid, hsource, -⟩ := (hbuilt.fragmentIds _).1 hmem
      rw [← h.constraints.fragmentIds.eq_of_mem hg hold hid]
      exact .inr ⟨rfl, hsource⟩
  · intro d hd hfrozen
    have hdecisions : db'.decisions = db.decisions := by
      rw [hstored.result]
      rfl
    rw [hdecisions] at hd
    rw [hstored.frozen_iff, ExecutionClosure.refs, mem_refSet_ids] at hfrozen
    rw [hstored.frozen_proposal_iff]
    rcases hfrozen with hfrozen | ⟨rfl, hmem⟩
    · exact .inl (howned.decisions d hd hfrozen)
    · obtain ⟨e, he, hid, hproposal, -⟩ := (hbuilt.decisionIds _).1 hmem
      rw [← h.constraints.decisionIds.eq_of_mem he hd hid]
      exact .inr ⟨rfl, hproposal⟩

/-- A change keeps the owners, unless it writes a fragment under a frozen id. -/
theorem ClosureOwned.step (h : LibraryInvariant db) {D : Identifier} (howned : ClosureOwned db D)
    {c : Change} (hfresh : ∀ f ∈ c.newFragments, ¬ Frozen db D .sourceFragment f.fragmentId)
    (happlies : c.Applies db db') : ClosureOwned db' D := by
  have hc := h.constraints
  rcases happlies.plans with ⟨request, closure, rfl⟩ | hsame
  · exact howned.requestAdded h happlies
  have hfrozen : ∀ componentType id, Frozen db' D componentType id ↔
      Frozen db D componentType id := by
    intro componentType id
    rw [Frozen, hsame.executionClosure]
    rfl
  constructor
  · intro f hf hid
    rw [hfrozen] at hid ⊢
    rcases (happlies.mem_fragments hc).1 hf with ⟨old, hold, -, rfl⟩ | hnew
    · obtain ⟨hfragment, hsource, -⟩ := c.onFragment_key old
      rw [hfragment] at hid
      rw [hsource]
      exact howned.fragments old hold hid
    · exact absurd hid (hfresh f hnew)
  · intro d hd hid
    rw [hfrozen] at hid ⊢
    rcases (happlies.mem_decisions hc).1 hd with ⟨old, hold, rfl⟩ | hnew
    · obtain ⟨hdecision, hproposal⟩ := c.onDecision_key db old
      rw [hdecision] at hid
      rw [hproposal]
      exact howned.decisions old hold hid
    · obtain ⟨old, hold, heq⟩ := h.closedDecisions D _ hid
      exact absurd heq (happlies.newDecisions_fresh d hnew old hold)

/-! ## One component -/

section Filters

omit [Platform]

variable {α : Type} {p q : α → Bool} {rows : List α}

theorem filter_removed (h : ∀ row ∈ rows, p row = true → q row = true) :
    (rows.filter q).filter p = rows.filter p := by
  rw [List.filter_filter]
  refine List.filter_congr fun row hrow => ?_
  by_cases hp : p row = true
  · rw [hp, h row hrow hp]
    rfl
  · rw [Bool.not_eq_true] at hp
    rw [hp]
    rfl

theorem filter_rewritten {f : α → α} (hkey : ∀ row, p (f row) = p row)
    (hsame : ∀ row ∈ rows, p row = true → f row = row) :
    (rows.map f).filter p = rows.filter p := by
  rw [List.filter_map, show p ∘ f = p from funext hkey]
  conv => rhs; rw [← List.map_id (rows.filter p)]
  refine List.map_congr_left fun row hrow => ?_
  rw [List.mem_filter] at hrow
  exact hsame row hrow.1 hrow.2

end Filters

/-- A component rewrites only frozen rows. -/
theorem ClosedTable.on_component_of_not_frozen {α : Type} (T : ClosedTable α)
    {executed : DeleteRequest} {n : Nat} {componentType : DeletionComponentType} {row : α}
    (h : ¬ Frozen db executed.params.deleteRequestId T.component (T.id row)) :
    T.on db (.component executed n componentType) row = row := by
  unfold on
  dsimp only
  rw [if_neg h]

/-- What a component leaves of a table with states. -/
theorem ClosedTable.Sound.filter_rows {α : Type} {T : ClosedTable α} (hT : T.Sound)
    (hc : Constraints db) {executed : DeleteRequest} {n : Nat}
    {componentType : DeletionComponentType}
    (happlies : (Change.component executed n componentType).Applies db db') :
    (T.rows db'.toDataTables).filter
        (notFrozen db executed.params.deleteRequestId T.component T.id) =
      (T.rows db.toDataTables).filter
        (notFrozen db executed.params.deleteRequestId T.component T.id) := by
  rw [happlies.tables hc, hT.derived, hT.effect, T.added_component, List.append_nil]
  refine filter_rewritten (fun row => ?_) fun row _ hout => ?_
  · rw [notFrozen, notFrozen, T.on_id]
  · rw [notFrozen, Bool.not_eq_true', decide_eq_false_iff_not] at hout
    exact T.on_component_of_not_frozen hout

omit [Platform] in
theorem notFrozen_iff {α : Type} {D : Identifier} {componentType : DeletionComponentType}
    {id : α → Identifier} {row : α} :
    notFrozen db D componentType id row = true ↔ ¬ Frozen db D componentType (id row) := by
  rw [notFrozen, Bool.not_eq_true', decide_eq_false_iff_not]

omit [Platform] in
theorem foreignFragment_iff {D fragmentId : Identifier} :
    foreignFragment db D fragmentId = true ↔ ∃ f ∈ db.fragments, f.fragmentId = fragmentId ∧
      ¬ Frozen db D .sourceMetadata f.sourceId := by
  simp [foreignFragment, notFrozen_iff]

omit [Platform] in
theorem foreignLineage_iff {D namespaceId lineageId : Identifier} :
    foreignLineage db D namespaceId lineageId = true ↔ ∀ s ∈ db.sources,
      s.namespaceId = namespaceId → s.lineageId = lineageId →
        ¬ Frozen db D .sourceMetadata s.sourceId := by
  simp [foreignLineage]

section Component

variable {request : DeleteRequest} {closure : ExecutionClosure} {n : Nat}
  {componentType : DeletionComponentType}

/-- The sources of the first, the second and the last component are the same. -/
theorem StoredPlan.frozen_body_iff (h : StoredPlan db request closure) {id : Identifier} :
    Frozen db request.params.deleteRequestId .sourceBody id ↔
      Frozen db request.params.deleteRequestId .sourceMetadata id := by
  rw [h.frozen_iff, h.frozen_iff]
  rfl

theorem StoredPlan.audited_frozen (h : StoredPlan db request closure) {id : Identifier}
    (haudited : ∃ c ∈ db.executionClosure, c.owner = (request.params.deleteRequestId, .minimalAudit) ∧
      c.value = ⟨.sourceArtifact, id⟩) :
    Frozen db request.params.deleteRequestId .sourceMetadata id := by
  have hmem : ⟨.sourceArtifact, id⟩ ∈ closure.refs .minimalAudit :=
    (mem_of_loadChildren (h.loadExecutionClosure .minimalAudit)).2 haudited
  rw [h.frozen_iff, ExecutionClosure.refs, mem_refSet_ids]
  simp only [ExecutionClosure.refs, mem_refSet, List.mem_append, mem_refsOf] at hmem
  rcases hmem with ⟨-, hid⟩ | ⟨htype, -⟩
  · exact hid
  · cases htype

/-- The last component purges lineages of frozen sources. -/
theorem StoredPlan.not_foreign_of_purged (h : StoredPlan db request closure)
    {namespaceId lineageId : Identifier}
    (hpurged : Purged db namespaceId request.params.deleteRequestId lineageId) :
    ∃ s ∈ db.sources, s.namespaceId = namespaceId ∧ s.lineageId = lineageId ∧
      Frozen db request.params.deleteRequestId .sourceMetadata s.sourceId := by
  obtain ⟨s, hs, ⟨hns, hlineage⟩, haudited⟩ := hpurged
  exact ⟨s, hs, hns, hlineage, h.audited_frozen haudited⟩

/-- The audit rows that go with a purged lineage are of sources that the request froze. -/
theorem audit_frozen (h : LibraryInvariant db) (hplan : StoredPlan db request closure)
    {a : AuditRow} (ha : a ∈ db.captureAudit)
    (hgone : auditStays db request.params.namespaceId request.params.deleteRequestId a = false) :
    Frozen db request.params.deleteRequestId .sourceMetadata a.sourceId := by
  obtain ⟨s, hs, hid, hns, hstate, hbound⟩ := h.audits a ha
  -- The audited source is of a purged lineage, whichever way the row goes.
  have hpurged : Purged db request.params.namespaceId request.params.deleteRequestId
      s.lineageId ∧ s.namespaceId = request.params.namespaceId := by
    simp only [auditStays, bindingStays, Bool.not_eq_false', Bool.or_eq_true, Bool.and_eq_true,
      beq_iff_eq, List.any_eq_true, decide_eq_true_eq, Bool.not_not] at hgone
    rcases hgone with ⟨-, t, ht, ⟨htid, htns⟩, hp⟩ | ⟨b, hb, ⟨⟨hbns, hp⟩, hkeyNs⟩, hkeyId⟩
    · obtain rfl := h.constraints.sourceIds.eq_of_mem ht hs (htid.trans hid.symm)
      exact ⟨hp, htns⟩
    · have hlineage := hbound b hb (Prod.ext hkeyNs hkeyId)
      rw [hlineage] at hp
      exact ⟨hp, by rw [hns, ← hkeyNs, hbns]⟩
  obtain ⟨t, ht, htns, htlineage, hfrozen⟩ := hplan.not_foreign_of_purged hpurged.1
  rw [← hid]
  rcases hstate with hactive | ⟨D, hD⟩
  · exact absurd hactive ((h.closedLineages _ t ht hfrozen).2 s hs
      (hpurged.2.trans htns.symm) htlineage.symm)
  · rw [← h.oneLineage _ _ t ht s hs hfrozen hD (htns.trans hpurged.2.symm) htlineage] at hD
    exact hD

variable (h : PlannedLibrary db) (hplan : StoredPlan db request closure)
  (howned : ClosureOwned db request.params.deleteRequestId)
  (happlies : (Change.component request n componentType).Applies db db')

include h happlies

include hplan in
theorem component_bodies :
    db'.bodies.filter (notFrozen db request.params.deleteRequestId .sourceMetadata
        BodyRow.sourceId) =
      db.bodies.filter (notFrozen db request.params.deleteRequestId .sourceMetadata
        BodyRow.sourceId) := by
  rw [happlies.bodies h.library.constraints,
    show (Change.component request n componentType).newBodies = [] from rfl, List.append_nil]
  refine filter_removed fun row _ hout => ?_
  rw [notFrozen_iff, ← hplan.frozen_body_iff] at hout
  cases componentType with
  | sourceBody => exact notFrozen_iff.2 hout
  | _ => rfl

include howned in
theorem component_fragments :
    db'.fragments.filter (notFrozen db request.params.deleteRequestId .sourceMetadata
        FragmentRow.sourceId) =
      db.fragments.filter (notFrozen db request.params.deleteRequestId .sourceMetadata
        FragmentRow.sourceId) := by
  rw [happlies.fragments h.library.constraints,
    show (Change.component request n componentType).newFragments = [] from rfl, List.append_nil,
    show (Change.component request n componentType).onFragment = id from rfl, List.map_id]
  refine filter_removed fun row hrow hout => ?_
  rw [notFrozen_iff] at hout
  cases componentType with
  | sourceFragment => exact notFrozen_iff.2 fun hid => hout (howned.fragments row hrow hid)
  | _ => rfl

omit [Platform] h happlies in
/-- The id of a foreign fragment is not frozen. -/
theorem ClosureOwned.foreign {D : Identifier} (howned : ClosureOwned db D) {id : Identifier}
    (hid : foreignFragment db D id = true) : ¬ Frozen db D .sourceFragment id := by
  intro hfrozen
  obtain ⟨f, hf, rfl, hout⟩ := foreignFragment_iff.1 hid
  exact hout (howned.fragments f hf hfrozen)

include howned in
theorem component_headings :
    db'.headings.filter (fun row =>
        foreignFragment db request.params.deleteRequestId row.owner) =
      db.headings.filter (fun row =>
        foreignFragment db request.params.deleteRequestId row.owner) := by
  rw [happlies.headings h.library.constraints,
    show (Change.component request n componentType).newHeadings = [] from rfl, List.append_nil]
  refine filter_removed fun row _ hout => ?_
  cases componentType with
  | sourceFragment => exact notFrozen_iff.2 (howned.foreign hout)
  | _ => rfl

omit h in
include hplan howned in
theorem component_recallFts :
    db'.recallFts.filter (foreignRecall db request.params.deleteRequestId) =
      db.recallFts.filter (foreignRecall db request.params.deleteRequestId) := by
  obtain ⟨planned, result, acted, hdone⟩ := id happlies
  obtain ⟨-, -, -, hresult⟩ := Database.insertResult_eq_ok_iff.1 hdone.result
  have heq : db'.recallFts = acted.recallFts := by rw [hresult]
  rw [heq, hdone.effect.recallFts hplan]
  by_cases hindex : componentType = .fullTextIndex
  · rw [if_pos hindex]
    refine filter_removed fun row _ hout => ?_
    rw [Bool.not_eq_true']
    obtain ⟨⟨kind, id⟩, namespaceId, sensitivity, content⟩ := row
    cases kind with
    | sourceFragment =>
      have hnot := howned.foreign hout
      rw [hplan.frozen_iff, ExecutionClosure.refs, mem_refSet_ids] at hnot
      simpa [recallIsClosed] using hnot
    | memoryRecord =>
      have hnot : ¬ Frozen db request.params.deleteRequestId .memoryRecord id := by
        simpa [foreignRecall] using hout
      rw [hplan.frozen_iff, ExecutionClosure.refs, mem_refSet_ids] at hnot
      simpa [recallIsClosed] using hnot
  · rw [if_neg hindex]

theorem component_links :
    db'.proposalFragments.filter (notFrozen db request.params.deleteRequestId .memoryProposal
        Child.owner) =
      db.proposalFragments.filter (notFrozen db request.params.deleteRequestId .memoryProposal
        Child.owner) ∧
    db'.recordFragments.filter (notFrozen db request.params.deleteRequestId .memoryRecord
        Child.owner) =
      db.recordFragments.filter (notFrozen db request.params.deleteRequestId .memoryRecord
        Child.owner) := by
  rw [happlies.proposalFragments h.library.constraints,
    show (Change.component request n componentType).newProposalFragments = [] from rfl,
    List.append_nil, happlies.recordFragments h.library.constraints,
    show (Change.component request n componentType).newRecordFragments = [] from rfl,
    List.append_nil]
  constructor
  · refine filter_removed fun row _ hout => ?_
    cases componentType with
    | memoryProposal => exact hout
    | _ => rfl
  · refine filter_removed fun row _ hout => ?_
    cases componentType with
    | memoryRecord => exact hout
    | _ => rfl

include howned in
theorem component_decisions :
    db'.decisions.filter (notFrozen db request.params.deleteRequestId .memoryProposal
        MemoryDecisionParams.proposalId) =
      db.decisions.filter (notFrozen db request.params.deleteRequestId .memoryProposal
        MemoryDecisionParams.proposalId) := by
  rw [happlies.decisions h.library.constraints,
    show (Change.component request n componentType).newDecisions = [] from rfl, List.append_nil]
  refine filter_rewritten (fun row => ?_) fun row hrow hout => ?_
  · rw [notFrozen, notFrozen, (Change.onDecision_key db _ row).2]
  · rw [notFrozen_iff] at hout
    cases componentType with
    | memoryDecision =>
      rw [Change.onDecision, onFrozen, if_neg fun hid => hout (howned.decisions row hrow hid)]
    | _ => rfl

include hplan in
theorem component_bindings :
    db'.bindings.filter (fun row => foreignLineage db request.params.deleteRequestId
        row.namespaceId row.lineageId) =
      db.bindings.filter (fun row => foreignLineage db request.params.deleteRequestId
        row.namespaceId row.lineageId) := by
  rw [happlies.bindings h.library.constraints,
    show (Change.component request n componentType).newBindings = [] from rfl, List.append_nil]
  refine filter_removed fun row _ hout => ?_
  rw [foreignLineage_iff] at hout
  cases componentType with
  | minimalAudit =>
    change bindingStays _ _ _ _ = true
    rw [bindingStays, Bool.not_eq_true', Bool.and_eq_false_imp, beq_iff_eq]
    intro hns
    rw [decide_eq_false_iff_not]
    intro hpurged
    obtain ⟨s, hs, hsns, hlineage, hfrozen⟩ := hplan.not_foreign_of_purged hpurged
    exact hout s hs (hsns.trans hns.symm) hlineage hfrozen
  | _ => rfl

include hplan in
theorem component_captureAudit :
    db'.captureAudit.filter (notFrozen db request.params.deleteRequestId .sourceMetadata
        AuditRow.sourceId) =
      db.captureAudit.filter (notFrozen db request.params.deleteRequestId .sourceMetadata
        AuditRow.sourceId) := by
  rw [happlies.captureAudit h.library.constraints,
    show (Change.component request n componentType).newCaptureAudit = [] from rfl, List.append_nil]
  refine filter_removed fun row hrow hout => ?_
  rw [notFrozen_iff] at hout
  cases componentType with
  | minimalAudit =>
    by_contra hgone
    rw [Bool.not_eq_true] at hgone
    exact hout (audit_frozen h.library hplan hrow hgone)
  | _ => rfl

theorem component_relations : db'.sourceSupersedes = db.sourceSupersedes ∧
    db'.proposalTargets = db.proposalTargets ∧ db'.recordSupersedes = db.recordSupersedes ∧
    db'.recordContradicts = db.recordContradicts ∧ db'.events = db.events ∧
    db'.eventRelated = db.eventRelated := by
  rw [happlies.tables h.library.constraints]
  cases componentType <;> exact ⟨rfl, rfl, rfl, rfl, rfl, rfl⟩

include howned in
/-- A component works inside the closure of its request. -/
theorem ScopeKept.of_component : ScopeKept db db' request.params.deleteRequestId := by
  have hc := h.library.constraints
  obtain ⟨planned, result, acted, hdone⟩ := id happlies
  obtain ⟨closure, hplan⟩ := h.plans.of_loaded hdone.loaded
  obtain ⟨-, -, -, hresult⟩ := Database.insertResult_eq_ok_iff.1 hdone.result
  exact
    { sources := sourceTable_sound.filter_rows hc happlies
      bodies := component_bodies h hplan happlies
      fragments := component_fragments h howned happlies
      headings := component_headings h howned happlies
      recallFts := component_recallFts hplan howned happlies
      proposals := proposalTable_sound.filter_rows hc happlies
      proposalFragments := (component_links h happlies).1
      decisions := component_decisions h howned happlies
      records := recordTable_sound.filter_rows hc happlies
      recordFragments := (component_links h happlies).2
      bindings := component_bindings h hplan happlies
      captureAudit := component_captureAudit h hplan happlies
      tips := by rw [← hdone.effect.derived.1, hresult]
      projection := by rw [← hdone.effect.derived.2, hresult]
      relations := component_relations h happlies }

end Component

/-! ## Whole executions -/

section Steps

omit [Platform]

theorem ScopeKept.refl (D : Identifier) : ScopeKept db db D := by
  constructor <;> first
    | rfl
    | exact ⟨rfl, rfl, rfl, rfl, rfl, rfl⟩

/-- What says to which lineage a source belongs. -/
def SourceRow.place (row : SourceRow) : Identifier × Identifier × Identifier :=
  (row.sourceId, row.namespaceId, row.lineageId)

theorem notFrozen_congr {α : Type} (h : db'.executionClosure = db.executionClosure)
    (D : Identifier) (componentType : DeletionComponentType) (id : α → Identifier) :
    notFrozen db' D componentType id = notFrozen db D componentType id := by
  funext row
  rw [Bool.eq_iff_iff, notFrozen_iff, notFrozen_iff, Frozen, h]
  rfl

theorem ScopeKept.foreignFragment_eq {D : Identifier} (h : ScopeKept db db' D)
    (hclosure : db'.executionClosure = db.executionClosure) (id : Identifier) :
    foreignFragment db' D id = foreignFragment db D id := by
  have hany : ∀ a : Database, foreignFragment a D id =
      (a.fragments.filter (notFrozen a D .sourceMetadata FragmentRow.sourceId)).any
        (·.fragmentId == id) := by
    intro a
    simp only [foreignFragment, List.any_filter, Bool.and_comm]
  rw [hany, hany, notFrozen_congr hclosure, h.fragments]

theorem foreignLineage_eq (hclosure : db'.executionClosure = db.executionClosure)
    (hplaces : db'.sources.map SourceRow.place = db.sources.map SourceRow.place)
    (D namespaceId lineageId : Identifier) :
    foreignLineage db' D namespaceId lineageId = foreignLineage db D namespaceId lineageId := by
  have hany : ∀ a : Database, foreignLineage a D namespaceId lineageId =
      !(a.sources.map SourceRow.place).any fun place => place.2.1 == namespaceId &&
        place.2.2 == lineageId && decide (Frozen a D .sourceMetadata place.1) := by
    intro a
    rw [List.any_map]
    rfl
  have hfrozen : ∀ id, Frozen db' D .sourceMetadata id ↔ Frozen db D .sourceMetadata id := by
    intro id
    rw [Frozen, hclosure]
    rfl
  rw [hany, hany, hplaces]
  simp only [hfrozen]

/-- Two steps of an execution. -/
theorem ScopeKept.trans {db'' : Database} {D : Identifier} (h : ScopeKept db db' D)
    (h' : ScopeKept db' db'' D) (hclosure : db'.executionClosure = db.executionClosure)
    (hplaces : db'.sources.map SourceRow.place = db.sources.map SourceRow.place) :
    ScopeKept db db'' D := by
  have hfragment := h.foreignFragment_eq hclosure
  have hrecall : foreignRecall db' D = foreignRecall db D := by
    funext row
    unfold foreignRecall
    rw [hfragment]
    have hfrozen : Frozen db' D .memoryRecord row.key.objectId ↔
        Frozen db D .memoryRecord row.key.objectId := by
      rw [Frozen, hclosure]
      rfl
    simp only [hfrozen]
  have hlineage := foreignLineage_eq hclosure hplaces D
  obtain ⟨hs, hb, hf, hh, hr, hp, hpf, hd, hm, hmf, hbind, ha, ht, hproj, hrel⟩ := h'
  simp only [notFrozen_congr hclosure] at hs hb hf hp hpf hd hm hmf ha
  simp only [hfragment, hrecall, hlineage] at hh hr hbind
  exact ⟨hs.trans h.sources, hb.trans h.bodies, hf.trans h.fragments, hh.trans h.headings,
    hr.trans h.recallFts, hp.trans h.proposals, hpf.trans h.proposalFragments,
    hd.trans h.decisions, hm.trans h.records, hmf.trans h.recordFragments,
    hbind.trans h.bindings, ha.trans h.captureAudit, ht.trans h.tips, hproj.trans h.projection,
    hrel.1.trans h.relations.1, hrel.2.1.trans h.relations.2.1,
    hrel.2.2.1.trans h.relations.2.2.1, hrel.2.2.2.1.trans h.relations.2.2.2.1,
    hrel.2.2.2.2.1.trans h.relations.2.2.2.2.1, hrel.2.2.2.2.2.trans h.relations.2.2.2.2.2⟩

end Steps

/-- Where an execution is: its request still has its plan, and nothing outside it was touched. -/
structure WithinScope (start : Database) (D : Identifier) (db : Database) : Prop where
  library : PlannedLibrary db
  owned : ClosureOwned db D
  closure : db.executionClosure = start.executionClosure
  places : db.sources.map SourceRow.place = start.sources.map SourceRow.place
  kept : ScopeKept start db D

/-- A change of the deletion tables alone. -/
theorem WithinScope.of_data {start : Database} {D : Identifier} (h : WithinScope start D db)
    {c : Change} (happlies : c.Applies db db') (hdata : db'.toDataTables = db.toDataTables)
    (hclosure : db'.executionClosure = db.executionClosure) : WithinScope start D db' := by
  have hsources : db'.sources = db.sources := by rw [hdata]
  refine ⟨h.library.step happlies, ?_, hclosure.trans h.closure, by rw [hsources, h.places], ?_⟩
  · obtain ⟨hfragments, hdecisions⟩ := h.owned
    constructor
    · intro f hf hid
      rw [hdata] at hf
      rw [Frozen, hclosure] at hid ⊢
      exact hfragments f hf hid
    · intro d hd hid
      rw [hdata] at hd
      rw [Frozen, hclosure] at hid ⊢
      exact hdecisions d hd hid
  · obtain ⟨hs, hb, hf, hh, hr, hp, hpf, hd, hm, hmf, hbind, ha, ht, hproj, hrel⟩ := h.kept
    constructor <;> rw [hdata] <;> assumption

theorem ClosedTable.Sound.component_ids {α β : Type} {T : ClosedTable α} (hT : T.Sound)
    (hc : Constraints db) {executed : DeleteRequest} {n : Nat}
    {componentType : DeletionComponentType}
    (happlies : (Change.component executed n componentType).Applies db db') (column : α → β)
    (hcolumn : ∀ c row, column (T.on db c row) = column row) :
    (T.rows db'.toDataTables).map column = (T.rows db.toDataTables).map column := by
  rw [happlies.tables hc, hT.derived, hT.effect, T.added_component, List.append_nil, List.map_map]
  exact List.map_congr_left fun row _ => hcolumn _ row

theorem sourceTable_on_place (c : Change) (row : SourceRow) :
    (sourceTable.on db c row).place = row.place :=
  sourceTable.on_column (fun _ _ => rfl) (fun _ => rfl) c row

theorem WithinScope.step {start : Database} {op : Op} {D : Identifier} (h : WithinScope start D db)
    (hexecutes : op.executes = some D) {c : Change} (hwithin : c.Within op start db)
    (happlies : c.Applies db db') : WithinScope start D db' := by
  have hother : op.executes = none → WithinScope start D db' := by
    intro hnone
    rw [hexecutes] at hnone
    cases hnone
  cases c with
  | attempt D' =>
    obtain ⟨checkedAt, n, hopen⟩ := id happlies
    obtain ⟨-, -, hresult⟩ := insertNextAttempt_eq_ok hopen
    exact h.of_data happlies (by rw [hresult]) (by rw [hresult])
  | failure executed n componentType =>
    obtain ⟨planned, result, hrecorded⟩ := id happlies
    obtain ⟨-, -, -, hresult⟩ := Database.insertResult_eq_ok_iff.1 hrecorded.result
    exact h.of_data happlies (by rw [hresult]) (by rw [hresult])
  | component executed n componentType =>
    have hD : executed.params.deleteRequestId = D := by
      have := hwithin.1
      rw [hexecutes, Option.some.injEq] at this
      exact this.symm
    subst hD
    have hc := h.library.library.constraints
    have hplans : SamePlans db db' := by
      rcases happlies.plans with ⟨request, closure, heq⟩ | hsame
      · cases heq
      · exact hsame
    refine ⟨h.library.step happlies, h.owned.step h.library.library (by simp [Change.newFragments])
      happlies, hplans.executionClosure.trans h.closure, ?_,
      h.kept.trans (ScopeKept.of_component h.library h.owned happlies) h.closure h.places⟩
    rw [← h.places]
    exact sourceTable_sound.component_ids hc happlies SourceRow.place sourceTable_on_place
  | fragments owner new => exact hother hwithin.2.2
  | _ => exact hother hwithin

omit [Platform] in
/-- What no request froze is not touched, and what is active is frozen by no request. -/
theorem ScopeKept.activeRows {D : Identifier} (h : LibraryInvariant db) (hkept : ScopeKept db db' D) :
    ActiveRowsKept db db' where
  sources s hs hactive := by
    have hmem : s ∈ db'.sources.filter (notFrozen db D .sourceMetadata SourceRow.sourceId) := by
      rw [hkept.sources, List.mem_filter, notFrozen_iff]
      exact ⟨hs, h.source_not_frozen hs hactive D⟩
    exact (List.mem_filter.1 hmem).1
  fragments f hf hactive := by
    have hmem : f ∈ db'.fragments.filter
        (notFrozen db D .sourceMetadata FragmentRow.sourceId) := by
      rw [hkept.fragments, List.mem_filter, notFrozen_iff]
      exact ⟨hf, fun hfrozen => h.closedFragments D f hf hfrozen hactive⟩
    exact (List.mem_filter.1 hmem).1
  proposals p hp hactive := by
    have hmem : p ∈ db'.proposals.filter
        (notFrozen db D .memoryProposal ProposalRow.proposalId) := by
      rw [hkept.proposals, List.mem_filter, notFrozen_iff]
      exact ⟨hp, h.proposal_not_frozen hp hactive D⟩
    exact (List.mem_filter.1 hmem).1
  records r hr hactive := by
    have hmem : r ∈ db'.records.filter (notFrozen db D .memoryRecord RecordRow.memoryId) := by
      rw [hkept.records, List.mem_filter, notFrozen_iff]
      exact ⟨hr, h.record_not_frozen hr hactive D⟩
    exact (List.mem_filter.1 hmem).1

/-! ## Runs -/

theorem FreshFragmentIds.newFragments {D : Identifier} {start : Database} {op : Op}
    (hfresh : FreshFragmentIds D start op) {c : Change} (hwithin : c.Within op start db) :
    ∀ f ∈ c.newFragments, ¬ Frozen db D .sourceFragment f.fragmentId := by
  intro f hf
  cases c with
  | fragments owner new =>
    obtain ⟨rfl, hclosure, -⟩ := hwithin
    obtain ⟨g, hg, rfl⟩ := List.mem_map.1 hf
    rw [Frozen, hclosure]
    exact hfresh g hg
  | _ => cases hf

/-- Where no fragment is written under a frozen id, the closure keeps its owners. -/
theorem closureOwned_of_run {ops : List Op} {D : Identifier}
    (hfresh : Along (FreshFragmentIds D) .empty ops) :
    PlannedLibrary (runOps .empty ops) ∧ ClosureOwned (runOps .empty ops) D := by
  refine runOps_preserves (P := fun db => PlannedLibrary db ∧ ClosureOwned db D) ?_ ?_ hfresh
  · intro db op hP hcond
    refine Op.preserves (P := fun db => PlannedLibrary db ∧ ClosureOwned db D)
      (fun a b c h hwithin happlies => ⟨h.1.step happlies, h.2.step h.1.library ?_ happlies⟩)
      hP.1.library.constraints.resultAttempts hP
    exact hcond.newFragments hwithin
  · exact ⟨plannedLibrary_of_run [], fun _ hf => absurd hf List.not_mem_nil,
      fun _ hd => absurd hd List.not_mem_nil⟩

/-- In every run in which no fragment is written under an id that the request has frozen, an
execution of the request leaves every row outside its closure and every active row as it was. -/
theorem execution_keeps_scope (ops : List Op) (namespaceId D : Identifier)
    (execution : LocalDeletionExecution) (faulty : DeletionComponentType → Bool)
    (breaksAfter : Option Nat) (hfresh : Along (FreshFragmentIds D) .empty ops) :
    ScopeKept (runOps .empty ops) (Op.apply (runOps .empty ops)
        (.executeDeletion namespaceId D execution faulty breaksAfter)) D ∧
      ActiveRowsKept (runOps .empty ops) (Op.apply (runOps .empty ops)
        (.executeDeletion namespaceId D execution faulty breaksAfter)) := by
  obtain ⟨hlibrary, howned⟩ := closureOwned_of_run hfresh
  have hscope : WithinScope (runOps .empty ops) D (Op.apply (runOps .empty ops)
      (.executeDeletion namespaceId D execution faulty breaksAfter)) :=
    Op.preserves (fun _ _ _ h hwithin happlies => h.step rfl hwithin happlies)
      hlibrary.library.constraints.resultAttempts
      ⟨hlibrary, howned, rfl, rfl, ScopeKept.refl D⟩
  exact ⟨hscope.kept, hscope.kept.activeRows hlibrary.library⟩

end Library

section Run

open Sample

/-- The first file is deleted, and the fragment of the next file takes the id of its fragment. -/
def firstReused : List Op :=
  firstRequested ++ [executeFirst, captureReusing]

/-- Executing the first deletion again removes the active fragment of the other file. -/
theorem reused_fragment_is_removed :
    ∃ ops namespaceId D execution faulty breaksAfter,
      ¬ ScopeKept (runOps .empty ops) (Op.apply (runOps .empty ops)
        (.executeDeletion namespaceId D execution faulty breaksAfter)) D ∧
      ¬ ActiveRowsKept (runOps .empty ops) (Op.apply (runOps .empty ops)
        (.executeDeletion namespaceId D execution faulty breaksAfter)) := by
  refine ⟨firstReused, namespaceId, identifier "delete-1", execution, fun _ => false, none, ?_⟩
  rw [← executeFirst]
  have hevaluated : ((runOps .empty firstReused).fragments.any fun f =>
        f.governance.deletionState == .active &&
          notFrozen (runOps .empty firstReused) (identifier "delete-1") .sourceMetadata
            FragmentRow.sourceId f) = true ∧
      (Op.apply (runOps .empty firstReused) executeFirst).fragments.isEmpty = true := by
    decide +kernel
  obtain ⟨hbefore, hafter⟩ := hevaluated
  obtain ⟨f, hf, hactive⟩ := List.any_eq_true.1 hbefore
  rw [Bool.and_eq_true, beq_iff_eq] at hactive
  rw [List.isEmpty_iff] at hafter
  constructor
  · intro hkept
    have hmem : f ∈ (Op.apply (runOps .empty firstReused) executeFirst).fragments.filter
        (notFrozen (runOps .empty firstReused) (identifier "delete-1") .sourceMetadata
          FragmentRow.sourceId) := by
      rw [hkept.fragments]
      exact List.mem_filter.2 ⟨hf, hactive.2⟩
    rw [hafter] at hmem
    cases hmem
  · intro hkept
    have hmem : f ∈ (Op.apply (runOps .empty firstReused) executeFirst).fragments :=
      hkept.fragments f hf hactive.1
    rw [hafter] at hmem
    cases hmem

/-- The first deletion is executed again after another file was captured. -/
theorem execution_keeps_scope_of_two_files :
    ScopeKept (runOps .empty (firstRequested ++ [executeFirst, captureSecond]))
        (Op.apply (runOps .empty (firstRequested ++ [executeFirst, captureSecond])) executeFirst)
        (identifier "delete-1") ∧
      ActiveRowsKept (runOps .empty (firstRequested ++ [executeFirst, captureSecond]))
        (Op.apply (runOps .empty (firstRequested ++ [executeFirst, captureSecond]))
          executeFirst) :=
  execution_keeps_scope (firstRequested ++ [executeFirst, captureSecond]) namespaceId
    (identifier "delete-1") execution (fun _ => false) none (by decide +kernel)

end Run

end RadishMemory
