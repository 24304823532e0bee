import RadishMemory.Properties.Residue

/-!
# Retries converge

`purgedTables` are the tables in which everything a request asks for has been done, computed
from any state of its execution.  No component changes them, whether it is the first attempt or
a later one, and an attempt in which every component succeeds leaves exactly these tables.  So
the tables after such an attempt do not depend on the attempts before it
(`deletion_retries_converge`).
-/

namespace RadishMemory

section Library

variable [Platform] {db db' : Database}

/-! ## Everything done -/

/-- A frozen row after its redaction and with its final state. -/
def ClosedTable.purge {α : Type} (T : ClosedTable α) (row : α) : α :=
  T.setState .deleted (T.redact row)

/-- The tables with every component of the request carried out. -/
def purgedTables (db : Database) (namespaceId D : Identifier) : DataTables :=
  { db.toDataTables with
    bodies := db.bodies.filter (notFrozen db D .sourceBody BodyRow.sourceId)
    sources := db.sources.map
      (onFrozen db D .sourceMetadata SourceRow.sourceId sourceTable.purge)
    headings := db.headings.filter (notFrozen db D .sourceFragment Child.owner)
    fragments := db.fragments.filter (notFrozen db D .sourceFragment FragmentRow.fragmentId)
    proposalFragments := db.proposalFragments.filter (notFrozen db D .memoryProposal Child.owner)
    proposals := db.proposals.map
      (onFrozen db D .memoryProposal ProposalRow.proposalId proposalTable.purge)
    decisions := db.decisions.map
      (onFrozen db D .memoryDecision MemoryDecisionParams.decisionId DecisionRow.clearReason)
    recordFragments := db.recordFragments.filter (notFrozen db D .memoryRecord Child.owner)
    records := db.records.map
      (onFrozen db D .memoryRecord RecordRow.memoryId recordTable.purge)
    captureAudit := db.captureAudit.filter (auditStays db namespaceId D)
    bindings := db.bindings.filter (bindingStays db namespaceId D) }

/-- How redaction and the states of a table go together. -/
structure ClosedTable.Lawful {α : Type} (T : ClosedTable α) : Prop where
  setState_setState : ∀ a b row, T.setState a (T.setState b row) = T.setState a row
  redact_redact : ∀ row, T.redact (T.redact row) = T.redact row
  redact_setState : ∀ a row, T.redact (T.setState a row) = T.setState a (T.redact row)

theorem sourceTable_lawful : sourceTable.Lawful :=
  ⟨fun _ _ _ => rfl, fun _ => rfl, fun _ _ => rfl⟩

theorem proposalTable_lawful : proposalTable.Lawful :=
  ⟨fun _ _ _ => rfl, fun _ => rfl, fun _ _ => rfl⟩

theorem recordTable_lawful : recordTable.Lawful :=
  ⟨fun _ _ _ => rfl, fun _ => rfl, fun _ _ => rfl⟩

/-! ## A component takes nothing away from what is left to do -/

namespace ClosedTable

variable {α : Type} {T : ClosedTable α}

theorem Lawful.purge_redact (h : T.Lawful) (row : α) : T.purge (T.redact row) = T.purge row := by
  rw [purge, purge, h.redact_redact]

theorem Lawful.purge_setState (h : T.Lawful) (a : DeletionState) (row : α) :
    T.purge (T.setState a row) = T.purge row := by
  rw [purge, purge, h.redact_setState, h.setState_setState]

/-- A component of the request only does part of the purge. -/
theorem Lawful.purge_on (h : T.Lawful) {executed : DeleteRequest} {n : Nat}
    {componentType : DeletionComponentType} (row : α) :
    onFrozen db executed.params.deleteRequestId T.component T.id T.purge
        (T.on db (.component executed n componentType) row) =
      onFrozen db executed.params.deleteRequestId T.component T.id T.purge row := by
  by_cases hfrozen : Frozen db executed.params.deleteRequestId T.component (T.id row)
  · have hon : Frozen db executed.params.deleteRequestId T.component
        (T.id (T.on db (.component executed n componentType) row)) := by
      rw [T.on_id]
      exact hfrozen
    rw [onFrozen, onFrozen, if_pos hon, if_pos hfrozen]
    unfold on
    dsimp only
    rw [if_pos hfrozen]
    by_cases hredacts : componentType = T.component
    · rw [if_pos hredacts]
      exact h.purge_redact row
    · rw [if_neg hredacts]
      by_cases hlast : componentType = .minimalAudit
      · rw [if_pos hlast]
        exact h.purge_setState _ row
      · rw [if_neg hlast]
  · rw [T.on_component_of_not_frozen hfrozen]

/-- The purged table is the same before and after a component. -/
theorem Lawful.purge_rows (h : T.Lawful) (hT : T.Sound) (hc : Constraints db)
    {executed : DeleteRequest} {n : Nat} {componentType : DeletionComponentType}
    (happlies : (Change.component executed n componentType).Applies db db') :
    (T.rows db'.toDataTables).map
        (onFrozen db executed.params.deleteRequestId T.component T.id T.purge) =
      (T.rows db.toDataTables).map
        (onFrozen db executed.params.deleteRequestId T.component T.id T.purge) := by
  rw [happlies.tables hc, hT.derived, hT.effect, T.added_component, List.append_nil, List.map_map]
  exact List.map_congr_left fun row _ => h.purge_on row

/-- A table in which every frozen row is redacted and `deleted` is purged. -/
theorem purged_of_redacted {Redacted : α → Prop}
    (hredact : ∀ row, Redacted row → T.redact row = row)
    (hstate : ∀ row, T.setState (T.state row) row = row) {D : Identifier}
    (hall : T.AllRedacted Redacted db D) (hdeleted : T.AllHave db D .deleted) :
    (T.rows db.toDataTables).map (onFrozen db D T.component T.id T.purge) =
      T.rows db.toDataTables := by
  conv => rhs; rw [← List.map_id (T.rows db.toDataTables)]
  refine List.map_congr_left fun row hrow => ?_
  by_cases hfrozen : Frozen db D T.component (T.id row)
  · rw [onFrozen, if_pos hfrozen, purge, hredact row (hall row hrow hfrozen),
      ← hdeleted row hrow hfrozen]
    exact hstate row
  · rw [onFrozen, if_neg hfrozen]
    rfl

end ClosedTable

section Congruence

omit [Platform]

theorem onFrozen_congr {α : Type} (h : db'.executionClosure = db.executionClosure)
    (D : Identifier) (componentType : DeletionComponentType) (id : α → Identifier) (f : α → α) :
    onFrozen db' D componentType id f = onFrozen db D componentType id f := by
  funext row
  have hiff : Frozen db' D componentType (id row) ↔ Frozen db D componentType (id row) := by
    rw [Frozen, h]
    rfl
  rw [onFrozen, onFrozen]
  simp only [hiff]

theorem Purged.congr (hclosure : db'.executionClosure = db.executionClosure)
    (hplaces : db'.sources.map SourceRow.place = db.sources.map SourceRow.place)
    (namespaceId D lineageId : Identifier) :
    Purged db' namespaceId D lineageId ↔ Purged db namespaceId D lineageId := by
  have hany : ∀ a : Database, Purged a namespaceId D lineageId ↔
      ∃ place ∈ a.sources.map SourceRow.place, (place.2.1 = namespaceId ∧
        place.2.2 = lineageId) ∧ ∃ c ∈ a.executionClosure, c.owner = (D, .minimalAudit) ∧
        c.value = ⟨.sourceArtifact, place.1⟩ := by
    intro a
    simp only [List.mem_map, exists_exists_and_eq_and]
    rfl
  rw [hany, hany, hplaces, hclosure]

theorem bindingStays_congr (hclosure : db'.executionClosure = db.executionClosure)
    (hplaces : db'.sources.map SourceRow.place = db.sources.map SourceRow.place)
    (namespaceId D : Identifier) :
    bindingStays db' namespaceId D = bindingStays db namespaceId D := by
  funext row
  have hiff := Purged.congr hclosure hplaces namespaceId D row.lineageId
  rw [bindingStays, bindingStays]
  simp only [hiff]

/-- The audit rows that go, by the places of the sources and by the bindings. -/
theorem auditStays_eq_true_iff {namespaceId D : Identifier} {row : AuditRow} :
    auditStays db namespaceId D row = true ↔
      (row.namespaceId = namespaceId → ∀ place ∈ db.sources.map SourceRow.place,
        place.1 = row.sourceId → place.2.1 = namespaceId → ¬ Purged db namespaceId D place.2.2) ∧
      ∀ b ∈ db.bindings, b.namespaceId = row.namespaceId →
        b.originBindingId = row.originBindingId → bindingStays db namespaceId D b = true := by
  simp only [auditStays, Bool.not_eq_true', Bool.or_eq_false_iff, Bool.and_eq_false_imp,
    beq_iff_eq, List.any_eq_false, Bool.and_eq_true, decide_eq_true_eq, List.forall_mem_map,
    SourceRow.place, not_and, and_imp]
  refine and_congr Iff.rfl (forall₂_congr fun b _ => ?_)
  constructor
  · intro h hns hid
    by_contra hgone
    exact h (Bool.not_eq_true _ ▸ hgone) hns hid
  · intro h hgone hns hid
    rw [h hns hid] at hgone
    cases hgone

/-- With fewer bindings fewer audit rows go. -/
theorem auditStays_mono (hclosure : db'.executionClosure = db.executionClosure)
    (hplaces : db'.sources.map SourceRow.place = db.sources.map SourceRow.place)
    (hbindings : ∀ b ∈ db'.bindings, b ∈ db.bindings) {namespaceId D : Identifier} {row : AuditRow}
    (h : auditStays db namespaceId D row = true) : auditStays db' namespaceId D row = true := by
  rw [auditStays_eq_true_iff] at h ⊢
  rw [hplaces, bindingStays_congr hclosure hplaces]
  simp only [Purged.congr hclosure hplaces]
  exact ⟨h.1, fun b hb => h.2 b (hbindings b hb)⟩

theorem auditStays_congr (hclosure : db'.executionClosure = db.executionClosure)
    (hplaces : db'.sources.map SourceRow.place = db.sources.map SourceRow.place)
    (hbindings : db'.bindings = db.bindings) (namespaceId D : Identifier) :
    auditStays db' namespaceId D = auditStays db namespaceId D := by
  funext row
  rw [Bool.eq_iff_iff]
  constructor
  · exact auditStays_mono hclosure.symm hplaces.symm fun b hb => by rwa [hbindings]
  · exact auditStays_mono hclosure hplaces fun b hb => by rwa [hbindings] at hb

end Congruence

attribute [ext] DataTables

/-- Nothing of the closure is in the full-text table once the request is stored. -/
theorem Executing.recallFts_component {request : DeleteRequest} {closure : ExecutionClosure}
    (h : Executing db request.params.deleteRequestId fun _ => False)
    (hplan : StoredPlan db request closure) {n : Nat} {componentType : DeletionComponentType}
    (happlies : (Change.component request n componentType).Applies db db') :
    db'.recallFts = db.recallFts := by
  obtain ⟨planned, result, acted, hdone⟩ := happlies
  obtain ⟨-, -, -, rfl⟩ := Database.insertResult_eq_ok_iff.1 hdone.result
  change acted.recallFts = db.recallFts
  rw [hdone.effect.recallFts hplan]
  by_cases hindex : componentType = .fullTextIndex
  · rw [if_pos hindex]
    refine List.filter_eq_self.2 fun row hrow => ?_
    rw [Bool.not_eq_true', ← Bool.not_eq_true]
    intro hclosed
    obtain ⟨⟨kind, id⟩, namespaceId, sensitivity, content⟩ := row
    cases kind with
    | sourceFragment =>
      have hfrozen : Frozen db request.params.deleteRequestId .sourceFragment id := by
        rw [hplan.frozen_iff, ExecutionClosure.refs, mem_refSet_ids]
        simpa [recallIsClosed] using hclosed
      exact (h.unwritten id hfrozen not_false).recalled _ hrow rfl
    | memoryRecord =>
      have hfrozen : Frozen db request.params.deleteRequestId .memoryRecord id := by
        rw [hplan.frozen_iff, ExecutionClosure.refs, mem_refSet_ids]
        simpa [recallIsClosed] using hclosed
      exact h.library.recalledRecords _ hrow rfl _ hfrozen
  · rw [if_neg hindex]

section Component

variable {request : DeleteRequest} {closure : ExecutionClosure} {n : Nat}
  {componentType : DeletionComponentType} (h : PlannedLibrary db)
  (happlies : (Change.component request n componentType).Applies db db')

include happlies

theorem component_executionClosure : db'.executionClosure = db.executionClosure := by
  rcases happlies.plans with ⟨new, closure, heq⟩ | hsame
  · cases heq
  · exact hsame.executionClosure

include h

theorem component_places :
    db'.sources.map SourceRow.place = db.sources.map SourceRow.place :=
  sourceTable_sound.component_ids h.library.constraints happlies SourceRow.place
    sourceTable_on_place

theorem purged_bodies :
    db'.bodies.filter (notFrozen db request.params.deleteRequestId .sourceBody BodyRow.sourceId) =
      db.bodies.filter (notFrozen db request.params.deleteRequestId .sourceBody
        BodyRow.sourceId) := by
  rw [happlies.bodies h.library.constraints,
    show (Change.component request n componentType).newBodies = [] from rfl, List.append_nil]
  refine filter_removed fun row _ hstays => ?_
  cases componentType with
  | sourceBody => exact hstays
  | _ => rfl

theorem purged_fragments :
    db'.fragments.filter (notFrozen db request.params.deleteRequestId .sourceFragment
        FragmentRow.fragmentId) =
      db.fragments.filter (notFrozen db request.params.deleteRequestId .sourceFragment
        FragmentRow.fragmentId) := by
  rw [happlies.fragments h.library.constraints,
    show (Change.component request n componentType).newFragments = [] from rfl, List.append_nil,
    show (Change.component request n componentType).onFragment = id from rfl, List.map_id]
  refine filter_removed fun row _ hstays => ?_
  cases componentType with
  | sourceFragment => exact hstays
  | _ => rfl

theorem purged_headings :
    db'.headings.filter (notFrozen db request.params.deleteRequestId .sourceFragment
        Child.owner) =
      db.headings.filter (notFrozen db request.params.deleteRequestId .sourceFragment
        Child.owner) := by
  rw [happlies.headings h.library.constraints,
    show (Change.component request n componentType).newHeadings = [] from rfl, List.append_nil]
  refine filter_removed fun row _ hstays => ?_
  cases componentType with
  | sourceFragment => exact hstays
  | _ => rfl

theorem purged_decisions :
    db'.decisions.map (onFrozen db request.params.deleteRequestId .memoryDecision
        MemoryDecisionParams.decisionId DecisionRow.clearReason) =
      db.decisions.map (onFrozen db request.params.deleteRequestId .memoryDecision
        MemoryDecisionParams.decisionId DecisionRow.clearReason) := by
  rw [happlies.decisions h.library.constraints,
    show (Change.component request n componentType).newDecisions = [] from rfl, List.append_nil,
    List.map_map]
  refine List.map_congr_left fun row _ => ?_
  cases componentType with
  | memoryDecision =>
    change onFrozen db _ _ _ _ (onFrozen db _ _ _ _ row) = _
    by_cases hfrozen : Frozen db request.params.deleteRequestId .memoryDecision row.decisionId
    · rw [onFrozen, onFrozen, if_pos hfrozen]
      split <;> rfl
    · rw [onFrozen, onFrozen, if_neg hfrozen, if_neg hfrozen]
  | _ => rfl

theorem purged_bindings :
    db'.bindings.filter (bindingStays db request.params.namespaceId
        request.params.deleteRequestId) =
      db.bindings.filter (bindingStays db request.params.namespaceId
        request.params.deleteRequestId) := by
  rw [happlies.bindings h.library.constraints,
    show (Change.component request n componentType).newBindings = [] from rfl, List.append_nil]
  refine filter_removed fun row _ hstays => ?_
  cases componentType with
  | minimalAudit => exact hstays
  | _ => rfl

theorem purged_captureAudit :
    db'.captureAudit.filter (auditStays db' request.params.namespaceId
        request.params.deleteRequestId) =
      db.captureAudit.filter (auditStays db request.params.namespaceId
        request.params.deleteRequestId) := by
  have hc := h.library.constraints
  have hclosure := component_executionClosure happlies
  have hplaces := component_places h happlies
  rw [happlies.captureAudit hc,
    show (Change.component request n componentType).newCaptureAudit = [] from rfl, List.append_nil]
  by_cases hlast : componentType = .minimalAudit
  · subst hlast
    have hbindings : ∀ b ∈ db'.bindings, b ∈ db.bindings := by
      intro b hb
      rcases (happlies.mem_bindings hc).1 hb with ⟨hold, -⟩ | hnew
      · exact hold
      · cases hnew
    change (db.captureAudit.filter (auditStays db _ _)).filter _ = _
    refine List.filter_eq_self.2 fun row hrow => ?_
    exact auditStays_mono hclosure hplaces hbindings (List.mem_filter.1 hrow).2
  · have hbindings : db'.bindings = db.bindings := by
      rw [happlies.bindings hc]
      cases componentType with
      | minimalAudit => exact absurd rfl hlast
      | _ => simp [Change.keepsBinding, Change.newBindings]
    rw [auditStays_congr hclosure hplaces hbindings]
    refine filter_removed fun row _ hstays => ?_
    cases componentType with
    | minimalAudit => exact absurd rfl hlast
    | _ => rfl

end Component

/-- What is left to do after a component is what was left to do before it. -/
theorem Executing.purgedTables_component {request : DeleteRequest} {closure : ExecutionClosure}
    (h : Executing db request.params.deleteRequestId fun _ => False)
    (hplan : StoredPlan db request closure) {n : Nat} {componentType : DeletionComponentType}
    (happlies : (Change.component request n componentType).Applies db db') :
    purgedTables db' request.params.namespaceId request.params.deleteRequestId =
      purgedTables db request.params.namespaceId request.params.deleteRequestId := by
  have hlibrary := h.toPlannedLibrary
  have hc := h.library.constraints
  have hclosure := component_executionClosure happlies
  have hrelations := component_relations hlibrary happlies
  obtain ⟨htips, hprojection⟩ : db'.tips = db.tips ∧ db'.projection = db.projection := by
    obtain ⟨planned, result, acted, hdone⟩ := id happlies
    obtain ⟨-, -, -, hresult⟩ := Database.insertResult_eq_ok_iff.1 hdone.result
    rw [hresult]
    exact hdone.effect.derived
  ext1 <;> dsimp only [purgedTables] <;> try rw [onFrozen_congr hclosure]
  case sources => exact sourceTable_lawful.purge_rows sourceTable_sound hc happlies
  case proposals => exact proposalTable_lawful.purge_rows proposalTable_sound hc happlies
  case records => exact recordTable_lawful.purge_rows recordTable_sound hc happlies
  case decisions => exact purged_decisions hlibrary happlies
  case bodies => rw [notFrozen_congr hclosure]; exact purged_bodies hlibrary happlies
  case fragments => rw [notFrozen_congr hclosure]; exact purged_fragments hlibrary happlies
  case headings => rw [notFrozen_congr hclosure]; exact purged_headings hlibrary happlies
  case proposalFragments =>
    rw [notFrozen_congr hclosure]
    exact (component_links hlibrary happlies).1
  case recordFragments =>
    rw [notFrozen_congr hclosure]
    exact (component_links hlibrary happlies).2
  case bindings =>
    rw [bindingStays_congr hclosure (component_places hlibrary happlies)]
    exact purged_bindings hlibrary happlies
  case captureAudit => exact purged_captureAudit hlibrary happlies
  case tips => exact htips
  case projection => exact hprojection
  case recallFts => exact h.recallFts_component hplan happlies
  case sourceSupersedes => exact hrelations.1
  case proposalTargets => exact hrelations.2.1
  case recordSupersedes => exact hrelations.2.2.1
  case recordContradicts => exact hrelations.2.2.2.1
  case events => exact hrelations.2.2.2.2.1
  case eventRelated => exact hrelations.2.2.2.2.2

/-! ## A successful attempt leaves nothing to do -/

omit [Platform] in
theorem SourceRow.redact_eq_self {row : SourceRow} (h : row.IsRedacted) : row.redact = row := by
  obtain ⟨htitle, horigin⟩ := h
  cases row
  dsimp only at htitle horigin
  subst htitle horigin
  rfl

theorem redactContent_eq_self {content : MemoryValueParams} (h : contentIsRedacted content) :
    redactContent content = content := by
  obtain ⟨text, profile, value⟩ := content
  obtain ⟨htext, hvalue⟩ := h
  dsimp only at htext hvalue
  rw [htext, hvalue]
  rfl

theorem Executing.toDataTables_eq {request : DeleteRequest} {closure : ExecutionClosure}
    (h : Executing db request.params.deleteRequestId fun _ => False)
    (hplan : StoredPlan db request closure) {n : Nat}
    (hall : ∀ componentType, Succeeded db request.params.deleteRequestId n componentType)
    (hdeleted : ClosedAs db request.params.deleteRequestId .deleted) :
    purgedTables db request.params.namespaceId request.params.deleteRequestId =
      db.toDataTables := by
  have hfree := fun componentType => h.free n componentType (hall componentType)
  ext1 <;> dsimp only [purgedTables]
  case sources =>
    refine ClosedTable.purged_of_redacted (T := sourceTable) (fun row hrow => ?_) (fun _ => rfl)
      (hfree .sourceMetadata) hdeleted.sources
    exact SourceRow.redact_eq_self hrow
  case proposals =>
    refine ClosedTable.purged_of_redacted (T := proposalTable) (fun row hrow => ?_) (fun _ => rfl)
      (hfree .memoryProposal).1 hdeleted.proposals
    change ProposalRow.redact row = row
    rw [ProposalRow.redact, redactContent_eq_self hrow]
  case records =>
    refine ClosedTable.purged_of_redacted (T := recordTable) (fun row hrow => ?_) (fun _ => rfl)
      (hfree .memoryRecord).1 hdeleted.records
    change RecordRow.redact row = row
    rw [RecordRow.redact, redactContent_eq_self hrow]
  case decisions =>
    conv => rhs; rw [← List.map_id db.decisions]
    refine List.map_congr_left fun row hrow => ?_
    by_cases hfrozen : Frozen db request.params.deleteRequestId .memoryDecision row.decisionId
    · rw [onFrozen, if_pos hfrozen, DecisionRow.clearReason, ← hfree .memoryDecision row hrow hfrozen]
      rfl
    · rw [onFrozen, if_neg hfrozen]
      rfl
  case bodies =>
    refine List.filter_eq_self.2 fun row hrow => notFrozen_iff.2 ?_
    rw [hplan.frozen_body_iff]
    exact hfree .sourceBody row hrow
  case fragments =>
    refine List.filter_eq_self.2 fun row hrow => notFrozen_iff.2 fun hfrozen => ?_
    exact hfree .sourceFragment row hrow hfrozen
      ((h.unwritten _ hfrozen not_false).fragments row hrow rfl)
  case headings =>
    refine List.filter_eq_self.2 fun row hrow => notFrozen_iff.2 fun hfrozen => ?_
    exact (h.unwritten _ hfrozen not_false).headings n (hall _) row hrow rfl
  case proposalFragments =>
    exact List.filter_eq_self.2 fun row hrow => notFrozen_iff.2 ((hfree .memoryProposal).2 row hrow)
  case recordFragments =>
    exact List.filter_eq_self.2 fun row hrow => notFrozen_iff.2 ((hfree .memoryRecord).2 row hrow)
  case bindings =>
    refine List.filter_eq_self.2 fun row hrow => ?_
    rw [bindingStays, Bool.not_eq_true', Bool.and_eq_false_imp, beq_iff_eq]
    intro hns
    rw [decide_eq_false_iff_not]
    intro hpurged
    obtain ⟨s, hs, hsns, hlineage, hfrozen⟩ := hplan.not_foreign_of_purged hpurged
    exact (hfree .minimalAudit s hs hfrozen).1 row hrow (hns.trans hsns.symm) hlineage.symm
  case captureAudit =>
    refine List.filter_eq_self.2 fun row hrow => ?_
    by_contra hgone
    rw [Bool.not_eq_true] at hgone
    have hfrozen := audit_frozen h.library hplan hrow hgone
    obtain ⟨s, hs, hid, -⟩ := h.library.audits row hrow
    rw [← hid] at hfrozen
    exact (hfree .minimalAudit s hs hfrozen).2 row hrow hid.symm

/-! ## Attempts -/

/-- An execution of the request is under way; what is left to do is what there was to do. -/
structure Retrying (stored : Database) (request : DeleteRequest) (db : Database) : Prop where
  executing : Executing db request.params.deleteRequestId fun _ => False
  planned : ∃ closure, StoredPlan db request closure
  purged : purgedTables db request.params.namespaceId request.params.deleteRequestId =
    purgedTables stored request.params.namespaceId request.params.deleteRequestId

theorem Retrying.step {stored : Database} {request : DeleteRequest} (h : Retrying stored request db)
    {op : Op} {start : Database} (hexecutes : op.executes = some request.params.deleteRequestId)
    {c : Change} (hwithin : c.Within op start db) (happlies : c.Applies db db') :
    Retrying stored request db' := by
  have hnone : op.executes ≠ none := by
    rw [hexecutes]
    exact Option.some_ne_none _
  have hfragments : op.fragments = [] := by
    cases op with
    | executeDeletion => rfl
    | _ => cases hexecutes
  obtain ⟨closure, hplan⟩ := h.planned
  have hexecuting := h.executing.step hwithin (by simp [hfragments]) happlies
  refine ⟨hexecuting, ⟨closure, hplan.step happlies⟩, ?_⟩
  rw [← h.purged]
  cases c with
  | attempt D =>
    obtain ⟨checkedAt, n, hopen⟩ := happlies
    obtain ⟨-, -, rfl⟩ := insertNextAttempt_eq_ok hopen
    rfl
  | failure executed n componentType =>
    obtain ⟨planned, result, hrecorded⟩ := happlies
    obtain ⟨-, -, -, rfl⟩ := Database.insertResult_eq_ok_iff.1 hrecorded.result
    rfl
  | component executed n componentType =>
    have hD : executed.params.deleteRequestId = request.params.deleteRequestId := by
      have hsame := hwithin.1
      rw [hexecutes, Option.some.injEq] at hsame
      exact hsame.symm
    -- The executed request is the stored one: it was loaded under the same id.
    obtain ⟨planned, result, acted, hdone⟩ := id happlies
    obtain ⟨-, -, hrow⟩ := loadRequest_eq_ok hdone.loaded
    have hloaded := hplan.loadRequest
    rw [hD, hplan.row, Option.some.injEq] at hrow
    have hns : request.params.namespaceId = executed.params.namespaceId :=
      congrArg RequestRow.namespaceId hrow
    rw [← hD, hns, hdone.loaded, Except.ok.injEq, Option.some.injEq] at hloaded
    subst hloaded
    exact h.executing.purgedTables_component hplan happlies
  | fragments owner new => exact absurd hwithin.2.2 hnone
  | _ => exact absurd hwithin hnone

theorem Retrying.op {stored : Database} {request : DeleteRequest} (h : Retrying stored request db)
    {operation : Op} (hexecutes : operation.executes = some request.params.deleteRequestId) :
    Retrying stored request (operation.apply db) :=
  Op.preserves (fun _ _ _ hold hwithin happlies => hold.step hexecutes hwithin happlies)
    h.executing.library.constraints.resultAttempts h

/-- An attempt in which every component succeeds does everything that was left to do. -/
theorem Retrying.toDataTables_of_success {stored : Database} {request : DeleteRequest}
    (h : Retrying stored request db) {execution : LocalDeletionExecution}
    {faulty : DeletionComponentType → Bool} {results : List ComponentResult}
    (hrun : (executeDeletion request.params.namespaceId request.params.deleteRequestId execution
      faulty).run db = (.ok results, db'))
    (hall : ∀ result ∈ results, result.params.status = .succeeded) :
    db'.toDataTables =
      purgedTables stored request.params.namespaceId request.params.deleteRequestId := by
  have hafter : db' = Op.apply db (.executeDeletion request.params.namespaceId
      request.params.deleteRequestId execution faulty none) :=
    (congrArg Prod.snd hrun).symm
  have hretrying : Retrying stored request db' := by
    rw [hafter]
    exact h.op rfl
  have hexecuted := executeDeletion_run h.executing.library.constraints.resultAttempts hrun
  obtain ⟨loaded, n, hload, hlatest, hresults⟩ := hexecuted.results results rfl
  obtain ⟨closure, hplan⟩ := hretrying.planned
  rw [hplan.loadRequest, Except.ok.injEq, Option.some.injEq] at hload
  subst hload
  have hsucceeded := hplan.allSucceeded hresults hall
  have hc := hretrying.executing.library.constraints
  have hlast : ∀ m, Succeeded db' request.params.deleteRequestId m .minimalAudit → m ≤ n := by
    intro m hm
    obtain ⟨a, ha, hD, rfl⟩ := hm.attempt hc
    exact (latestAttempt_eq_some hlatest).2 a ha hD
  have hdeleted : ClosedAs db' request.params.deleteRequestId .deleted :=
    hretrying.executing.final _ n (hplan.succeeded hsucceeded .minimalAudit)
      (hsucceeded.not_failedIn hc) hlast
  rw [← hretrying.executing.toDataTables_eq hplan (hplan.succeeded hsucceeded) hdeleted,
    hretrying.purged]

/-- However the attempts before it ended, an attempt in which every component succeeds leaves the
tables that a single such attempt leaves. -/
theorem deletion_retries_converge (before : List Op) (request : DeleteRequest) (stored : Database)
    (hstored : storeDeleteRequest (runOps .empty before) request = .ok stored)
    (retries : List Op)
    (hretries : ∀ op ∈ retries, op.executes = some request.params.deleteRequestId)
    (execution execution' : LocalDeletionExecution) (faulty faulty' : DeletionComponentType → Bool)
    (results results' : List ComponentResult) (retried once : Database)
    (hretried : (executeDeletion request.params.namespaceId request.params.deleteRequestId
      execution faulty).run (runOps stored retries) = (.ok results, retried))
    (hall : ∀ result ∈ results, result.params.status = .succeeded)
    (honce : (executeDeletion request.params.namespaceId request.params.deleteRequestId
      execution' faulty').run stored = (.ok results', once))
    (hall' : ∀ result ∈ results', result.params.status = .succeeded) :
    retried.toDataTables = once.toDataTables := by
  obtain ⟨closure, hclosed⟩ := storeDeleteRequest_eq_ok hstored
  have hlibrary := executedLibrary_of_run before
  have hstart : Retrying stored request stored :=
    ⟨.of_stored hlibrary hstored _, ⟨closure, hclosed.plan hlibrary.library.constraints⟩,
      rfl⟩
  have halong : Along (fun _ op => op.executes = some request.params.deleteRequestId) stored
      retries := Along.of_forall (fun op hop _ => hretries op hop) stored
  have hretrying : Retrying stored request (runOps stored retries) :=
    runOps_preserves (fun _ _ hP hexecutes => hP.op hexecutes) hstart halong
  rw [hretrying.toDataTables_of_success hretried hall, hstart.toDataTables_of_success honce hall']

end Library

section Run

open Sample

/-- The request is stored, an execution without the body and two complete ones, evaluated. -/
theorem firstRetried_evaluated :
    (storeDeleteRequest (runOps .empty [captureFirst]) deleteFirst).toOption.isSome = true ∧
      ((((executeDeletion namespaceId (identifier "delete-1") execution fun _ => false).run
        (runOps (runOps .empty ([captureFirst] ++ [.storeDeleteRequest deleteFirst]))
          [executeFirstWithoutBody])).1.toOption.any fun results =>
            results.all (·.params.status == .succeeded)) = true) ∧
      (((executeDeletion namespaceId (identifier "delete-1") execution fun _ => false).run
        (runOps .empty ([captureFirst] ++ [.storeDeleteRequest deleteFirst]))).1.toOption.any
          fun results => results.all (·.params.status == .succeeded)) = true := by
  decide +kernel

/-- The results of a run that succeeded. -/
theorem results_of_evaluated [Platform] {db : Database} {p : Call (List ComponentResult)}
    (h : ((p.run db).1.toOption.any fun results =>
      results.all (·.params.status == .succeeded)) = true) :
    ∃ results, p.run db = (.ok results, (p.run db).2) ∧
      ∀ result ∈ results, result.params.status = .succeeded := by
  generalize p.run db = outcome at h ⊢
  obtain ⟨result, after⟩ := outcome
  cases result with
  | error e => cases h
  | ok results =>
    refine ⟨results, rfl, fun result hmem => ?_⟩
    have hall : results.all (·.params.status == .succeeded) = true := h
    simpa using List.all_eq_true.1 hall result hmem

/-- The deletion of the first file, with and without a failed attempt before it. -/
theorem deletion_retries_converge_of_one_file :
    ((executeDeletion namespaceId (identifier "delete-1") execution fun _ => false).run
        (runOps (runOps .empty ([captureFirst] ++ [.storeDeleteRequest deleteFirst]))
          [executeFirstWithoutBody])).2.toDataTables =
      ((executeDeletion namespaceId (identifier "delete-1") execution fun _ => false).run
        (runOps .empty ([captureFirst] ++ [.storeDeleteRequest deleteFirst]))).2.toDataTables := by
  obtain ⟨hok, hretried, honce⟩ := firstRetried_evaluated
  obtain ⟨results, hrun, hall⟩ := results_of_evaluated hretried
  obtain ⟨results', hrun', hall'⟩ := results_of_evaluated honce
  exact deletion_retries_converge [captureFirst] deleteFirst _ (runOps_stored hok)
    [executeFirstWithoutBody] (fun op hop => by rw [List.mem_singleton.1 hop]; rfl) execution
    execution (fun _ => false) (fun _ => false) results results' _ _ hrun hall hrun' hall'

end Run

end RadishMemory
