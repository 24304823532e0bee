import RadishMemory.Properties.Plans

/-!
# What a change does to each table

`Change.tables` gives the canonical tables after a change as a function of the tables before it:
each table loses some rows, has some rewritten in place and gets some at its end.
`Change.Applies.tables` says that this is what every change does.  The three derived tables are
left to the invariants that are about them.
-/

namespace RadishMemory

variable [Platform] {db db' : Database}

/-! ## Components -/

section Components

omit [Platform]

instance Frozen.decidable (db : Database) (D : Identifier) (componentType : DeletionComponentType)
    (id : Identifier) : Decidable (Frozen db D componentType id) :=
  inferInstanceAs (Decidable (∃ c ∈ db.executionClosure, _ ∧ _))

/-- The lineage has a version among the sources that the last component purges. -/
def Purged (db : Database) (namespaceId D lineageId : Identifier) : Prop :=
  ∃ s ∈ db.sources, (s.namespaceId = namespaceId ∧ s.lineageId = lineageId) ∧
    ∃ c ∈ db.executionClosure, c.owner = (D, .minimalAudit) ∧
      c.value = ⟨.sourceArtifact, s.sourceId⟩

instance Purged.decidable (db : Database) (namespaceId D lineageId : Identifier) :
    Decidable (Purged db namespaceId D lineageId) :=
  inferInstanceAs (Decidable (∃ s ∈ db.sources, _ ∧ _))

/-- The state that the last component of an attempt gives to every closed object. -/
def finalState (db : Database) (D : Identifier) (attemptOrdinal : Nat) : DeletionState :=
  if failedIn db D attemptOrdinal then .failed else .deleted

/-- Rewrite a row when its id is frozen for the component. -/
def onFrozen {α : Type} (db : Database) (D : Identifier) (componentType : DeletionComponentType)
    (id : α → Identifier) (f : α → α) (row : α) : α :=
  if Frozen db D componentType (id row) then f row else row

/-- The row stays unless its id is frozen for the component. -/
def notFrozen {α : Type} (db : Database) (D : Identifier) (componentType : DeletionComponentType)
    (id : α → Identifier) (row : α) : Bool :=
  !decide (Frozen db D componentType (id row))

theorem updateWhere_frozen {α : Type} {D : Identifier} {componentType : DeletionComponentType}
    {ids : List Identifier} (h : IsFrozenList db D componentType ids) (id : α → Identifier)
    (f : α → α) (rows : List α) :
    updateWhere (fun row => ids.contains (id row)) f rows =
      rows.map (onFrozen db D componentType id f) := by
  refine List.map_congr_left fun row _ => ?_
  simp only [onFrozen, List.contains_iff_mem, h (id row)]

theorem deleteWhere_frozen {α : Type} {D : Identifier} {componentType : DeletionComponentType}
    {ids : List Identifier} (h : IsFrozenList db D componentType ids) (id : α → Identifier)
    (rows : List α) :
    deleteWhere (fun row => ids.contains (id row)) rows =
      rows.filter (notFrozen db D componentType id) := by
  refine List.filter_congr fun row _ => ?_
  rw [notFrozen, Bool.not_inj_iff, Bool.eq_iff_iff, List.contains_iff_mem, decide_eq_true_iff]
  exact h (id row)

/-- The binding goes with the lineages that the last component purges. -/
def bindingStays (db : Database) (namespaceId D : Identifier) (row : BindingRow) : Bool :=
  !(row.namespaceId == namespaceId && decide (Purged db namespaceId D row.lineageId))

/-- The audit row goes with its source or with its binding. -/
def auditStays (db : Database) (namespaceId D : Identifier) (row : AuditRow) : Bool :=
  !((row.namespaceId == namespaceId && db.sources.any fun source =>
      source.sourceId == row.sourceId && source.namespaceId == namespaceId &&
        decide (Purged db namespaceId D source.lineageId)) ||
    db.bindings.any fun binding => !bindingStays db namespaceId D binding &&
      binding.namespaceId == row.namespaceId && binding.originBindingId == row.originBindingId)

end Components

/-- The canonical tables after a component has acted. -/
def actedTables (db : Database) (namespaceId D : Identifier) (attemptOrdinal : Nat) :
    DeletionComponentType → DataTables
  | .sourceBody => { db.toDataTables with
      bodies := db.bodies.filter (notFrozen db D .sourceBody BodyRow.sourceId) }
  | .sourceMetadata => { db.toDataTables with
      sources := db.sources.map
        (onFrozen db D .sourceMetadata SourceRow.sourceId SourceRow.redact) }
  | .sourceFragment => { db.toDataTables with
      headings := db.headings.filter (notFrozen db D .sourceFragment Child.owner)
      fragments := db.fragments.filter
        (notFrozen db D .sourceFragment FragmentRow.fragmentId) }
  | .memoryProposal => { db.toDataTables with
      proposalFragments := db.proposalFragments.filter
        (notFrozen db D .memoryProposal Child.owner)
      proposals := db.proposals.map
        (onFrozen db D .memoryProposal ProposalRow.proposalId ProposalRow.redact) }
  | .memoryDecision => { db.toDataTables with
      decisions := db.decisions.map
        (onFrozen db D .memoryDecision MemoryDecisionParams.decisionId
          DecisionRow.clearReason) }
  | .memoryRecord => { db.toDataTables with
      recordFragments := db.recordFragments.filter (notFrozen db D .memoryRecord Child.owner)
      records := db.records.map
        (onFrozen db D .memoryRecord RecordRow.memoryId RecordRow.redact) }
  | .memoryStateEvent => db.toDataTables
  | .fullTextIndex => db.toDataTables
  | .contextCache => db.toDataTables
  | .minimalAudit => { db.toDataTables with
      captureAudit := db.captureAudit.filter (auditStays db namespaceId D)
      bindings := db.bindings.filter (bindingStays db namespaceId D)
      sources := db.sources.map (onFrozen db D .sourceMetadata SourceRow.sourceId
        (SourceRow.setState (finalState db D attemptOrdinal)))
      proposals := db.proposals.map (onFrozen db D .memoryProposal ProposalRow.proposalId
        (ProposalRow.setState (finalState db D attemptOrdinal)))
      records := db.records.map (onFrozen db D .memoryRecord RecordRow.memoryId
        (RecordRow.setState (finalState db D attemptOrdinal))) }

/-- The canonical tables of `tables` with the derived tables of `db`. -/
def DataTables.withDerivedOf (tables : DataTables) (db : Database) : DataTables :=
  { tables with tips := db.tips, projection := db.projection, recallFts := db.recallFts }

omit [Platform] in
/-- The lineages of the purged sources. -/
theorem mem_purgedLineages (hunique : UniqueBy SourceRow.sourceId db.sources)
    {namespaceId D : Identifier} {targets : List ObjectRef} {lineages : List Identifier}
    (htargets : loadExecutionClosure db D .minimalAudit = .ok targets)
    (hlineages : (idsOfType .sourceArtifact targets).mapM (sourceLineageOf db namespaceId) =
      .ok lineages) (lineageId : Identifier) :
    lineageId ∈ lineages ↔ Purged db namespaceId D lineageId := by
  have hone : ∀ id l, sourceLineageOf db namespaceId id = .ok l ↔
      ∃ s ∈ db.sources, s.sourceId = id ∧ s.namespaceId = namespaceId ∧ s.lineageId = l := by
    intro id l
    simp only [sourceLineageOf, Except.bind_eq_ok_iff, Option.orError_eq_ok_iff,
      Except.pure_eq_ok_iff, Option.filter_eq_some_iff, beq_iff_eq,
      lookup_eq_some_iff hunique]
    constructor
    · rintro ⟨s, ⟨⟨hs, hid⟩, hns⟩, rfl⟩
      exact ⟨s, hs, hid, hns, rfl⟩
    · rintro ⟨s, hs, hid, hns, rfl⟩
      exact ⟨s, ⟨⟨hs, hid⟩, hns⟩, rfl⟩
  have htarget : ∀ id, id ∈ idsOfType .sourceArtifact targets ↔
      ∃ c ∈ db.executionClosure, c.owner = (D, .minimalAudit) ∧
        c.value = ⟨.sourceArtifact, id⟩ := by
    intro id
    rw [mem_idsOfType, mem_of_loadChildren htargets]
  rw [List.mapM_eq_ok_iff] at hlineages
  constructor
  · intro hmem
    obtain ⟨id, hid, hl⟩ := List.Forall₂.exists_of_mem_right hlineages hmem
    obtain ⟨s, hs, rfl, hns, hlineage⟩ := (hone _ _).1 hl
    exact ⟨s, hs, ⟨hns, hlineage⟩, (htarget _).1 hid⟩
  · rintro ⟨s, hs, ⟨hns, hlineage⟩, hfrozen⟩
    obtain ⟨l, hl, hsl⟩ :=
      List.Forall₂.exists_of_mem_left hlineages ((htarget s.sourceId).2 hfrozen)
    obtain ⟨t, ht, hid, -, rfl⟩ := (hone _ _).1 hsl
    rw [← hlineage, ← hunique.eq_of_mem ht hs hid]
    exact hl

theorem ActionEffect.tables (hunique : UniqueBy SourceRow.sourceId db.sources)
    {namespaceId D : Identifier} {attemptOrdinal : Nat} {componentType : DeletionComponentType}
    (h : ActionEffect db db' namespaceId D (failedIn db D attemptOrdinal) componentType) :
    db'.toDataTables =
      (actedTables db namespaceId D attemptOrdinal componentType).withDerivedOf db' := by
  cases componentType with
  | sourceBody =>
    obtain ⟨ids, hids, rfl⟩ := h
    rw [deleteWhere_frozen hids]
    rfl
  | sourceMetadata =>
    obtain ⟨ids, hids, rfl⟩ := h
    rw [updateWhere_frozen hids]
    rfl
  | sourceFragment =>
    obtain ⟨ids, hids, -, rfl⟩ := h
    rw [deleteWhere_frozen hids, deleteWhere_frozen hids]
    rfl
  | memoryProposal =>
    obtain ⟨ids, hids, rfl⟩ := h
    rw [deleteWhere_frozen hids, updateWhere_frozen hids]
    rfl
  | memoryDecision =>
    obtain ⟨ids, hids, rfl⟩ := h
    rw [updateWhere_frozen hids]
    rfl
  | memoryRecord =>
    obtain ⟨ids, hids, rfl⟩ := h
    rw [deleteWhere_frozen hids, updateWhere_frozen hids]
    rfl
  | memoryStateEvent =>
    rw [show db' = db from h]
    rfl
  | fullTextIndex =>
    obtain ⟨targets, keys, -, -, rfl⟩ := h
    rfl
  | contextCache =>
    rw [show db' = db from h]
    rfl
  | minimalAudit =>
    obtain ⟨targets, lineages, sources, proposals, records, htargets, hlineages, -, hsources,
      hproposals, hrecords, rfl⟩ := h
    have hpurged := mem_purgedLineages hunique htargets hlineages
    have hcontains : ∀ l, lineages.contains l = decide (Purged db namespaceId D l) := by
      intro l
      rw [Bool.eq_iff_iff, List.contains_iff_mem, decide_eq_true_iff]
      exact hpurged l
    have hbinding : ∀ b, bindingIsPurged namespaceId lineages b =
        !bindingStays db namespaceId D b := by
      intro b
      rw [bindingIsPurged, bindingStays, Bool.not_not, hcontains]
    have hbindings : deleteWhere (bindingIsPurged namespaceId lineages) db.bindings =
        db.bindings.filter (bindingStays db namespaceId D) := by
      refine List.filter_congr fun b _ => ?_
      rw [hbinding, Bool.not_not]
    have haudits : deleteWhere (auditIsPurged db namespaceId lineages) db.captureAudit =
        db.captureAudit.filter (auditStays db namespaceId D) := by
      refine List.filter_congr fun a _ => ?_
      simp only [auditIsPurged, auditStays, hcontains, hbinding]
    rw [Database.finalize, Database.purgeLineages, updateWhere_frozen hsources,
      updateWhere_frozen hproposals, updateWhere_frozen hrecords, hbindings, haudits]
    rfl

/-- No action moves a tip or projects a record. -/
theorem ActionEffect.derived {namespaceId D : Identifier} {hasFailed : Bool}
    {componentType : DeletionComponentType}
    (h : ActionEffect db db' namespaceId D hasFailed componentType) :
    db'.tips = db.tips ∧ db'.projection = db.projection := by
  cases componentType with
  | sourceBody => obtain ⟨ids, -, rfl⟩ := h; exact ⟨rfl, rfl⟩
  | sourceMetadata => obtain ⟨ids, -, rfl⟩ := h; exact ⟨rfl, rfl⟩
  | sourceFragment => obtain ⟨ids, -, -, rfl⟩ := h; exact ⟨rfl, rfl⟩
  | memoryProposal => obtain ⟨ids, -, rfl⟩ := h; exact ⟨rfl, rfl⟩
  | memoryDecision => obtain ⟨ids, -, rfl⟩ := h; exact ⟨rfl, rfl⟩
  | memoryRecord => obtain ⟨ids, -, rfl⟩ := h; exact ⟨rfl, rfl⟩
  | memoryStateEvent => rw [show db' = db from h]; exact ⟨rfl, rfl⟩
  | fullTextIndex => obtain ⟨targets, keys, -, -, rfl⟩ := h; exact ⟨rfl, rfl⟩
  | contextCache => rw [show db' = db from h]; exact ⟨rfl, rfl⟩
  | minimalAudit =>
    obtain ⟨targets, lineages, sources, proposals, records, -, -, -, -, -, -, rfl⟩ := h
    exact ⟨rfl, rfl⟩

/-- The full-text rows after an action: one component removes those of the closure. -/
theorem ActionEffect.recallFts {namespaceId : Identifier} {request : DeleteRequest}
    {closure : ExecutionClosure} (hplan : StoredPlan db request closure) {hasFailed : Bool}
    {componentType : DeletionComponentType}
    (h : ActionEffect db db' namespaceId request.params.deleteRequestId hasFailed componentType) :
    db'.recallFts = if componentType = .fullTextIndex then
      deleteWhere (recallIsClosed closure) db.recallFts else db.recallFts := by
  cases componentType with
  | fullTextIndex =>
    obtain ⟨targets, keys, hload, hkeys, rfl⟩ := h
    rw [hplan.loadExecutionClosure, Except.ok.injEq] at hload
    subst hload
    rw [if_pos rfl]
    exact List.filter_congr fun row _ => congrArg (!·) (mapM_recallKeyOf_eq_ok hkeys row)
  | sourceBody => obtain ⟨ids, -, rfl⟩ := h; rfl
  | sourceMetadata => obtain ⟨ids, -, rfl⟩ := h; rfl
  | sourceFragment => obtain ⟨ids, -, -, rfl⟩ := h; rfl
  | memoryProposal => obtain ⟨ids, -, rfl⟩ := h; rfl
  | memoryDecision => obtain ⟨ids, -, rfl⟩ := h; rfl
  | memoryRecord => obtain ⟨ids, -, rfl⟩ := h; rfl
  | memoryStateEvent => rw [show db' = db from h]; rfl
  | contextCache => rw [show db' = db from h]; rfl
  | minimalAudit =>
    obtain ⟨targets, lineages, sources, proposals, records, -, -, -, -, -, -, rfl⟩ := h
    rfl

/-! ## Changes -/

/-- The canonical tables after a change. -/
def Change.tables (db : Database) : Change → DataTables
  | .source new => (db.addSource new).toDataTables
  | .binding row => { db.toDataTables with bindings := db.bindings ++ [row] }
  | .fragments owner new => (db.addFragments owner new).toDataTables
  | .audit row => { db.toDataTables with captureAudit := db.captureAudit ++ [row] }
  | .proposal new => (db.addProposal new).toDataTables
  | .decision new => (db.addDecision new).toDataTables
  | .memory record initialEvent supersededEvents =>
    (db.addMaterialized record initialEvent supersededEvents).toDataTables
  | .event new => (db.addEvents [new]).toDataTables
  | .derived => db.toDataTables
  | .request new closure => (db.closeRequest new closure).toDataTables
  | .attempt _ => db.toDataTables
  | .component executed attemptOrdinal componentType =>
    actedTables db executed.params.namespaceId executed.params.deleteRequestId attemptOrdinal
      componentType
  | .failure _ _ _ => db.toDataTables
  | .evidence _ _ => db.toDataTables

theorem Change.Applies.tables (hc : Constraints db) {c : Change} (h : c.Applies db db') :
    db'.toDataTables = (c.tables db).withDerivedOf db' := by
  cases c with
  | source new =>
    rcases h.tip with ⟨-, -, rfl⟩ | ⟨current, -, -, -, -, rfl⟩ <;> rfl
  | binding row =>
    obtain ⟨-, rfl⟩ := Database.insertBinding_eq_ok h.2
    rfl
  | fragments owner new =>
    obtain rfl := FragmentsAdded.result h
    rfl
  | audit row =>
    obtain rfl := AuditAdded.result h
    rfl
  | proposal new =>
    obtain ⟨-, rfl, -, -⟩ := storeMemoryProposal_eq_ok h
    rfl
  | decision new =>
    obtain ⟨-, -, -, -, -, -, rfl⟩ := storeMemoryDecision_eq_ok h
    rfl
  | memory record initialEvent supersededEvents =>
    obtain ⟨proposal, superseded, hm⟩ := materializeAcceptedMemory_eq_ok h
    rw [hm.derived.tables]
    rfl
  | event new =>
    obtain ⟨closure, projected, -, -, -, -, -, hderived⟩ := appendMemoryStateEvent_eq_ok h
    rw [hderived.tables]
    rfl
  | derived =>
    obtain ⟨tips, projection, recallFts, rfl, -⟩ := h
    rfl
  | request new closure =>
    obtain rfl := StoredRequest.result h
    rfl
  | attempt D =>
    obtain ⟨checkedAt, n, hopen⟩ := h
    obtain ⟨rfl, -, rfl⟩ := insertNextAttempt_eq_ok hopen
    rfl
  | component executed attemptOrdinal componentType =>
    obtain ⟨planned, result, acted, hdone⟩ := h
    obtain ⟨-, -, -, rfl⟩ := Database.insertResult_eq_ok_iff.1 hdone.result
    exact hdone.effect.tables hc.sourceIds
  | failure executed attemptOrdinal componentType =>
    obtain ⟨planned, result, hrecorded⟩ := h
    obtain ⟨-, -, -, rfl⟩ := Database.insertResult_eq_ok_iff.1 hrecorded.result
    rfl
  | evidence new executionOrdinal =>
    obtain ⟨-, rfl⟩ := Database.insertEvidenceRow_eq_ok h.2
    rfl

/-! ## Tables with a deletion state

Sources, proposals and records go the same way: a stored request moves its targets to `pending`,
one component redacts them, and the last component gives them their final state. -/

/-- A table whose rows are closed, redacted and finalized. -/
structure ClosedTable (α : Type) where
  rows : DataTables → List α
  id : α → Identifier
  state : α → DeletionState
  setState : DeletionState → α → α
  redact : α → α
  closes : DeleteRequest → ExecutionClosure → α → Bool
  component : DeletionComponentType
  added : Change → List α
  component_ne : component ≠ .minimalAudit
  added_component : ∀ executed n componentType,
    added (.component executed n componentType) = []
  id_setState : ∀ deletionState row, id (setState deletionState row) = id row
  id_redact : ∀ row, id (redact row) = id row
  state_setState : ∀ deletionState row, state (setState deletionState row) = deletionState
  state_redact : ∀ row, state (redact row) = state row
  state_of_closes : ∀ request closure row, closes request closure row = true →
    state row = .active

namespace ClosedTable

variable {α : Type} (T : ClosedTable α)

/-- What a change makes of a row. -/
def on (db : Database) (c : Change) (row : α) : α :=
  match c with
  | .request new closure => if T.closes new closure row then T.setState .pending row else row
  | .component executed attemptOrdinal componentType =>
    if Frozen db executed.params.deleteRequestId T.component (T.id row) then
      if componentType = T.component then T.redact row
      else if componentType = .minimalAudit then
        T.setState (finalState db executed.params.deleteRequestId attemptOrdinal) row
      else row
    else row
  | _ => row

/-- The table after a change. -/
def Effect (db : Database) (c : Change) : Prop :=
  T.rows (c.tables db) = (T.rows db.toDataTables).map (T.on db c) ++ T.added c

theorem effect_of_same {c : Change} (hrows : T.rows (c.tables db) = T.rows db.toDataTables)
    (hon : ∀ row, T.on db c row = row) (hadded : T.added c = []) : T.Effect db c := by
  rw [Effect, hrows, hadded, List.append_nil, List.map_congr_left fun row _ => hon row]
  exact (List.map_id _).symm

/-- A column that neither redaction nor a new state touches is never changed. -/
theorem on_column {β : Type} {column : α → β}
    (hstate : ∀ deletionState row, column (T.setState deletionState row) = column row)
    (hredact : ∀ row, column (T.redact row) = column row) (c : Change) (row : α) :
    column (T.on db c row) = column row := by
  unfold on
  split
  · split
    · exact hstate _ _
    · rfl
  · split
    · split
      · exact hredact _
      · split
        · exact hstate _ _
        · rfl
    · rfl
  · rfl

theorem on_id (c : Change) (row : α) : T.id (T.on db c row) = T.id row :=
  T.on_column T.id_setState T.id_redact c row

/-- Only closing an active row and the last component change a state. -/
theorem on_state (c : Change) (row : α) :
    T.state (T.on db c row) = T.state row ∨ T.state row = .active ∨
      ∃ executed n, c = .component executed n .minimalAudit ∧
        Frozen db executed.params.deleteRequestId T.component (T.id row) := by
  unfold on
  split
  · split
    · rename_i hcloses
      exact .inr (.inl (T.state_of_closes _ _ _ hcloses))
    · exact .inl rfl
  · rename_i executed n componentType
    by_cases hfrozen : Frozen db executed.params.deleteRequestId T.component (T.id row)
    · rw [if_pos hfrozen]
      by_cases hredact : componentType = T.component
      · rw [if_pos hredact]
        exact .inl (T.state_redact _)
      · rw [if_neg hredact]
        by_cases haudit : componentType = .minimalAudit
        · exact .inr (.inr ⟨executed, n, by rw [haudit], hfrozen⟩)
        · rw [if_neg haudit]
          exact .inl rfl
    · rw [if_neg hfrozen]
      exact .inl rfl
  · exact .inl rfl

end ClosedTable

def sourceTable : ClosedTable SourceRow where
  rows tables := tables.sources
  id := SourceRow.sourceId
  state row := row.governance.deletionState
  setState := SourceRow.setState
  redact := SourceRow.redact
  closes request _ := sourceIsClosed request.params.namespaceId request.params.sourceTargets
  component := .sourceMetadata
  added
    | .source new => [SourceRow.ofArtifact new.params]
    | _ => []
  component_ne h := nomatch h
  added_component _ _ _ := rfl
  id_setState _ _ := rfl
  id_redact _ := rfl
  state_setState _ _ := rfl
  state_redact _ := rfl
  state_of_closes _ _ row h := by
    simp only [sourceIsClosed, Bool.and_eq_true, beq_iff_eq] at h
    exact h.2

def proposalTable : ClosedTable ProposalRow where
  rows tables := tables.proposals
  id := ProposalRow.proposalId
  state row := row.governance.deletionState
  setState := ProposalRow.setState
  redact := ProposalRow.redact
  closes request closure := proposalIsClosed request.params.namespaceId closure
  component := .memoryProposal
  added
    | .proposal new => [ProposalRow.ofProposal new.params]
    | _ => []
  component_ne h := nomatch h
  added_component _ _ _ := rfl
  id_setState _ _ := rfl
  id_redact _ := rfl
  state_setState _ _ := rfl
  state_redact _ := rfl
  state_of_closes _ _ row h := by
    simp only [proposalIsClosed, Bool.and_eq_true, beq_iff_eq] at h
    exact h.2

def recordTable : ClosedTable RecordRow where
  rows tables := tables.records
  id := RecordRow.memoryId
  state row := row.governance.deletionState
  setState := RecordRow.setState
  redact := RecordRow.redact
  closes request _ := recordIsClosed request.params.namespaceId request.params.memoryTargets
  component := .memoryRecord
  added
    | .memory record _ _ => [RecordRow.ofRecord record.params]
    | _ => []
  component_ne h := nomatch h
  added_component _ _ _ := rfl
  id_setState _ _ := rfl
  id_redact _ := rfl
  state_setState _ _ := rfl
  state_redact _ := rfl
  state_of_closes _ _ row h := by
    simp only [recordIsClosed, Bool.and_eq_true, beq_iff_eq] at h
    exact h.2

theorem sourceTable_effect (db : Database) (c : Change) : sourceTable.Effect db c := by
  unfold ClosedTable.Effect
  cases c with
  | source new => exact (congrArg (· ++ _) (List.map_id _)).symm
  | request new closure => exact (List.append_nil _).symm
  | component executed attemptOrdinal componentType =>
    cases componentType with
    | sourceMetadata => exact (List.append_nil _).symm
    | minimalAudit => exact (List.append_nil _).symm
    | _ => exact sourceTable.effect_of_same rfl (fun _ => by simp [ClosedTable.on, sourceTable]) rfl
  | _ => exact sourceTable.effect_of_same rfl (fun _ => rfl) rfl

theorem proposalTable_effect (db : Database) (c : Change) : proposalTable.Effect db c := by
  unfold ClosedTable.Effect
  cases c with
  | proposal new => exact (congrArg (· ++ _) (List.map_id _)).symm
  | request new closure => exact (List.append_nil _).symm
  | component executed attemptOrdinal componentType =>
    cases componentType with
    | memoryProposal => exact (List.append_nil _).symm
    | minimalAudit => exact (List.append_nil _).symm
    | _ => exact proposalTable.effect_of_same rfl (fun _ => by simp [ClosedTable.on, proposalTable]) rfl
  | _ => exact proposalTable.effect_of_same rfl (fun _ => rfl) rfl

theorem recordTable_effect (db : Database) (c : Change) : recordTable.Effect db c := by
  unfold ClosedTable.Effect
  cases c with
  | memory record initialEvent supersededEvents => exact (congrArg (· ++ _) (List.map_id _)).symm
  | request new closure => exact (List.append_nil _).symm
  | component executed attemptOrdinal componentType =>
    cases componentType with
    | memoryRecord => exact (List.append_nil _).symm
    | minimalAudit => exact (List.append_nil _).symm
    | _ => exact recordTable.effect_of_same rfl (fun _ => by simp [ClosedTable.on, recordTable]) rfl
  | _ => exact recordTable.effect_of_same rfl (fun _ => rfl) rfl

/-- The table is one of the canonical tables, and changes act on it as the parameters say. -/
structure ClosedTable.Sound {α : Type} (T : ClosedTable α) : Prop where
  effect : ∀ db c, T.Effect db c
  derived : ∀ (tables : DataTables) db, T.rows (tables.withDerivedOf db) = T.rows tables
  fresh : ∀ db db' c, Change.Applies db db' c → ∀ new ∈ T.added c,
    ∀ old ∈ T.rows db.toDataTables, T.id old ≠ T.id new

theorem sourceTable_sound : sourceTable.Sound where
  effect := sourceTable_effect
  derived _ _ := rfl
  fresh db db' c h new hnew := by
    cases c with
    | source source =>
      rw [List.mem_singleton.1 hnew]
      exact SourceAdded.fresh h
    | _ => cases hnew

theorem proposalTable_sound : proposalTable.Sound where
  effect := proposalTable_effect
  derived _ _ := rfl
  fresh db db' c h new hnew := by
    cases c with
    | proposal proposal =>
      rw [List.mem_singleton.1 hnew]
      exact (storeMemoryProposal_eq_ok h).2.2.1
    | _ => cases hnew

theorem recordTable_sound : recordTable.Sound where
  effect := recordTable_effect
  derived _ _ := rfl
  fresh db db' c h new hnew := by
    cases c with
    | memory record initialEvent supersededEvents =>
      obtain ⟨proposal, superseded, hm⟩ := materializeAcceptedMemory_eq_ok h
      rw [List.mem_singleton.1 hnew]
      exact hm.freshRecord
    | _ => cases hnew

/-- The rows of a table after a change. -/
theorem ClosedTable.Sound.mem_rows {α : Type} {T : ClosedTable α} (hT : T.Sound)
    (hc : Constraints db) {c : Change} (h : c.Applies db db') {row : α} :
    row ∈ T.rows db'.toDataTables ↔
      (∃ old ∈ T.rows db.toDataTables, T.on db c old = row) ∨ row ∈ T.added c := by
  rw [h.tables hc, hT.derived, hT.effect, List.mem_append, List.mem_map]

/-! ## Decisions -/

def Change.newDecisions : Change → List DecisionRow
  | .decision new => [new.params]
  | _ => []

def Change.onDecision (db : Database) : Change → DecisionRow → DecisionRow
  | .component executed _ .memoryDecision =>
    onFrozen db executed.params.deleteRequestId .memoryDecision MemoryDecisionParams.decisionId DecisionRow.clearReason
  | _ => id

theorem Change.tables_decisions (c : Change) :
    (c.tables db).decisions = db.decisions.map (c.onDecision db) ++ c.newDecisions := by
  cases c with
  | decision new => exact (congrArg (· ++ _) (List.map_id _)).symm
  | component executed attemptOrdinal componentType =>
    cases componentType with
    | memoryDecision => exact (List.append_nil _).symm
    | _ => simp [Change.tables, actedTables, Change.onDecision, Change.newDecisions]
  | _ => simp [Change.tables, Change.onDecision, Change.newDecisions, Database.addSource,
      Database.addFragments, Database.addProposal, Database.addMaterialized, Database.addEvents,
      Database.addRecord, Database.closeRequest, Database.closeTargets]

theorem Change.Applies.decisions (hc : Constraints db) {c : Change} (h : c.Applies db db') :
    db'.decisions = db.decisions.map (c.onDecision db) ++ c.newDecisions := by
  rw [← c.tables_decisions, h.tables hc]
  rfl

theorem Change.Applies.mem_decisions (hc : Constraints db) {c : Change} (h : c.Applies db db')
    {row : DecisionRow} : row ∈ db'.decisions ↔
      (∃ old ∈ db.decisions, c.onDecision db old = row) ∨ row ∈ c.newDecisions := by
  rw [h.decisions hc, List.mem_append, List.mem_map]

/-- Clearing a reason keeps the decision. -/
theorem Change.onDecision_key (db : Database) (c : Change) (row : DecisionRow) :
    (c.onDecision db row).decisionId = row.decisionId ∧
      (c.onDecision db row).proposalId = row.proposalId := by
  cases c with
  | component executed attemptOrdinal componentType =>
    cases componentType with
    | memoryDecision =>
      simp only [Change.onDecision, onFrozen]
      split <;> exact ⟨rfl, rfl⟩
    | _ => exact ⟨rfl, rfl⟩
  | _ => exact ⟨rfl, rfl⟩

theorem Change.Applies.newDecisions_fresh {c : Change} (h : c.Applies db db') :
    ∀ new ∈ c.newDecisions, ∀ old ∈ db.decisions, old.decisionId ≠ new.decisionId := by
  intro new hnew
  cases c with
  | decision decision =>
    obtain ⟨-, -, -, -, -, hfresh, -⟩ := storeMemoryDecision_eq_ok h
    rw [List.mem_singleton.1 hnew]
    exact hfresh
  | _ => cases hnew

/-! ## Tables whose rows are removed -/

def Change.newBodies : Change → List BodyRow
  | .source new => [BodyRow.ofArtifact new.params]
  | _ => []

def Change.keepsBody (db : Database) : Change → BodyRow → Bool
  | .component executed _ .sourceBody =>
    notFrozen db executed.params.deleteRequestId .sourceBody BodyRow.sourceId
  | _ => fun _ => true

theorem Change.tables_bodies (c : Change) :
    (c.tables db).bodies = db.bodies.filter (c.keepsBody db) ++ c.newBodies := by
  cases c with
  | source new => exact (congrArg (· ++ _) (List.filter_true _)).symm
  | component executed attemptOrdinal componentType =>
    cases componentType with
    | sourceBody => exact (List.append_nil _).symm
    | _ => simp [Change.tables, actedTables, Change.keepsBody, Change.newBodies]
  | _ => simp [Change.tables, Change.keepsBody, Change.newBodies, Database.addFragments, Database.addProposal, Database.addDecision, Database.addMaterialized, Database.addEvents, Database.addRecord,
      Database.closeRequest, Database.closeTargets]

theorem Change.Applies.bodies (hc : Constraints db) {c : Change} (h : c.Applies db db') :
    db'.bodies = db.bodies.filter (c.keepsBody db) ++ c.newBodies := by
  rw [← c.tables_bodies, h.tables hc]
  rfl

theorem Change.Applies.mem_bodies (hc : Constraints db) {c : Change} (h : c.Applies db db')
    {row : BodyRow} : row ∈ db'.bodies ↔
      (row ∈ db.bodies ∧ c.keepsBody db row = true) ∨ row ∈ c.newBodies := by
  rw [h.bodies hc, List.mem_append, List.mem_filter]

def Change.newHeadings : Change → List (Child Identifier NonEmptyText)
  | .fragments _ new => new.flatMap headingRows
  | _ => []

def Change.keepsHeading (db : Database) : Change → Child Identifier NonEmptyText → Bool
  | .component executed _ .sourceFragment =>
    notFrozen db executed.params.deleteRequestId .sourceFragment Child.owner
  | _ => fun _ => true

theorem Change.tables_headings (c : Change) :
    (c.tables db).headings = db.headings.filter (c.keepsHeading db) ++ c.newHeadings := by
  cases c with
  | fragments owner new => exact (congrArg (· ++ _) (List.filter_true _)).symm
  | component executed attemptOrdinal componentType =>
    cases componentType with
    | sourceFragment => exact (List.append_nil _).symm
    | _ => simp [Change.tables, actedTables, Change.keepsHeading, Change.newHeadings]
  | _ => simp [Change.tables, Change.keepsHeading, Change.newHeadings, Database.addSource, Database.addProposal, Database.addDecision, Database.addMaterialized, Database.addEvents, Database.addRecord,
      Database.closeRequest, Database.closeTargets]

theorem Change.Applies.headings (hc : Constraints db) {c : Change} (h : c.Applies db db') :
    db'.headings = db.headings.filter (c.keepsHeading db) ++ c.newHeadings := by
  rw [← c.tables_headings, h.tables hc]
  rfl

theorem Change.Applies.mem_headings (hc : Constraints db) {c : Change} (h : c.Applies db db')
    {row : Child Identifier NonEmptyText} : row ∈ db'.headings ↔
      (row ∈ db.headings ∧ c.keepsHeading db row = true) ∨ row ∈ c.newHeadings := by
  rw [h.headings hc, List.mem_append, List.mem_filter]

def Change.newProposalFragments : Change → List (Child Identifier Identifier)
  | .proposal new => enumerate new.params.proposalId 0 new.params.sourceFragmentRefs
  | _ => []

def Change.keepsProposalFragment (db : Database) : Change → Child Identifier Identifier → Bool
  | .component executed _ .memoryProposal =>
    notFrozen db executed.params.deleteRequestId .memoryProposal Child.owner
  | _ => fun _ => true

theorem Change.tables_proposalFragments (c : Change) :
    (c.tables db).proposalFragments = db.proposalFragments.filter (c.keepsProposalFragment db) ++ c.newProposalFragments := by
  cases c with
  | proposal new => exact (congrArg (· ++ _) (List.filter_true _)).symm
  | component executed attemptOrdinal componentType =>
    cases componentType with
    | memoryProposal => exact (List.append_nil _).symm
    | _ => simp [Change.tables, actedTables, Change.keepsProposalFragment, Change.newProposalFragments]
  | _ => simp [Change.tables, Change.keepsProposalFragment, Change.newProposalFragments, Database.addSource, Database.addFragments, Database.addDecision, Database.addMaterialized, Database.addEvents, Database.addRecord,
      Database.closeRequest, Database.closeTargets]

theorem Change.Applies.proposalFragments (hc : Constraints db) {c : Change} (h : c.Applies db db') :
    db'.proposalFragments =
      db.proposalFragments.filter (c.keepsProposalFragment db) ++ c.newProposalFragments := by
  rw [← c.tables_proposalFragments, h.tables hc]
  rfl

theorem Change.Applies.mem_proposalFragments (hc : Constraints db) {c : Change} (h : c.Applies db db')
    {row : Child Identifier Identifier} : row ∈ db'.proposalFragments ↔
      (row ∈ db.proposalFragments ∧ c.keepsProposalFragment db row = true) ∨ row ∈ c.newProposalFragments := by
  rw [h.proposalFragments hc, List.mem_append, List.mem_filter]

def Change.newRecordFragments : Change → List (Child Identifier Identifier)
  | .memory record _ _ => enumerate record.params.memoryId 0 record.params.sourceFragmentRefs
  | _ => []

def Change.keepsRecordFragment (db : Database) : Change → Child Identifier Identifier → Bool
  | .component executed _ .memoryRecord =>
    notFrozen db executed.params.deleteRequestId .memoryRecord Child.owner
  | _ => fun _ => true

theorem Change.tables_recordFragments (c : Change) :
    (c.tables db).recordFragments = db.recordFragments.filter (c.keepsRecordFragment db) ++ c.newRecordFragments := by
  cases c with
  | memory record initialEvent supersededEvents => exact (congrArg (· ++ _) (List.filter_true _)).symm
  | component executed attemptOrdinal componentType =>
    cases componentType with
    | memoryRecord => exact (List.append_nil _).symm
    | _ => simp [Change.tables, actedTables, Change.keepsRecordFragment, Change.newRecordFragments]
  | _ => simp [Change.tables, Change.keepsRecordFragment, Change.newRecordFragments, Database.addSource, Database.addFragments, Database.addProposal, Database.addDecision, Database.addEvents,
      Database.closeRequest, Database.closeTargets]

theorem Change.Applies.recordFragments (hc : Constraints db) {c : Change} (h : c.Applies db db') :
    db'.recordFragments =
      db.recordFragments.filter (c.keepsRecordFragment db) ++ c.newRecordFragments := by
  rw [← c.tables_recordFragments, h.tables hc]
  rfl

theorem Change.Applies.mem_recordFragments (hc : Constraints db) {c : Change} (h : c.Applies db db')
    {row : Child Identifier Identifier} : row ∈ db'.recordFragments ↔
      (row ∈ db.recordFragments ∧ c.keepsRecordFragment db row = true) ∨ row ∈ c.newRecordFragments := by
  rw [h.recordFragments hc, List.mem_append, List.mem_filter]

def Change.newBindings : Change → List BindingRow
  | .binding row => [row]
  | _ => []

def Change.keepsBinding (db : Database) : Change → BindingRow → Bool
  | .component executed _ .minimalAudit =>
    bindingStays db executed.params.namespaceId
      executed.params.deleteRequestId
  | _ => fun _ => true

theorem Change.tables_bindings (c : Change) :
    (c.tables db).bindings = db.bindings.filter (c.keepsBinding db) ++ c.newBindings := by
  cases c with
  | binding row => exact (congrArg (· ++ _) (List.filter_true _)).symm
  | component executed attemptOrdinal componentType =>
    cases componentType with
    | minimalAudit => exact (List.append_nil _).symm
    | _ => simp [Change.tables, actedTables, Change.keepsBinding, Change.newBindings]
  | _ => simp [Change.tables, Change.keepsBinding, Change.newBindings, Database.addSource, Database.addFragments, Database.addProposal, Database.addDecision, Database.addMaterialized, Database.addEvents, Database.addRecord,
      Database.closeRequest, Database.closeTargets]

theorem Change.Applies.bindings (hc : Constraints db) {c : Change} (h : c.Applies db db') :
    db'.bindings = db.bindings.filter (c.keepsBinding db) ++ c.newBindings := by
  rw [← c.tables_bindings, h.tables hc]
  rfl

theorem Change.Applies.mem_bindings (hc : Constraints db) {c : Change} (h : c.Applies db db')
    {row : BindingRow} : row ∈ db'.bindings ↔
      (row ∈ db.bindings ∧ c.keepsBinding db row = true) ∨ row ∈ c.newBindings := by
  rw [h.bindings hc, List.mem_append, List.mem_filter]

def Change.newCaptureAudit : Change → List AuditRow
  | .audit row => [row]
  | _ => []

def Change.keepsAudit (db : Database) : Change → AuditRow → Bool
  | .component executed _ .minimalAudit =>
    auditStays db executed.params.namespaceId
      executed.params.deleteRequestId
  | _ => fun _ => true

theorem Change.tables_captureAudit (c : Change) :
    (c.tables db).captureAudit = db.captureAudit.filter (c.keepsAudit db) ++ c.newCaptureAudit := by
  cases c with
  | audit row => exact (congrArg (· ++ _) (List.filter_true _)).symm
  | component executed attemptOrdinal componentType =>
    cases componentType with
    | minimalAudit => exact (List.append_nil _).symm
    | _ => simp [Change.tables, actedTables, Change.keepsAudit, Change.newCaptureAudit]
  | _ => simp [Change.tables, Change.keepsAudit, Change.newCaptureAudit, Database.addSource, Database.addFragments, Database.addProposal, Database.addDecision, Database.addMaterialized, Database.addEvents, Database.addRecord,
      Database.closeRequest, Database.closeTargets]

theorem Change.Applies.captureAudit (hc : Constraints db) {c : Change} (h : c.Applies db db') :
    db'.captureAudit = db.captureAudit.filter (c.keepsAudit db) ++ c.newCaptureAudit := by
  rw [← c.tables_captureAudit, h.tables hc]
  rfl

theorem Change.Applies.mem_captureAudit (hc : Constraints db) {c : Change} (h : c.Applies db db')
    {row : AuditRow} : row ∈ db'.captureAudit ↔
      (row ∈ db.captureAudit ∧ c.keepsAudit db row = true) ∨ row ∈ c.newCaptureAudit := by
  rw [h.captureAudit hc, List.mem_append, List.mem_filter]

/-! ## Fragments -/

def Change.newFragments : Change → List FragmentRow
  | .fragments _ new => new.map fun f => FragmentRow.ofFragment f.params
  | _ => []

def Change.keepsFragment (db : Database) : Change → FragmentRow → Bool
  | .component executed _ .sourceFragment =>
    notFrozen db executed.params.deleteRequestId .sourceFragment FragmentRow.fragmentId
  | _ => fun _ => true

def Change.onFragment : Change → FragmentRow → FragmentRow
  | .request new closure => fun row =>
    if fragmentIsClosed new.params.namespaceId closure row then row.setState .pending else row
  | _ => id

theorem Change.tables_fragments (c : Change) : (c.tables db).fragments =
    (db.fragments.filter (c.keepsFragment db)).map c.onFragment ++ c.newFragments := by
  cases c with
  | fragments owner new =>
    simp [Change.tables, Change.keepsFragment, Change.onFragment, Change.newFragments,
      Database.addFragments]
  | request new closure =>
    simp [Change.tables, Change.keepsFragment, Change.onFragment, Change.newFragments,
      Database.closeRequest, updateWhere]
  | component executed attemptOrdinal componentType =>
    cases componentType with
    | sourceFragment =>
      simp [Change.tables, actedTables, Change.keepsFragment, Change.onFragment,
        Change.newFragments]
    | _ => simp [Change.tables, actedTables, Change.keepsFragment, Change.onFragment,
        Change.newFragments]
  | _ => simp [Change.tables, Change.keepsFragment, Change.onFragment, Change.newFragments,
      Database.addSource, Database.addProposal, Database.addDecision, Database.addMaterialized,
      Database.addEvents, Database.addRecord]

theorem Change.Applies.fragments (hc : Constraints db) {c : Change} (h : c.Applies db db') :
    db'.fragments =
      (db.fragments.filter (c.keepsFragment db)).map c.onFragment ++ c.newFragments := by
  rw [← c.tables_fragments, h.tables hc]
  rfl

theorem Change.Applies.mem_fragments (hc : Constraints db) {c : Change} (h : c.Applies db db')
    {row : FragmentRow} : row ∈ db'.fragments ↔
      (∃ old ∈ db.fragments, c.keepsFragment db old = true ∧ c.onFragment old = row) ∨
        row ∈ c.newFragments := by
  rw [h.fragments hc, List.mem_append, List.mem_map]
  simp only [List.mem_filter, and_assoc]

/-- Closing a fragment changes its state only. -/
theorem Change.onFragment_key (c : Change) (row : FragmentRow) :
    (c.onFragment row).fragmentId = row.fragmentId ∧
      (c.onFragment row).sourceId = row.sourceId ∧
      (c.onFragment row).namespaceId = row.namespaceId := by
  cases c with
  | request new closure =>
    simp only [Change.onFragment]
    split <;> exact ⟨rfl, rfl, rfl⟩
  | _ => exact ⟨rfl, rfl, rfl⟩

end RadishMemory
