import RadishMemory.Properties.DeletionWrites

/-!
# What a deletion component does

The effect of each action on the data tables, over the ids frozen for it, and the shape of the
transaction around it.  `Execution` lemmas turn these into rules for a whole execution: what
every component transaction, every failure record and the opening of an attempt preserves is
preserved by every execution, however many components fail and wherever the store breaks down.
-/

namespace RadishMemory

variable [Platform] {db db' : Database}

omit [Platform] in
/-- The loaded closure of a component holds exactly its frozen ids. -/
theorem loadExecutionClosure_ids {deleteRequestId id : Identifier}
    {componentType : DeletionComponentType} {targets : List ObjectRef}
    (h : loadExecutionClosure db deleteRequestId componentType = .ok targets) :
    id ∈ targets.map ObjectRef.objectId ↔ Frozen db deleteRequestId componentType id := by
  simp only [List.mem_map, mem_of_loadChildren h, Frozen]
  constructor
  · rintro ⟨ref, ⟨c, hc, howner, rfl⟩, rfl⟩
    exact ⟨c, hc, howner, rfl⟩
  · rintro ⟨c, hc, howner, rfl⟩
    exact ⟨c.value, ⟨c, hc, howner, rfl⟩, rfl⟩

omit [Platform] in
/-- The list holds exactly the ids frozen for the component. -/
def IsFrozenList (db : Database) (deleteRequestId : Identifier)
    (componentType : DeletionComponentType) (ids : List Identifier) : Prop :=
  ∀ id, id ∈ ids ↔ Frozen db deleteRequestId componentType id

/-- The tables after the entry state of the lineages has been purged. -/
def Database.purgeLineages (db : Database) (namespaceId : Identifier)
    (lineages : List Identifier) : Database :=
  { db with
    captureAudit := deleteWhere (auditIsPurged db namespaceId lineages) db.captureAudit
    bindings := deleteWhere (bindingIsPurged namespaceId lineages) db.bindings }

/-- The tables after the closed objects got their final state. -/
def Database.finalize (db : Database) (sources proposals records : List Identifier)
    (state : DeletionState) : Database :=
  { db with
    sources := updateWhere (fun row => sources.contains row.sourceId)
      (SourceRow.setState state) db.sources
    proposals := updateWhere (fun row => proposals.contains row.proposalId)
      (ProposalRow.setState state) db.proposals
    records := updateWhere (fun row => records.contains row.memoryId)
      (RecordRow.setState state) db.records }

/-- The effect of an action that succeeds. -/
def ActionEffect (db db' : Database) (namespaceId deleteRequestId : Identifier)
    (hasFailed : Bool) : DeletionComponentType → Prop
  | .sourceBody => ∃ ids, IsFrozenList db deleteRequestId .sourceBody ids ∧
      db' = { db with bodies := deleteWhere (fun row => ids.contains row.sourceId) db.bodies }
  | .sourceMetadata => ∃ ids, IsFrozenList db deleteRequestId .sourceMetadata ids ∧
      db' = { db with
        sources := updateWhere (fun row => ids.contains row.sourceId) SourceRow.redact
          db.sources }
  | .sourceFragment => ∃ ids, IsFrozenList db deleteRequestId .sourceFragment ids ∧
      (∀ row ∈ db.fragments, row.fragmentId ∈ ids →
        fragmentIsLinked db row.fragmentId = false) ∧
      db' = { db with
        headings := deleteWhere (fun row => ids.contains row.owner) db.headings
        fragments := deleteWhere (fun row => ids.contains row.fragmentId) db.fragments }
  | .memoryProposal => ∃ ids, IsFrozenList db deleteRequestId .memoryProposal ids ∧
      db' = { db with
        proposalFragments := deleteWhere (fun link => ids.contains link.owner)
          db.proposalFragments
        proposals := updateWhere (fun row => ids.contains row.proposalId) ProposalRow.redact
          db.proposals }
  | .memoryDecision => ∃ ids, IsFrozenList db deleteRequestId .memoryDecision ids ∧
      db' = { db with
        decisions := updateWhere (fun row => ids.contains row.decisionId)
          DecisionRow.clearReason db.decisions }
  | .memoryRecord => ∃ ids, IsFrozenList db deleteRequestId .memoryRecord ids ∧
      db' = { db with
        recordFragments := deleteWhere (fun link => ids.contains link.owner) db.recordFragments
        records := updateWhere (fun row => ids.contains row.memoryId) RecordRow.redact
          db.records }
  | .memoryStateEvent => db' = db
  | .fullTextIndex => ∃ targets keys,
      loadExecutionClosure db deleteRequestId .fullTextIndex = .ok targets ∧
      targets.mapM recallKeyOf = .ok keys ∧
      db' = { db with recallFts := deleteWhere (fun row => keys.contains row.key) db.recallFts }
  | .contextCache => db' = db
  | .minimalAudit => ∃ targets lineages sources proposals records,
      loadExecutionClosure db deleteRequestId .minimalAudit = .ok targets ∧
      (idsOfType .sourceArtifact targets).mapM (sourceLineageOf db namespaceId) = .ok lineages ∧
      (∀ tip ∈ db.tips, tip.namespaceId = namespaceId → tip.lineageId ∉ lineages) ∧
      IsFrozenList db deleteRequestId .sourceMetadata sources ∧
      IsFrozenList db deleteRequestId .memoryProposal proposals ∧
      IsFrozenList db deleteRequestId .memoryRecord records ∧
      db' = (db.purgeLineages namespaceId lineages).finalize sources proposals records
        (if hasFailed then .failed else .deleted)

omit [Platform] in
theorem retainMinimalAudit_effect {namespaceId deleteRequestId : Identifier}
    {targets : List ObjectRef} {attemptOrdinal : Nat} {hasFailed : Bool} {action : ActionResult}
    (h : retainMinimalAudit db namespaceId deleteRequestId targets attemptOrdinal hasFailed =
      .ok (action, db')) :
    ∃ lineages sources proposals records,
      (idsOfType .sourceArtifact targets).mapM (sourceLineageOf db namespaceId) = .ok lineages ∧
      (∀ tip ∈ db.tips, tip.namespaceId = namespaceId → tip.lineageId ∉ lineages) ∧
      IsFrozenList db deleteRequestId .sourceMetadata sources ∧
      IsFrozenList db deleteRequestId .memoryProposal proposals ∧
      IsFrozenList db deleteRequestId .memoryRecord records ∧
      db' = (db.purgeLineages namespaceId lineages).finalize sources proposals records
        (if hasFailed then .failed else .deleted) := by
  simp only [retainMinimalAudit, purgeSourceEntryState, finalizeGovernanceState,
    Except.bind_eq_ok_iff, Except.exists_unit_iff, Except.pure_eq_ok_iff, require_eq_ok_iff,
    Prod.mk.injEq] at h
  obtain ⟨-, -, db₁, ⟨lineages, hlineages, htips, rfl⟩, db₂, ⟨sources, hsources, proposals,
    hproposals, records, hrecords, rfl⟩, -, rfl⟩ := h
  exact ⟨lineages, sources.map ObjectRef.objectId, proposals.map ObjectRef.objectId,
    records.map ObjectRef.objectId, hlineages, htips,
    fun id => loadExecutionClosure_ids hsources, fun id => loadExecutionClosure_ids hproposals,
    fun id => loadExecutionClosure_ids hrecords, rfl⟩

/-- A successful action has the effect its component stands for. -/
theorem executeComponentAction_effect {namespaceId deleteRequestId : Identifier}
    {componentType : DeletionComponentType} {attemptOrdinal : Nat} {hasFailed : Bool}
    {action : ActionResult}
    (h : executeComponentAction db namespaceId deleteRequestId componentType attemptOrdinal
      hasFailed = .ok (action, db')) :
    ActionEffect db db' namespaceId deleteRequestId hasFailed componentType := by
  simp only [executeComponentAction, Except.bind_eq_ok_iff] at h
  obtain ⟨targets, hload, h⟩ := h
  have hids : IsFrozenList db deleteRequestId componentType (targets.map ObjectRef.objectId) :=
    fun id => loadExecutionClosure_ids hload
  cases componentType with
  | sourceBody =>
    simp only [deleteSourceBodies, Except.bind_eq_ok_iff, Except.exists_unit_iff,
      Except.pure_eq_ok_iff, Prod.mk.injEq] at h
    exact ⟨_, hids, h.2.2.symm⟩
  | sourceMetadata =>
    simp only [redactSourceMetadata, Except.bind_eq_ok_iff, Except.exists_unit_iff,
      Except.pure_eq_ok_iff, Prod.mk.injEq] at h
    exact ⟨_, hids, h.2.2.symm⟩
  | sourceFragment =>
    simp only [deleteSourceFragments, Except.bind_eq_ok_iff, Except.exists_unit_iff,
      Except.pure_eq_ok_iff, Prod.mk.injEq, require_eq_ok_iff, List.contains_iff_mem] at h
    exact ⟨_, hids, h.2.1, h.2.2.2.symm⟩
  | memoryProposal =>
    simp only [redactMemoryProposals, Except.bind_eq_ok_iff, Except.exists_unit_iff,
      Except.pure_eq_ok_iff, Prod.mk.injEq] at h
    exact ⟨_, hids, h.2.2.symm⟩
  | memoryDecision =>
    simp only [retainMemoryDecisions, Except.bind_eq_ok_iff, Except.exists_unit_iff,
      Except.pure_eq_ok_iff, Prod.mk.injEq] at h
    exact ⟨_, hids, h.2.2.symm⟩
  | memoryRecord =>
    simp only [redactMemoryRecords, Except.bind_eq_ok_iff, Except.exists_unit_iff,
      Except.pure_eq_ok_iff, Prod.mk.injEq] at h
    exact ⟨_, hids, h.2.2.symm⟩
  | memoryStateEvent =>
    simp only [retainMemoryEvents, Except.bind_eq_ok_iff, Except.exists_unit_iff,
      Except.pure_eq_ok_iff, Prod.mk.injEq] at h
    exact h.2.2.symm
  | fullTextIndex =>
    simp only [deleteFullTextRows, Except.bind_eq_ok_iff, Except.pure_eq_ok_iff,
      Prod.mk.injEq] at h
    obtain ⟨keys, hkeys, -, rfl⟩ := h
    exact ⟨targets, keys, hload, hkeys, rfl⟩
  | contextCache =>
    simp only [verifyContextCacheAbsent, Except.bind_eq_ok_iff, Except.exists_unit_iff,
      Except.pure_eq_ok_iff, Prod.mk.injEq] at h
    exact h.2.2.symm
  | minimalAudit =>
    obtain ⟨lineages, sources, proposals, records, heffect⟩ := retainMinimalAudit_effect h
    exact ⟨targets, lineages, sources, proposals, records, hload, heffect⟩

end RadishMemory
