import RadishMemory.Properties.Constraints

/-!
# The invariant of the library

What holds in every state that operations can reach, whatever fails on the way:

* a frozen source, record or proposal still has its row, and the row is not active;
* the lineage of a frozen source is closed: it has no tip and no active source, and it can never
  get one, because every lineage has a first version and versions are not stored twice;
* no two requests freeze the same source lineage, record or proposal;
* no full-text or projection row stands for a frozen object.

Nothing here depends on how far a request has been executed.
-/

namespace RadishMemory

variable [Platform] {db db' : Database}

/-- What every reachable library satisfies. -/
structure LibraryInvariant (db : Database) : Prop where
  constraints : Constraints db
  fragmentNamespaces : ∀ f ∈ db.fragments, ∃ s ∈ db.sources, s.sourceId = f.sourceId ∧
    s.namespaceId = f.namespaceId
  lineageRoots : ∀ s ∈ db.sources, ∃ r ∈ db.sources, r.namespaceId = s.namespaceId ∧
    r.lineageId = s.lineageId ∧ r.version.get = 1
  tipSources : ∀ tip ∈ db.tips, ∃ s ∈ db.sources, tip = TipRow.ofSource s
  recordProposals : ∀ r ∈ db.records, ∃ p ∈ db.proposals, p.proposalId = r.originProposalId ∧
    p.namespaceId = r.namespaceId ∧
    (r.governance.deletionState = .active → p.governance.deletionState = .active)
  closedSources : ∀ D id, Frozen db D .sourceMetadata id → ∃ s ∈ db.sources,
    s.sourceId = id ∧ s.governance.deletionState ≠ .active
  closedLineages : ∀ D, ∀ s ∈ db.sources, Frozen db D .sourceMetadata s.sourceId →
    (∀ tip ∈ db.tips, tip.key ≠ (s.namespaceId, s.lineageId)) ∧
    ∀ t ∈ db.sources, t.namespaceId = s.namespaceId → t.lineageId = s.lineageId →
      t.governance.deletionState ≠ .active
  closedFragments : ∀ D, ∀ f ∈ db.fragments, Frozen db D .sourceMetadata f.sourceId →
    f.governance.deletionState ≠ .active
  closedRecords : ∀ D id, Frozen db D .memoryRecord id → ∃ r ∈ db.records,
    r.memoryId = id ∧ r.governance.deletionState ≠ .active
  closedProposals : ∀ D id, Frozen db D .memoryProposal id → ∃ p ∈ db.proposals,
    p.proposalId = id ∧ p.governance.deletionState ≠ .active
  closedDecisions : ∀ D id, Frozen db D .memoryDecision id → ∃ d ∈ db.decisions,
    d.decisionId = id
  requestNamespaces : ∀ r ∈ db.requests, ∀ s ∈ db.sources,
    Frozen db r.deleteRequestId .sourceMetadata s.sourceId → s.namespaceId = r.namespaceId
  oneLineage : ∀ D D', ∀ s ∈ db.sources, ∀ t ∈ db.sources,
    Frozen db D .sourceMetadata s.sourceId → Frozen db D' .sourceMetadata t.sourceId →
    s.namespaceId = t.namespaceId → s.lineageId = t.lineageId → D = D'
  oneRecord : ∀ D D' id, Frozen db D .memoryRecord id → Frozen db D' .memoryRecord id → D = D'
  oneProposal : ∀ D D' id, Frozen db D .memoryProposal id → Frozen db D' .memoryProposal id →
    D = D'
  recalledFragments : ∀ row ∈ db.recallFts, row.key.objectKind = .sourceFragment →
    ∀ f ∈ db.fragments, f.fragmentId = row.key.objectId →
      ∀ D, ¬ Frozen db D .sourceMetadata f.sourceId
  recalledRecords : ∀ row ∈ db.recallFts, row.key.objectKind = .memoryRecord →
    ∀ D, ¬ Frozen db D .memoryRecord row.key.objectId
  projectedRecords : ∀ row ∈ db.projection, ∀ D, ¬ Frozen db D .memoryRecord row.memoryId
  audits : ∀ a ∈ db.captureAudit, ∃ s ∈ db.sources, s.sourceId = a.sourceId ∧
    s.namespaceId = a.namespaceId ∧
    (s.governance.deletionState = .active ∨ ∃ D, Frozen db D .sourceMetadata s.sourceId) ∧
    ∀ b ∈ db.bindings, b.key = (a.namespaceId, a.originBindingId) → b.lineageId = s.lineageId

/-- The new request had frozen nothing before. -/
theorem StoredRequest.not_frozen {request : DeleteRequest} {closure : ExecutionClosure}
    (hc : Constraints db)
    (hstored : StoredRequest db db' request closure) (id : Identifier)
    (componentType : DeletionComponentType) :
    ¬ Frozen db request.params.deleteRequestId componentType id := by
  rintro ⟨c, hmem, howner, -⟩
  obtain ⟨r, hr, hid⟩ := hc.closureRequests c hmem
  dsimp only at hid
  rw [howner] at hid
  exact hstored.fresh r hr hid

namespace LibraryInvariant

section Rows

omit [Platform]

theorem empty : LibraryInvariant Database.empty where
  constraints := Constraints.empty
  fragmentNamespaces _ h := absurd h List.not_mem_nil
  lineageRoots _ h := absurd h List.not_mem_nil
  tipSources _ h := absurd h List.not_mem_nil
  recordProposals _ h := absurd h List.not_mem_nil
  closedSources _ _ h := absurd h.choose_spec.1 List.not_mem_nil
  closedLineages _ _ h := absurd h List.not_mem_nil
  closedFragments _ _ h := absurd h List.not_mem_nil
  closedRecords _ _ h := absurd h.choose_spec.1 List.not_mem_nil
  closedProposals _ _ h := absurd h.choose_spec.1 List.not_mem_nil
  closedDecisions _ _ h := absurd h.choose_spec.1 List.not_mem_nil
  requestNamespaces _ h := absurd h List.not_mem_nil
  oneLineage _ _ _ h := absurd h List.not_mem_nil
  oneRecord _ _ _ h := absurd h.choose_spec.1 List.not_mem_nil
  oneProposal _ _ _ h := absurd h.choose_spec.1 List.not_mem_nil
  recalledFragments _ h := absurd h List.not_mem_nil
  recalledRecords _ h := absurd h List.not_mem_nil
  projectedRecords _ h := absurd h List.not_mem_nil
  audits _ h := absurd h List.not_mem_nil

/-! ## Active rows are not frozen -/

theorem source_not_frozen (h : LibraryInvariant db) {s : SourceRow} (hs : s ∈ db.sources)
    (hactive : s.governance.deletionState = .active) (D : Identifier) :
    ¬ Frozen db D .sourceMetadata s.sourceId := by
  intro hfrozen
  obtain ⟨t, ht, hid, hstate⟩ := h.closedSources D _ hfrozen
  rw [h.constraints.sourceIds.eq_of_mem ht hs hid] at hstate
  exact hstate hactive

theorem record_not_frozen (h : LibraryInvariant db) {r : RecordRow} (hr : r ∈ db.records)
    (hactive : r.governance.deletionState = .active) (D : Identifier) :
    ¬ Frozen db D .memoryRecord r.memoryId := by
  intro hfrozen
  obtain ⟨t, ht, hid, hstate⟩ := h.closedRecords D _ hfrozen
  rw [h.constraints.recordIds.eq_of_mem ht hr hid] at hstate
  exact hstate hactive

theorem proposal_not_frozen (h : LibraryInvariant db) {p : ProposalRow} (hp : p ∈ db.proposals)
    (hactive : p.governance.deletionState = .active) (D : Identifier) :
    ¬ Frozen db D .memoryProposal p.proposalId := by
  intro hfrozen
  obtain ⟨t, ht, hid, hstate⟩ := h.closedProposals D _ hfrozen
  rw [h.constraints.proposalIds.eq_of_mem ht hp hid] at hstate
  exact hstate hactive

theorem oneSource (h : LibraryInvariant db) {D D' id : Identifier}
    (hD : Frozen db D .sourceMetadata id) (hD' : Frozen db D' .sourceMetadata id) : D = D' := by
  obtain ⟨s, hs, rfl, -⟩ := h.closedSources D id hD
  exact h.oneLineage D D' s hs s hs hD hD' rfl rfl

end Rows

/-! ## Source writes -/

/-- A lineage that a source can be added to is not closed. -/
theorem lineage_open (h : LibraryInvariant db) {source : SourceArtifact}
    (hadded : SourceAdded db db' source) {D : Identifier} {s : SourceRow} (hs : s ∈ db.sources)
    (hfrozen : Frozen db D .sourceMetadata s.sourceId)
    (hns : s.namespaceId = source.params.namespaceId) :
    s.lineageId ≠ source.params.lineageId := by
  intro hlineage
  rcases hadded.tip with ⟨-, hversion, -⟩ | ⟨current, hsome, -⟩
  · -- A new lineage starts at version one, which the closed lineage already has.
    obtain ⟨r, hr, hrns, hrlineage, hrversion⟩ := h.lineageRoots s hs
    refine hadded.freshVersion r hr ?_
    simp only [SourceRow.versionKey, SourceRow.ofArtifact, Prod.mk.injEq]
    exact ⟨hrns.trans hns, hrlineage.trans hlineage, hrversion.trans hversion.symm⟩
  · refine (h.closedLineages D s hs hfrozen).1 current (lookup_mem hsome) ?_
    rw [hns, hlineage]
    exact lookup_key hsome

theorem new_source_not_frozen (h : LibraryInvariant db) {source : SourceArtifact}
    (hadded : SourceAdded db db' source) (D : Identifier) :
    ¬ Frozen db D .sourceMetadata source.params.sourceId := by
  intro hfrozen
  obtain ⟨s, hs, hid, -⟩ := h.closedSources D _ hfrozen
  exact hadded.fresh s hs hid

/-- A source write adds its rows, moves the tip to the new source and drops full-text rows. -/
theorem sourceAdded_shape {source : SourceArtifact} (hadded : SourceAdded db db' source) :
    ∃ tips recallFts, db' = (db.addSource source).withDerived tips db.projection recallFts ∧
      (∀ tip ∈ tips, tip ∈ db.tips ∨ tip = TipRow.ofSource (SourceRow.ofArtifact source.params)) ∧
      ∀ row ∈ recallFts, row ∈ db.recallFts := by
  rcases hadded.tip with ⟨-, -, rfl⟩ | ⟨current, hsome, -, -, -, rfl⟩
  · refine ⟨_, _, rfl, fun tip htip => ?_, fun _ hrow => hrow⟩
    rcases List.mem_append.1 htip with htip | htip
    · exact .inl htip
    · exact .inr (List.mem_singleton.1 htip)
  · refine ⟨_, _, rfl, fun tip htip => ?_, fun row hrow => (mem_deleteWhere.1 hrow).1⟩
    obtain ⟨old, hold, rfl⟩ := mem_updateWhere.1 htip
    split
    · rename_i heq
      rw [beq_iff_eq] at heq
      have hkey : current.key = _ := lookup_key hsome
      rw [TipRow.key, Prod.mk.injEq] at hkey
      refine .inr ?_
      simp only [heq, TipRow.ofSource, SourceRow.ofArtifact, hkey]
    · exact .inl hold

theorem sourceAdded {source : SourceArtifact} (h : LibraryInvariant db)
    (hadded : SourceAdded db db' source) : LibraryInvariant db' := by
  have hconstraints := h.constraints.sourceAdded hadded
  have hopen : ∀ D, ∀ s ∈ db.sources, Frozen db D .sourceMetadata s.sourceId →
      (s.namespaceId, s.lineageId) ≠ (source.params.namespaceId, source.params.lineageId) := by
    intro D s hs hfrozen heq
    rw [Prod.mk.injEq] at heq
    exact h.lineage_open hadded hs hfrozen heq.1 heq.2
  have hnew := h.new_source_not_frozen hadded
  have hroot : ∃ r ∈ (db.addSource source).sources,
      r.namespaceId = source.params.namespaceId ∧ r.lineageId = source.params.lineageId ∧
        r.version.get = 1 := by
    rcases hadded.tip with ⟨-, hversion, -⟩ | ⟨current, -, -, -, ⟨t, ht, -, htns, htlineage⟩, -⟩
    · exact ⟨_, List.mem_append_right _ List.mem_cons_self, rfl, rfl, hversion⟩
    · obtain ⟨r, hr, hrns, hrlineage, hrversion⟩ := h.lineageRoots t ht
      exact ⟨r, List.mem_append_left _ hr, hrns.trans htns, hrlineage.trans htlineage, hrversion⟩
  -- A source of the extended table is an old one, or the new one, which is not frozen.
  have hold : ∀ D, ∀ s ∈ (db.addSource source).sources, Frozen db D .sourceMetadata s.sourceId →
      s ∈ db.sources := by
    intro D s hs hfrozen
    rcases List.mem_append.1 hs with hs | hs
    · exact hs
    · rw [List.mem_singleton] at hs
      subst hs
      exact absurd hfrozen (hnew D)
  obtain ⟨tips, recallFts, rfl, htips, hrecall⟩ := sourceAdded_shape hadded
  refine { h with
    constraints := hconstraints
    fragmentNamespaces := fun f hf => ?_
    lineageRoots := fun s hs => ?_
    tipSources := fun tip htip => ?_
    closedSources := fun D id hfrozen => ?_
    closedLineages := fun D s hs hfrozen => ⟨fun tip htip => ?_, fun t ht hns hlineage => ?_⟩
    requestNamespaces := fun r hr s hs hfrozen =>
      h.requestNamespaces r hr s (hold _ s hs hfrozen) hfrozen
    oneLineage := fun D D' s hs t ht hfrozen hfrozen' =>
      h.oneLineage D D' s (hold D s hs hfrozen) t (hold D' t ht hfrozen') hfrozen hfrozen'
    recalledFragments := fun row hrow => h.recalledFragments row (hrecall row hrow)
    recalledRecords := fun row hrow => h.recalledRecords row (hrecall row hrow)
    audits := fun a ha => ?_ }
  · obtain ⟨s, hs, heq⟩ := h.fragmentNamespaces f hf
    exact ⟨s, List.mem_append_left _ hs, heq⟩
  · rcases List.mem_append.1 hs with hs | hs
    · obtain ⟨r, hr, heq⟩ := h.lineageRoots s hs
      exact ⟨r, List.mem_append_left _ hr, heq⟩
    · rw [List.mem_singleton] at hs
      subst hs
      exact hroot
  · rcases htips tip htip with htip | rfl
    · obtain ⟨s, hs, heq⟩ := h.tipSources tip htip
      exact ⟨s, List.mem_append_left _ hs, heq⟩
    · exact ⟨_, List.mem_append_right _ List.mem_cons_self, rfl⟩
  · obtain ⟨s, hs, heq⟩ := h.closedSources D id hfrozen
    exact ⟨s, List.mem_append_left _ hs, heq⟩
  · have hs := hold D s hs hfrozen
    rcases htips tip htip with htip | rfl
    · exact (h.closedLineages D s hs hfrozen).1 tip htip
    · exact (hopen D s hs hfrozen).symm
  · have hs := hold D s hs hfrozen
    rcases List.mem_append.1 ht with ht | ht
    · exact (h.closedLineages D s hs hfrozen).2 t ht hns hlineage
    · rw [List.mem_singleton] at ht
      subst ht
      exact absurd (by rw [← hns, ← hlineage]; rfl) (hopen D s hs hfrozen)
  · obtain ⟨s, hs, heq⟩ := h.audits a ha
    exact ⟨s, List.mem_append_left _ hs, heq⟩

theorem fragmentsAdded {source : SourceArtifact} {fragments : List SourceFragment}
    (h : LibraryInvariant db) (hadded : FragmentsAdded db db' source fragments) :
    LibraryInvariant db' := by
  have hconstraints := h.constraints.fragmentsAdded hadded
  have howner := h.source_not_frozen hadded.stored hadded.active
  have hresolved : ∀ f ∈ fragments, f.params.sourceId = source.params.sourceId ∧
      f.params.namespaceId = source.params.namespaceId := by
    intro f hf
    obtain ⟨hid, hns, -⟩ :=
      validateSourceFragmentResolution_eq_ok_iff.1 (hadded.resolved f hf)
    exact ⟨hid, hns⟩
  -- A fragment of a frozen source is an old one.
  have hold : ∀ D, ∀ f ∈ (db.addFragments source fragments).fragments,
      Frozen db D .sourceMetadata f.sourceId → f ∈ db.fragments := by
    intro D f hf hfrozen
    rcases List.mem_append.1 hf with hf | hf
    · exact hf
    · obtain ⟨new, hnew, rfl⟩ := List.mem_map.1 hf
      have hid : (FragmentRow.ofFragment new.params).sourceId = source.params.sourceId :=
        (hresolved new hnew).1
      rw [hid] at hfrozen
      exact absurd hfrozen (howner D)
  obtain rfl := hadded.result
  refine { h with
    constraints := hconstraints
    fragmentNamespaces := fun f hf => ?_
    closedFragments := fun D f hf hfrozen =>
      h.closedFragments D f (hold D f hf hfrozen) hfrozen
    recalledFragments := fun row hrow hkind f hf hid D hfrozen => ?_
    recalledRecords := fun row hrow hkind => ?_ }
  · rcases List.mem_append.1 hf with hf | hf
    · exact h.fragmentNamespaces f hf
    · obtain ⟨new, hnew, rfl⟩ := List.mem_map.1 hf
      exact ⟨_, hadded.stored, (hresolved new hnew).1.symm, (hresolved new hnew).2.symm⟩
  · have hf := hold D f hf hfrozen
    rcases List.mem_append.1 hrow with hrow | hrow
    · exact h.recalledFragments row hrow hkind f hf hid D hfrozen
    · -- The new full-text rows are of new fragments, whose ids no old row has.
      obtain ⟨new, hnew, rfl⟩ := List.mem_map.1 hrow
      exact hadded.fresh.ids new (List.mem_filter.1 hnew).1 f hf hid
  · rcases List.mem_append.1 hrow with hrow | hrow
    · exact h.recalledRecords row hrow hkind
    · obtain ⟨new, -, rfl⟩ := List.mem_map.1 hrow
      cases hkind

section Entry

omit [Platform]

theorem bindingAdded {row : BindingRow} (h : LibraryInvariant db)
    (hadded : db.insertBinding row = .ok db') : LibraryInvariant db' := by
  have hconstraints := h.constraints.bindingAdded hadded
  obtain ⟨hfresh, rfl⟩ := Database.insertBinding_eq_ok hadded
  refine { h with constraints := hconstraints, audits := fun a ha => ?_ }
  obtain ⟨s, hs, hid, hns, hstate, hbound⟩ := h.audits a ha
  refine ⟨s, hs, hid, hns, hstate, fun b hb hkey => ?_⟩
  rcases List.mem_append.1 hb with hb | hb
  · exact hbound b hb hkey
  · -- The binding of an audit row already exists, so it is not the new one.
    rw [List.mem_singleton] at hb
    subst hb
    obtain ⟨old, hold, heq⟩ := h.constraints.auditBindings a ha
    dsimp only at heq
    rw [← hkey, BindingRow.key, BindingRow.key, Prod.mk.injEq] at heq
    exact absurd heq.2 (hfresh old hold heq.1).1

theorem auditAdded {row : AuditRow} (h : LibraryInvariant db) (hadded : AuditAdded db db' row) :
    LibraryInvariant db' := by
  have hconstraints := h.constraints.auditAdded hadded
  obtain ⟨⟨s, hs, hid, hns, hactive, b, hb, hbns, hbid, hlineage⟩, rfl⟩ := hadded
  refine { h with constraints := hconstraints, audits := fun a ha => ?_ }
  rcases List.mem_append.1 ha with ha | ha
  · exact h.audits a ha
  · rw [List.mem_singleton] at ha
    subst ha
    refine ⟨s, hs, hid, hns, .inl hactive, fun b' hb' hkey => ?_⟩
    have hsame : b' = b := by
      refine h.constraints.bindingKeys.eq_of_mem hb' hb ?_
      rw [hkey, BindingRow.key, hbns, hbid]
    rw [hsame, hlineage]

end Entry

/-! ## Memory writes -/

theorem proposalAdded {proposal : MemoryProposal} (h : LibraryInvariant db)
    (hadded : storeMemoryProposal db proposal = .ok db') : LibraryInvariant db' := by
  have hconstraints := h.constraints.proposalAdded hadded
  obtain ⟨-, rfl, -, -⟩ := storeMemoryProposal_eq_ok hadded
  refine { h with
    constraints := hconstraints
    recordProposals := fun r hr => ?_
    closedProposals := fun D id hfrozen => ?_ }
  · obtain ⟨p, hp, heq⟩ := h.recordProposals r hr
    exact ⟨p, List.mem_append_left _ hp, heq⟩
  · obtain ⟨p, hp, heq⟩ := h.closedProposals D id hfrozen
    exact ⟨p, List.mem_append_left _ hp, heq⟩

theorem decisionAdded {decision : MemoryDecision} (h : LibraryInvariant db)
    (hadded : storeMemoryDecision db decision = .ok db') : LibraryInvariant db' := by
  have hconstraints := h.constraints.decisionAdded hadded
  obtain ⟨-, -, -, -, -, -, rfl⟩ := storeMemoryDecision_eq_ok hadded
  refine { h with constraints := hconstraints, closedDecisions := fun D id hfrozen => ?_ }
  obtain ⟨d, hd, heq⟩ := h.closedDecisions D id hfrozen
  exact ⟨d, List.mem_append_left _ hd, heq⟩

/-- The proposal behind a materialized record is active and of the same namespace. -/
theorem materialized_proposal {record : MemoryRecord} {initialEvent : MemoryStateEvent}
    {supersededEvents : List MemoryStateEvent} {proposal : MemoryProposal}
    {superseded : List SupersededTarget}
    (h : validateMaterialization db record initialEvent supersededEvents =
      .ok (proposal, superseded)) :
    ∃ p ∈ db.proposals, p.proposalId = record.params.originProposalId ∧
      p.namespaceId = record.params.namespaceId ∧ p.governance.deletionState = .active := by
  simp only [validateMaterialization, Except.bind_eq_ok_iff, Option.orError_eq_ok_iff] at h
  obtain ⟨_, hload, p, rfl, -⟩ := h
  obtain ⟨hlookup, hns, hactive⟩ :=
    activeProposalRow_eq_some_iff.1 (loadMemoryProposalWith_eq_ok_iff.1 hload).row
  exact ⟨_, lookup_mem hlookup, lookup_key hlookup, hns, hactive⟩

omit [Platform] in
/-- Derived rows of records that are not frozen keep the derived tables clean. -/
theorem derivedUpdate {written : Identifier → Prop} (h : LibraryInvariant db)
    (hwritten : ∀ id, written id → ∀ D, ¬ Frozen db D .memoryRecord id)
    (hupdate : DerivedUpdate db db' written) : LibraryInvariant db' := by
  have hconstraints := h.constraints.derivedUpdate hupdate
  have hprojection := hupdate.projection
  have hrecall := hupdate.recallFts
  rw [hupdate.tables] at hconstraints ⊢
  refine { h with
    constraints := hconstraints
    recalledFragments := fun row hrow hkind => ?_
    recalledRecords := fun row hrow hkind => ?_
    projectedRecords := fun row hrow => ?_ }
  · rcases hrecall row hrow with hold | ⟨hmemory, -⟩
    · exact h.recalledFragments row hold hkind
    · rw [hkind] at hmemory
      cases hmemory
  · rcases hrecall row hrow with hold | ⟨-, hnew⟩
    · exact h.recalledRecords row hold hkind
    · exact hwritten _ hnew
  · rcases hprojection row hrow with hnew | ⟨old, hold, heq⟩
    · exact hwritten _ hnew
    · rw [← heq]
      exact h.projectedRecords old hold

theorem memoryAdded {record : MemoryRecord} {initialEvent : MemoryStateEvent}
    {supersededEvents : List MemoryStateEvent} (h : LibraryInvariant db)
    (hadded : materializeAcceptedMemory db record initialEvent supersededEvents = .ok db') :
    LibraryInvariant db' := by
  obtain ⟨proposal, superseded, hm⟩ := materializeAcceptedMemory_eq_ok hadded
  have hcanonical : LibraryInvariant (db.addMaterialized record initialEvent supersededEvents) := by
    refine { h with
      constraints := (h.constraints.recordAdded hm.freshRecord).eventsAdded hm.freshEvents
      recordProposals := fun r hr => ?_
      closedRecords := fun D id hfrozen => ?_ }
    · rcases List.mem_append.1 hr with hr | hr
      · exact h.recordProposals r hr
      · rw [List.mem_singleton] at hr
        subst hr
        obtain ⟨p, hp, hid, hns, hactive⟩ := materialized_proposal hm.valid
        exact ⟨p, hp, hid, hns, fun _ => hactive⟩
    · obtain ⟨r, hr, heq⟩ := h.closedRecords D id hfrozen
      exact ⟨r, List.mem_append_left _ hr, heq⟩
  refine hcanonical.derivedUpdate ?_ hm.derived
  rintro id rfl D hfrozen
  obtain ⟨r, hr, hid, -⟩ := h.closedRecords D _ hfrozen
  exact hm.freshRecord r hr hid

theorem eventAdded {event : MemoryStateEvent} (h : LibraryInvariant db)
    (hadded : appendMemoryStateEvent db event = .ok db') : LibraryInvariant db' := by
  obtain ⟨closure, projected, -, -, -, -, hfresh, hderived⟩ := appendMemoryStateEvent_eq_ok hadded
  have hcanonical : LibraryInvariant (db.addEvents [event]) :=
    { h with constraints := h.constraints.eventsAdded hfresh }
  exact hcanonical.derivedUpdate (fun _ hfalse => hfalse.elim) hderived

/-! ## Derived tables -/

section Derived

omit [Platform]

/-- Full-text rows of active objects are not of frozen ones. -/
theorem recalled_of_sound (hconstraints : Constraints db) (hsound : DerivedSound db)
    (hclosed : ∀ D, ∀ f ∈ db.fragments, Frozen db D .sourceMetadata f.sourceId →
      f.governance.deletionState ≠ .active) :
    ∀ row ∈ db.recallFts, row.key.objectKind = .sourceFragment →
      ∀ f ∈ db.fragments, f.fragmentId = row.key.objectId →
        ∀ D, ¬ Frozen db D .sourceMetadata f.sourceId := by
  intro row hrow hkind f hf hid D hfrozen
  have hactive := hsound.recallFts row hrow
  rw [RecallKey.IsActive, hkind] at hactive
  obtain ⟨g, hg, hgid, hstate⟩ := hactive
  rw [hconstraints.fragmentIds.eq_of_mem hg hf (hgid.trans hid.symm)] at hstate
  exact hclosed D f hf hfrozen hstate

theorem recalled_records_of_sound (hconstraints : Constraints db) (hsound : DerivedSound db)
    (hclosed : ∀ D id, Frozen db D .memoryRecord id → ∃ r ∈ db.records,
      r.memoryId = id ∧ r.governance.deletionState ≠ .active) :
    (∀ row ∈ db.recallFts, row.key.objectKind = .memoryRecord →
      ∀ D, ¬ Frozen db D .memoryRecord row.key.objectId) ∧
    ∀ row ∈ db.projection, ∀ D, ¬ Frozen db D .memoryRecord row.memoryId := by
  have hactive : ∀ id, (∃ r ∈ db.records, r.memoryId = id ∧
      r.governance.deletionState = .active) → ∀ D, ¬ Frozen db D .memoryRecord id := by
    rintro id ⟨r, hr, hrid, hstate⟩ D hfrozen
    obtain ⟨t, ht, htid, hclosed⟩ := hclosed D id hfrozen
    rw [hconstraints.recordIds.eq_of_mem ht hr (htid.trans hrid.symm)] at hclosed
    exact hclosed hstate
  refine ⟨fun row hrow hkind => hactive _ ?_, fun row hrow => hactive _ ?_⟩
  · have := hsound.recallFts row hrow
    rw [RecallKey.IsActive, hkind] at this
    exact this
  · exact hsound.projection row hrow

theorem withDerived {tips : List TipRow} {projection : List ProjectionRow}
    {recallFts : List RecallRow} (h : LibraryInvariant db)
    (hsound : DerivedSound (db.withDerived tips projection recallFts)) :
    LibraryInvariant (db.withDerived tips projection recallFts) := by
  have hconstraints : Constraints (db.withDerived tips projection recallFts) :=
    h.constraints.withDerived hsound.tipKeys
  have hrecords := recalled_records_of_sound hconstraints hsound h.closedRecords
  refine { h with
    constraints := hconstraints
    tipSources := fun tip htip => ?_
    closedLineages := fun D s hs hfrozen =>
      ⟨fun tip htip hkey => ?_, (h.closedLineages D s hs hfrozen).2⟩
    recalledFragments := recalled_of_sound hconstraints hsound h.closedFragments
    recalledRecords := hrecords.1
    projectedRecords := hrecords.2 }
  · obtain ⟨s, hs, -, heq⟩ := hsound.tips tip htip
    exact ⟨s, hs, heq⟩
  · obtain ⟨t, ht, hactive, rfl⟩ := hsound.tips tip htip
    rw [TipRow.key, Prod.mk.injEq] at hkey
    exact (h.closedLineages D s hs hfrozen).2 t ht hkey.1 hkey.2 hactive

end Derived

/-! ## Deletion components -/

section Components

omit [Platform]

/-- Source rows may change as long as their identity and their being active do not. -/
theorem sourcesMapped {f : SourceRow → SourceRow} (h : LibraryInvariant db)
    (hconstraints : Constraints { db with sources := db.sources.map f })
    (hid : ∀ s, (f s).sourceId = s.sourceId) (hns : ∀ s, (f s).namespaceId = s.namespaceId)
    (hlineage : ∀ s, (f s).lineageId = s.lineageId) (hversion : ∀ s, (f s).version = s.version)
    (hstate : ∀ s ∈ db.sources, (f s).governance.deletionState = .active ↔
      s.governance.deletionState = .active) :
    LibraryInvariant { db with sources := db.sources.map f } := by
  have hmap : ∀ {P : SourceRow → Prop}, (∃ s ∈ db.sources, P (f s)) →
      ∃ s ∈ db.sources.map f, P s := by
    rintro P ⟨s, hs, hP⟩
    exact ⟨f s, List.mem_map_of_mem hs, hP⟩
  refine { h with
    constraints := hconstraints
    fragmentNamespaces := fun g hg => hmap ?_
    lineageRoots := fun s hs => ?_
    tipSources := fun tip htip => hmap ?_
    closedSources := fun D id hfrozen => hmap ?_
    closedLineages := fun D s hs hfrozen => ?_
    requestNamespaces := fun r hr s hs hfrozen => ?_
    oneLineage := fun D D' s hs t ht hD hD' => ?_
    audits := fun a ha => hmap ?_ }
  · obtain ⟨s, hs, heq⟩ := h.fragmentNamespaces g hg
    exact ⟨s, hs, by rw [hid, hns]; exact heq⟩
  · obtain ⟨old, hold, rfl⟩ := List.mem_map.1 hs
    obtain ⟨r, hr, heq⟩ := h.lineageRoots old hold
    exact ⟨f r, List.mem_map_of_mem hr, by rw [hns, hlineage, hversion, hns, hlineage]; exact heq⟩
  · obtain ⟨s, hs, heq⟩ := h.tipSources tip htip
    refine ⟨s, hs, ?_⟩
    rw [heq]
    simp only [TipRow.ofSource, hid, hns, hlineage, hversion]
  · obtain ⟨s, hs, heq, hclosed⟩ := h.closedSources D id hfrozen
    exact ⟨s, hs, by rw [hid]; exact heq, fun hactive => hclosed ((hstate s hs).1 hactive)⟩
  · obtain ⟨old, hold, rfl⟩ := List.mem_map.1 hs
    rw [hid] at hfrozen
    rw [hns, hlineage]
    obtain ⟨htips, hsources⟩ := h.closedLineages D old hold hfrozen
    refine ⟨htips, fun t ht htns htlineage hactive => ?_⟩
    obtain ⟨u, hu, rfl⟩ := List.mem_map.1 ht
    rw [hns] at htns
    rw [hlineage] at htlineage
    exact hsources u hu htns htlineage ((hstate u hu).1 hactive)
  · obtain ⟨old, hold, rfl⟩ := List.mem_map.1 hs
    rw [hid] at hfrozen
    rw [hns]
    exact h.requestNamespaces r hr old hold hfrozen
  · obtain ⟨old, hold, rfl⟩ := List.mem_map.1 hs
    obtain ⟨other, hother, rfl⟩ := List.mem_map.1 ht
    rw [hid] at hD hD'
    rw [hns, hns, hlineage, hlineage]
    exact h.oneLineage D D' old hold other hother hD hD'
  · obtain ⟨s, hs, heq, hsns, hopen, hbound⟩ := h.audits a ha
    refine ⟨s, hs, by rw [hid]; exact heq, by rw [hns]; exact hsns, ?_, by rw [hlineage]; exact hbound⟩
    rw [hstate s hs, hid]
    exact hopen

theorem proposalsMapped {f : ProposalRow → ProposalRow} (h : LibraryInvariant db)
    (hconstraints : Constraints { db with proposals := db.proposals.map f })
    (hid : ∀ p, (f p).proposalId = p.proposalId) (hns : ∀ p, (f p).namespaceId = p.namespaceId)
    (hstate : ∀ p ∈ db.proposals, (f p).governance.deletionState = .active ↔
      p.governance.deletionState = .active) :
    LibraryInvariant { db with proposals := db.proposals.map f } := by
  refine { h with
    constraints := hconstraints
    recordProposals := fun r hr => ?_
    closedProposals := fun D id hfrozen => ?_ }
  · obtain ⟨p, hp, heq, hpns, hactive⟩ := h.recordProposals r hr
    refine ⟨f p, List.mem_map_of_mem hp, by rw [hid, heq], by rw [hns, hpns], ?_⟩
    rw [hstate p hp]
    exact hactive
  · obtain ⟨p, hp, heq, hclosed⟩ := h.closedProposals D id hfrozen
    exact ⟨f p, List.mem_map_of_mem hp, by rw [hid, heq],
      fun hactive => hclosed ((hstate p hp).1 hactive)⟩

theorem recordsMapped {f : RecordRow → RecordRow} (h : LibraryInvariant db)
    (hconstraints : Constraints { db with records := db.records.map f })
    (hid : ∀ r, (f r).memoryId = r.memoryId) (hns : ∀ r, (f r).namespaceId = r.namespaceId)
    (horigin : ∀ r, (f r).originProposalId = r.originProposalId)
    (hstate : ∀ r ∈ db.records, (f r).governance.deletionState = .active ↔
      r.governance.deletionState = .active) :
    LibraryInvariant { db with records := db.records.map f } := by
  refine { h with
    constraints := hconstraints
    recordProposals := fun r hr => ?_
    closedRecords := fun D id hfrozen => ?_ }
  · obtain ⟨old, hold, rfl⟩ := List.mem_map.1 hr
    rw [horigin, hns, hstate old hold]
    exact h.recordProposals old hold
  · obtain ⟨r, hr, heq, hclosed⟩ := h.closedRecords D id hfrozen
    exact ⟨f r, List.mem_map_of_mem hr, by rw [hid, heq],
      fun hactive => hclosed ((hstate r hr).1 hactive)⟩

theorem fragmentsDeleted {ids : List Identifier} (h : LibraryInvariant db) :
    LibraryInvariant { db with
      headings := deleteWhere (fun row => ids.contains row.owner) db.headings
      fragments := deleteWhere (fun row => ids.contains row.fragmentId) db.fragments } :=
  { h with
    constraints := h.constraints.fragmentsDeleted
    fragmentNamespaces := fun f hf => h.fragmentNamespaces f (mem_deleteWhere.1 hf).1
    closedFragments := fun D f hf => h.closedFragments D f (mem_deleteWhere.1 hf).1
    recalledFragments := fun row hrow hkind f hf =>
      h.recalledFragments row hrow hkind f (mem_deleteWhere.1 hf).1 }

theorem lineagesPurged {namespaceId : Identifier} {lineages : List Identifier}
    (h : LibraryInvariant db) : LibraryInvariant (db.purgeLineages namespaceId lineages) := by
  refine { h with
    constraints := h.constraints.lineagesPurged
    audits := fun a ha => ?_ }
  obtain ⟨s, hs, heq, hns, hopen, hbound⟩ := h.audits a (mem_deleteWhere.1 ha).1
  exact ⟨s, hs, heq, hns, hopen, fun b hb => hbound b (mem_deleteWhere.1 hb).1⟩

/-- Rows named by frozen ids get a final state, which is not `active`, as before. -/
theorem finalized {sources proposals records : List Identifier} {state : DeletionState}
    {D : Identifier} (h : LibraryInvariant db) (hfinal : state ≠ .active)
    (hsources : IsFrozenList db D .sourceMetadata sources)
    (hproposals : IsFrozenList db D .memoryProposal proposals)
    (hrecords : IsFrozenList db D .memoryRecord records) :
    LibraryInvariant (db.finalize sources proposals records state) := by
  have hfull : Constraints (db.finalize sources proposals records state) :=
    h.constraints.finalized
  have h₁ : LibraryInvariant (db.finalize sources [] [] state) := by
    have hc : Constraints (db.finalize sources [] [] state) := h.constraints.finalized
    have heq : db.finalize sources [] [] state =
        { db with
          sources := db.sources.map fun row =>
            if sources.contains row.sourceId then SourceRow.setState state row else row } := by
      simp [Database.finalize, updateWhere]
    rw [heq] at hc ⊢
    refine h.sourcesMapped hc ?_ ?_ ?_ ?_ ?_
    any_goals
      intro s
      split <;> rfl
    intro s hs
    split
    · rename_i hin
      have hfrozen := (hsources s.sourceId).1 (List.contains_iff_mem.1 hin)
      simp only [SourceRow.setState, hfinal, false_iff]
      exact fun hactive => h.source_not_frozen hs hactive D hfrozen
    · exact Iff.rfl
  have h₂ : LibraryInvariant (db.finalize sources proposals [] state) := by
    have hc : Constraints (db.finalize sources proposals [] state) := h.constraints.finalized
    have heq : db.finalize sources proposals [] state =
        { db.finalize sources [] [] state with
          proposals := (db.finalize sources [] [] state).proposals.map fun row =>
            if proposals.contains row.proposalId then ProposalRow.setState state row
            else row } := by
      simp [Database.finalize, updateWhere]
    rw [heq] at hc ⊢
    refine h₁.proposalsMapped hc ?_ ?_ ?_
    any_goals
      intro p
      split <;> rfl
    intro p hp
    split
    · rename_i hin
      have hfrozen := (hproposals p.proposalId).1 (List.contains_iff_mem.1 hin)
      simp only [ProposalRow.setState, hfinal, false_iff]
      exact fun hactive => h₁.proposal_not_frozen hp hactive D hfrozen
    · exact Iff.rfl
  have heq : db.finalize sources proposals records state =
      { db.finalize sources proposals [] state with
        records := (db.finalize sources proposals [] state).records.map fun row =>
          if records.contains row.memoryId then RecordRow.setState state row else row } := by
    simp [Database.finalize, updateWhere]
  rw [heq] at hfull ⊢
  refine h₂.recordsMapped hfull ?_ ?_ ?_ ?_
  any_goals
    intro r
    split <;> rfl
  intro r hr
  split
  · rename_i hin
    have hfrozen := (hrecords r.memoryId).1 (List.contains_iff_mem.1 hin)
    simp only [RecordRow.setState, hfinal, false_iff]
    exact fun hactive => h₂.record_not_frozen hr hactive D hfrozen
  · exact Iff.rfl

end Components

theorem acted {namespaceId deleteRequestId : Identifier} {hasFailed : Bool}
    {componentType : DeletionComponentType} (h : LibraryInvariant db)
    (heffect : ActionEffect db db' namespaceId deleteRequestId hasFailed componentType) :
    LibraryInvariant db' := by
  have hconstraints := h.constraints.acted heffect
  cases componentType with
  | sourceBody =>
    obtain ⟨ids, -, rfl⟩ := heffect
    exact { h with constraints := hconstraints }
  | sourceMetadata =>
    obtain ⟨ids, -, rfl⟩ := heffect
    refine h.sourcesMapped hconstraints ?_ ?_ ?_ ?_ ?_
    any_goals
      intro s
      split <;> rfl
    intro s _
    split <;> exact Iff.rfl
  | sourceFragment =>
    obtain ⟨ids, -, -, rfl⟩ := heffect
    exact h.fragmentsDeleted
  | memoryProposal =>
    obtain ⟨ids, -, rfl⟩ := heffect
    have hlinks : LibraryInvariant { db with
        proposalFragments := deleteWhere (fun link => ids.contains link.owner)
          db.proposalFragments } :=
      { h with constraints := { h.constraints with
        proposalFragmentOwners := h.constraints.proposalFragmentOwners.delete_child } }
    refine hlinks.proposalsMapped hconstraints ?_ ?_ ?_
    any_goals
      intro p
      split <;> rfl
    intro p _
    split <;> exact Iff.rfl
  | memoryDecision =>
    obtain ⟨ids, -, rfl⟩ := heffect
    refine { h with constraints := hconstraints, closedDecisions := fun D id hfrozen => ?_ }
    obtain ⟨d, hd, heq⟩ := h.closedDecisions D id hfrozen
    refine ⟨_, mem_updateWhere.2 ⟨d, hd, rfl⟩, ?_⟩
    split <;> exact heq
  | memoryRecord =>
    obtain ⟨ids, -, rfl⟩ := heffect
    have hlinks : LibraryInvariant { db with
        recordFragments := deleteWhere (fun link => ids.contains link.owner)
          db.recordFragments } :=
      { h with constraints := { h.constraints with
        recordFragmentOwners := h.constraints.recordFragmentOwners.delete_child } }
    refine hlinks.recordsMapped hconstraints ?_ ?_ ?_ ?_
    any_goals
      intro r
      split <;> rfl
    intro r _
    split <;> exact Iff.rfl
  | memoryStateEvent =>
    rw [show db' = db from heffect]
    exact h
  | fullTextIndex =>
    obtain ⟨targets, keys, -, -, rfl⟩ := heffect
    exact { h with
      constraints := hconstraints
      recalledFragments := fun row hrow => h.recalledFragments row (mem_deleteWhere.1 hrow).1
      recalledRecords := fun row hrow => h.recalledRecords row (mem_deleteWhere.1 hrow).1 }
  | contextCache =>
    rw [show db' = db from heffect]
    exact h
  | minimalAudit =>
    obtain ⟨targets, lineages, sources, proposals, records, -, -, -, hsources, hproposals,
      hrecords, rfl⟩ := heffect
    refine h.lineagesPurged.finalized ?_ hsources hproposals hrecords
    split <;> simp

/-! ## Storing a request -/

section Request

variable {request : DeleteRequest} {closure : ExecutionClosure}

/-- The lineage of a source target has no active source left. -/
theorem target_lineage_closed (h : LibraryInvariant db)
    (hstored : StoredRequest db db' request closure) {s : SourceRow} (hs : s ∈ db.sources)
    (htarget : s.sourceId ∈ request.params.sourceTargets) {t : SourceRow} (ht : t ∈ db'.sources)
    (hns : t.namespaceId = s.namespaceId) (hlineage : t.lineageId = s.lineageId) :
    t.governance.deletionState ≠ .active := by
  obtain ⟨s', hs', hid, hsns, -, hversions, -⟩ :=
    (validateSemanticTargets_eq_ok hstored.semantic).sources _ htarget
  obtain rfl := h.constraints.sourceIds.eq_of_mem hs' hs hid
  obtain ⟨old, hold, rfl⟩ := hstored.mem_sources.1 ht
  by_cases hopen : sourceIsClosed request.params.namespaceId request.params.sourceTargets old = true
  · rw [if_pos hopen]
    simp [SourceRow.setState]
  · rw [if_neg hopen] at hns hlineage ⊢
    intro hactive
    refine hopen ?_
    have hin := hversions old hold (hns.trans hsns) hlineage hactive
    simp [sourceIsClosed, hin, hns.trans hsns, hactive]

/-- An origin proposal of a target record, or a proposal that cites a closed fragment, is active
before the request is stored. -/
theorem closure_proposal_active (h : LibraryInvariant db)
    (hstored : StoredRequest db db' request closure) {id : Identifier}
    (hid : id ∈ closure.proposalIds) :
    ∃ p ∈ db.proposals, p.proposalId = id ∧ p.namespaceId = request.params.namespaceId ∧
      p.governance.deletionState = .active := by
  rcases ((buildExecutionClosure_eq_ok hstored.built).proposalIds id).1 hid with
    ⟨memoryId, -, r, hr, rfl⟩ | ⟨p, hp, hpid, hns, hactive, -⟩
  · obtain ⟨hlookup, hns, hactive⟩ := activeRecordRow_eq_some_iff.1 hr
    obtain ⟨p, hp, hpid, hpns, hpactive⟩ := h.recordProposals r (lookup_mem hlookup)
    exact ⟨p, hp, hpid, hpns.trans hns, hpactive hactive⟩
  · exact ⟨p, hp, hpid, hns, hactive⟩

theorem request_closedSources (h : LibraryInvariant db)
    (hstored : StoredRequest db db' request closure) :
    ∀ D id, Frozen db' D .sourceMetadata id → ∃ s ∈ db'.sources,
      s.sourceId = id ∧ s.governance.deletionState ≠ .active := by
  intro D id hfrozen
  rcases hstored.frozen_source_iff.1 hfrozen with hfrozen | ⟨-, htarget⟩
  · obtain ⟨s, hs, hid, hclosed⟩ := h.closedSources D id hfrozen
    refine ⟨_, hstored.mem_sources.2 ⟨s, hs, rfl⟩, ?_, ?_⟩
    · split <;> exact hid
    · split
      · simp [SourceRow.setState]
      · exact hclosed
  · obtain ⟨s, hs, hid, hns, hactive, -⟩ :=
      (validateSemanticTargets_eq_ok hstored.semantic).sources id htarget
    refine ⟨_, hstored.mem_sources.2 ⟨s, hs, rfl⟩, ?_, ?_⟩
    · split <;> exact hid
    · rw [if_pos (by simp [sourceIsClosed, hid, htarget, hns, hactive])]
      simp [SourceRow.setState]

theorem request_closedRecords (h : LibraryInvariant db)
    (hstored : StoredRequest db db' request closure) :
    ∀ D id, Frozen db' D .memoryRecord id → ∃ r ∈ db'.records,
      r.memoryId = id ∧ r.governance.deletionState ≠ .active := by
  intro D id hfrozen
  rcases hstored.frozen_record_iff.1 hfrozen with hfrozen | ⟨-, htarget⟩
  · obtain ⟨r, hr, hid, hclosed⟩ := h.closedRecords D id hfrozen
    refine ⟨_, hstored.mem_records.2 ⟨r, hr, rfl⟩, ?_, ?_⟩
    · split <;> exact hid
    · split
      · simp [RecordRow.setState]
      · exact hclosed
  · obtain ⟨r, hr, hid, hns, hactive⟩ :=
      (validateSemanticTargets_eq_ok hstored.semantic).records id htarget
    refine ⟨_, hstored.mem_records.2 ⟨r, hr, rfl⟩, ?_, ?_⟩
    · split <;> exact hid
    · rw [if_pos (by simp [recordIsClosed, hid, htarget, hns, hactive])]
      simp [RecordRow.setState]

theorem request_closedProposals (h : LibraryInvariant db)
    (hstored : StoredRequest db db' request closure) :
    ∀ D id, Frozen db' D .memoryProposal id → ∃ p ∈ db'.proposals,
      p.proposalId = id ∧ p.governance.deletionState ≠ .active := by
  intro D id hfrozen
  rcases hstored.frozen_proposal_iff.1 hfrozen with hfrozen | ⟨-, hin⟩
  · obtain ⟨p, hp, hid, hclosed⟩ := h.closedProposals D id hfrozen
    refine ⟨_, hstored.mem_proposals.2 ⟨p, hp, rfl⟩, ?_, ?_⟩
    · split <;> exact hid
    · split
      · simp [ProposalRow.setState]
      · exact hclosed
  · obtain ⟨p, hp, hid, hns, hactive⟩ := h.closure_proposal_active hstored hin
    refine ⟨_, hstored.mem_proposals.2 ⟨p, hp, rfl⟩, ?_, ?_⟩
    · split <;> exact hid
    · rw [if_pos (by simp [proposalIsClosed, hid, hin, hns, hactive])]
      simp [ProposalRow.setState]

theorem request_closedFragments (h : LibraryInvariant db)
    (hstored : StoredRequest db db' request closure) :
    ∀ D, ∀ f ∈ db'.fragments, Frozen db' D .sourceMetadata f.sourceId →
      f.governance.deletionState ≠ .active := by
  intro D f hf hfrozen
  obtain ⟨old, hold, rfl⟩ := hstored.mem_fragments.1 hf
  by_cases hopen : fragmentIsClosed request.params.namespaceId closure old = true
  · rw [if_pos hopen]
    simp [FragmentRow.setState]
  · rw [if_neg hopen] at hfrozen ⊢
    rcases hstored.frozen_source_iff.1 hfrozen with hfrozen | ⟨-, htarget⟩
    · exact h.closedFragments D old hold hfrozen
    · -- An active fragment of a target source is in the closure, so it was closed.
      intro hactive
      obtain ⟨s, hs, hid, hns⟩ := h.fragmentNamespaces old hold
      obtain ⟨s', hs', hid', hns', -⟩ :=
        (validateSemanticTargets_eq_ok hstored.semantic).sources _ htarget
      obtain rfl := h.constraints.sourceIds.eq_of_mem hs' hs (hid'.trans hid.symm)
      have hfns : old.namespaceId = request.params.namespaceId := hns.symm.trans hns'
      have hin := ((buildExecutionClosure_eq_ok hstored.built).fragmentIds old.fragmentId).2
        ⟨old, hold, rfl, htarget, hfns, hactive⟩
      exact hopen (by simp [fragmentIsClosed, hin, hfns, hactive])

theorem request_oneLineage (h : LibraryInvariant db)
    (hstored : StoredRequest db db' request closure) :
    ∀ D D', ∀ s ∈ db'.sources, ∀ t ∈ db'.sources,
      Frozen db' D .sourceMetadata s.sourceId → Frozen db' D' .sourceMetadata t.sourceId →
      s.namespaceId = t.namespaceId → s.lineageId = t.lineageId → D = D' := by
  have hchecked := validateSemanticTargets_eq_ok hstored.semantic
  -- A lineage with an active source was not closed before.
  have hopen : ∀ D, ∀ s ∈ db.sources, ∀ t ∈ db.sources,
      Frozen db D .sourceMetadata s.sourceId → t.sourceId ∈ request.params.sourceTargets →
      t.namespaceId = s.namespaceId → t.lineageId = s.lineageId → False := by
    intro D s hs t ht hfrozen htarget hns hlineage
    obtain ⟨t', ht', hid, -, hactive, -⟩ := hchecked.sources _ htarget
    obtain rfl := h.constraints.sourceIds.eq_of_mem ht' ht hid
    exact (h.closedLineages D s hs hfrozen).2 t' ht hns hlineage hactive
  have hrow : ∀ s ∈ db'.sources, ∃ old ∈ db.sources, old.sourceId = s.sourceId ∧
      old.namespaceId = s.namespaceId ∧ old.lineageId = s.lineageId := by
    intro s hs
    obtain ⟨old, hold, rfl⟩ := hstored.mem_sources.1 hs
    exact ⟨old, hold, by split <;> exact ⟨rfl, rfl, rfl⟩⟩
  intro D D' s hs t ht hD hD' hns hlineage
  obtain ⟨s₀, hs₀, hsid, hsns, hslineage⟩ := hrow s hs
  obtain ⟨t₀, ht₀, htid, htns, htlineage⟩ := hrow t ht
  rw [← hsid] at hD
  rw [← htid] at hD'
  have hns₀ : s₀.namespaceId = t₀.namespaceId := by rw [hsns, htns, hns]
  have hlineage₀ : s₀.lineageId = t₀.lineageId := by rw [hslineage, htlineage, hlineage]
  rcases hstored.frozen_source_iff.1 hD with hold | ⟨rfl, hnew⟩
  · rcases hstored.frozen_source_iff.1 hD' with hold' | ⟨rfl, hnew'⟩
    · exact h.oneLineage D D' s₀ hs₀ t₀ ht₀ hold hold' hns₀ hlineage₀
    · exact (hopen D s₀ hs₀ t₀ ht₀ hold hnew' hns₀.symm hlineage₀.symm).elim
  · rcases hstored.frozen_source_iff.1 hD' with hold' | ⟨rfl, -⟩
    · exact (hopen D' t₀ ht₀ s₀ hs₀ hold' hnew hns₀ hlineage₀).elim
    · rfl

theorem request_oneRecord (h : LibraryInvariant db)
    (hstored : StoredRequest db db' request closure) :
    ∀ D D' id, Frozen db' D .memoryRecord id → Frozen db' D' .memoryRecord id → D = D' := by
  have hopen : ∀ D, ∀ id ∈ request.params.memoryTargets, ¬ Frozen db D .memoryRecord id := by
    intro D id htarget
    obtain ⟨r, hr, rfl, -, hactive⟩ :=
      (validateSemanticTargets_eq_ok hstored.semantic).records id htarget
    exact h.record_not_frozen hr hactive D
  intro D D' id hD hD'
  rcases hstored.frozen_record_iff.1 hD with hold | ⟨rfl, hnew⟩
  · rcases hstored.frozen_record_iff.1 hD' with hold' | ⟨rfl, hnew'⟩
    · exact h.oneRecord D D' id hold hold'
    · exact absurd hold (hopen D id hnew')
  · rcases hstored.frozen_record_iff.1 hD' with hold' | ⟨rfl, -⟩
    · exact absurd hold' (hopen D' id hnew)
    · rfl

theorem request_oneProposal (h : LibraryInvariant db)
    (hstored : StoredRequest db db' request closure) :
    ∀ D D' id, Frozen db' D .memoryProposal id → Frozen db' D' .memoryProposal id → D = D' := by
  have hopen : ∀ D, ∀ id ∈ closure.proposalIds, ¬ Frozen db D .memoryProposal id := by
    intro D id hin
    obtain ⟨p, hp, rfl, -, hactive⟩ := h.closure_proposal_active hstored hin
    exact h.proposal_not_frozen hp hactive D
  intro D D' id hD hD'
  rcases hstored.frozen_proposal_iff.1 hD with hold | ⟨rfl, hnew⟩
  · rcases hstored.frozen_proposal_iff.1 hD' with hold' | ⟨rfl, hnew'⟩
    · exact h.oneProposal D D' id hold hold'
    · exact absurd hold (hopen D id hnew')
  · rcases hstored.frozen_proposal_iff.1 hD' with hold' | ⟨rfl, -⟩
    · exact absurd hold' (hopen D' id hnew)
    · rfl

theorem requestStored (h : LibraryInvariant db)
    (hstored : StoredRequest db db' request closure) : LibraryInvariant db' := by
  have hconstraints : Constraints db' := by
    rw [hstored.result]
    exact (h.constraints.requestAdded hstored.fresh).requestClosed
  have hsound := verifyDerivedIndex_sound hstored.derived
  have hclosedFragments := h.request_closedFragments hstored
  have hclosedRecords := h.request_closedRecords hstored
  have hrecalled := recalled_records_of_sound hconstraints hsound hclosedRecords
  have hsourceRow : ∀ s ∈ db.sources, ∃ t ∈ db'.sources, t.sourceId = s.sourceId ∧
      t.namespaceId = s.namespaceId ∧ t.lineageId = s.lineageId ∧ t.version = s.version := by
    intro s hs
    exact ⟨_, hstored.mem_sources.2 ⟨s, hs, rfl⟩, by split <;> exact ⟨rfl, rfl, rfl, rfl⟩⟩
  have hsourceBack : ∀ t ∈ db'.sources, ∃ s ∈ db.sources, s.sourceId = t.sourceId ∧
      s.namespaceId = t.namespaceId ∧ s.lineageId = t.lineageId ∧
      (t.governance.deletionState = .active → s.governance.deletionState = .active) := by
    intro t ht
    obtain ⟨s, hs, rfl⟩ := hstored.mem_sources.1 ht
    refine ⟨s, hs, ?_⟩
    split
    · exact ⟨rfl, rfl, rfl, fun hactive => by cases hactive⟩
    · exact ⟨rfl, rfl, rfl, id⟩
  have htables : db'.decisions = db.decisions ∧ db'.captureAudit = db.captureAudit ∧
      db'.bindings = db.bindings ∧
      db'.requests = db.requests ++ [RequestRow.ofRequest request.params] := by
    rw [hstored.result]
    exact ⟨rfl, rfl, rfl, rfl⟩
  exact {
    constraints := hconstraints
    fragmentNamespaces := by
      intro f hf
      obtain ⟨old, hold, rfl⟩ := hstored.mem_fragments.1 hf
      obtain ⟨s, hs, hid, hns⟩ := h.fragmentNamespaces old hold
      obtain ⟨t, ht, htid, htns, -⟩ := hsourceRow s hs
      refine ⟨t, ht, ?_⟩
      split <;> exact ⟨htid.trans hid, htns.trans hns⟩
    lineageRoots := by
      intro t ht
      obtain ⟨s, hs, -, hns, hlineage, -⟩ := hsourceBack t ht
      obtain ⟨r, hr, hrns, hrlineage, hversion⟩ := h.lineageRoots s hs
      obtain ⟨u, hu, -, huns, hulineage, huversion⟩ := hsourceRow r hr
      exact ⟨u, hu, huns.trans (hrns.trans hns), hulineage.trans (hrlineage.trans hlineage),
        by rw [huversion, hversion]⟩
    tipSources := by
      intro tip htip
      obtain ⟨s, hs, -, heq⟩ := hsound.tips tip htip
      exact ⟨s, hs, heq⟩
    recordProposals := by
      intro r hr
      by_cases hactive : r.governance.deletionState = .active
      · obtain ⟨resolved, records, hread, -⟩ := verifyDerivedIndex_eq_ok hstored.derived
        obtain ⟨p, hp, hid, hns, hstate⟩ :=
          hread.proposal_active hr hactive hconstraints.recordIds
        exact ⟨p, hp, hid, hns, fun _ => hstate⟩
      · obtain ⟨old, hold, rfl⟩ := hstored.mem_records.1 hr
        obtain ⟨p, hp, hid, hns, -⟩ := h.recordProposals old hold
        refine ⟨_, hstored.mem_proposals.2 ⟨p, hp, rfl⟩, ?_, ?_, fun hc => absurd hc hactive⟩
        · split <;> split <;> exact hid
        · split <;> split <;> exact hns
    closedSources := h.request_closedSources hstored
    closedLineages := by
      intro D s hs hfrozen
      have hnone : ∀ t ∈ db'.sources, t.namespaceId = s.namespaceId →
          t.lineageId = s.lineageId → t.governance.deletionState ≠ .active := by
        intro t ht hns hlineage
        obtain ⟨s₀, hs₀, hid, hsns, hslineage, -⟩ := hsourceBack s hs
        rw [← hid] at hfrozen
        rw [← hsns] at hns
        rw [← hslineage] at hlineage
        rcases hstored.frozen_source_iff.1 hfrozen with hold | ⟨-, htarget⟩
        · obtain ⟨t₀, ht₀, -, htns, htlineage, hstate⟩ := hsourceBack t ht
          intro hactive
          exact (h.closedLineages D s₀ hs₀ hold).2 t₀ ht₀ (htns.trans hns)
            (htlineage.trans hlineage) (hstate hactive)
        · exact h.target_lineage_closed hstored hs₀ htarget ht hns hlineage
      refine ⟨fun tip htip hkey => ?_, hnone⟩
      obtain ⟨t, ht, hactive, rfl⟩ := hsound.tips tip htip
      rw [TipRow.key, Prod.mk.injEq] at hkey
      exact hnone t ht hkey.1 hkey.2 hactive
    closedFragments := hclosedFragments
    closedRecords := hclosedRecords
    closedProposals := h.request_closedProposals hstored
    closedDecisions := by
      intro D id hfrozen
      rw [htables.1]
      rcases hstored.frozen_iff.1 hfrozen with hold | ⟨-, hin⟩
      · exact h.closedDecisions D id hold
      · rw [ExecutionClosure.refs, mem_refSet_ids] at hin
        obtain ⟨d, hd, hid, -⟩ :=
          ((buildExecutionClosure_eq_ok hstored.built).decisionIds id).1 hin
        exact ⟨d, hd, hid⟩
    requestNamespaces := by
      intro r hr s hs hfrozen
      obtain ⟨s₀, hs₀, hid, hns, -⟩ := hsourceBack s hs
      rw [← hid] at hfrozen
      rw [← hns]
      rw [htables.2.2.2] at hr
      rcases List.mem_append.1 hr with hr | hr
      · rcases hstored.frozen_source_iff.1 hfrozen with hold | ⟨heq, -⟩
        · exact h.requestNamespaces r hr s₀ hs₀ hold
        · exact absurd heq (hstored.fresh r hr)
      · rw [List.mem_singleton] at hr
        subst hr
        rcases hstored.frozen_source_iff.1 hfrozen with hold | ⟨-, htarget⟩
        · exact absurd hold (hstored.not_frozen h.constraints _ _)
        · obtain ⟨s', hs', hid', hns', -⟩ :=
            (validateSemanticTargets_eq_ok hstored.semantic).sources _ htarget
          obtain rfl := h.constraints.sourceIds.eq_of_mem hs' hs₀ hid'
          exact hns'
    oneLineage := h.request_oneLineage hstored
    oneRecord := h.request_oneRecord hstored
    oneProposal := h.request_oneProposal hstored
    recalledFragments := recalled_of_sound hconstraints hsound hclosedFragments
    recalledRecords := hrecalled.1
    projectedRecords := hrecalled.2
    audits := by
      intro a ha
      rw [htables.2.1] at ha
      rw [htables.2.2.1]
      obtain ⟨s, hs, hid, hns, hopen, hbound⟩ := h.audits a ha
      have hfrozen : ∀ D, Frozen db D .sourceMetadata s.sourceId →
          Frozen db' D .sourceMetadata s.sourceId := fun D hold =>
        hstored.frozen_source_iff.2 (.inl hold)
      refine ⟨_, hstored.mem_sources.2 ⟨s, hs, rfl⟩, ?_⟩
      split
      · rename_i hclosed
        have htarget : s.sourceId ∈ request.params.sourceTargets := by
          simp only [sourceIsClosed, Bool.and_eq_true, List.contains_iff_mem] at hclosed
          exact hclosed.1.1
        exact ⟨hid, hns, .inr ⟨_, hstored.frozen_source_iff.2 (.inr ⟨rfl, htarget⟩)⟩, hbound⟩
      · refine ⟨hid, hns, ?_, hbound⟩
        rcases hopen with hactive | ⟨D, hold⟩
        · exact .inl hactive
        · exact .inr ⟨D, hfrozen D hold⟩ }

end Request

/-! ## Every change and every run -/

/-- Every change keeps the invariant. -/
theorem step {c : Change} (h : LibraryInvariant db) (happlies : c.Applies db db') :
    LibraryInvariant db' := by
  cases c with
  | source new => exact h.sourceAdded happlies
  | binding row => exact h.bindingAdded happlies.2
  | fragments owner new => exact h.fragmentsAdded happlies
  | audit row => exact h.auditAdded happlies
  | proposal new => exact h.proposalAdded happlies
  | decision new => exact h.decisionAdded happlies
  | memory record initialEvent supersededEvents => exact h.memoryAdded happlies
  | event new => exact h.eventAdded happlies
  | derived =>
    obtain ⟨tips, projection, recallFts, rfl, hsound⟩ := happlies
    exact h.withDerived hsound
  | request new closure => exact h.requestStored happlies
  | attempt deleteRequestId =>
    obtain ⟨checkedAt, n, hopen⟩ := happlies
    have hconstraints := h.constraints.attemptAdded hopen
    obtain ⟨-, -, rfl⟩ := insertNextAttempt_eq_ok hopen
    exact { h with constraints := hconstraints }
  | component executed attemptOrdinal componentType =>
    obtain ⟨planned, result, acted, hdone⟩ := happlies
    have hacted := h.acted hdone.effect
    have hconstraints := hacted.constraints.resultAdded hdone.result
    obtain ⟨-, -, -, rfl⟩ := Database.insertResult_eq_ok_iff.1 hdone.result
    exact { hacted with constraints := hconstraints }
  | failure executed attemptOrdinal componentType =>
    obtain ⟨planned, result, hrecorded⟩ := happlies
    have hconstraints := h.constraints.resultAdded hrecorded.result
    obtain ⟨-, -, -, rfl⟩ := Database.insertResult_eq_ok_iff.1 hrecorded.result
    exact { h with constraints := hconstraints }
  | evidence new executionOrdinal =>
    have hconstraints : Constraints db' :=
      h.constraints.step (c := .evidence new executionOrdinal) happlies
    obtain ⟨-, rfl⟩ := Database.insertEvidenceRow_eq_ok happlies.2
    exact { h with constraints := hconstraints }

theorem op {operation : Op} (h : LibraryInvariant db) :
    LibraryInvariant (operation.apply db) :=
  Op.preserves (fun _ _ _ hP _ happlies => hP.step happlies) h.constraints.resultAttempts h

/-- The invariant holds after every run that starts with it. -/
theorem run (h : LibraryInvariant db) (ops : List Op) : LibraryInvariant (runOps db ops) :=
  runOps_invariant (fun _ _ h => h.op) h ops

/-- What is frozen stays frozen. -/
theorem frozen_op {operation : Op} (h : LibraryInvariant db) {D id : Identifier}
    {componentType : DeletionComponentType} (hfrozen : Frozen db D componentType id) :
    Frozen (operation.apply db) D componentType id :=
  Op.preserves (P := fun db => Frozen db D componentType id)
    (fun _ _ _ hP _ happlies => happlies.frozen hP) h.constraints.resultAttempts hfrozen

theorem frozen_run (h : LibraryInvariant db) (ops : List Op) {D id : Identifier}
    {componentType : DeletionComponentType} (hfrozen : Frozen db D componentType id) :
    Frozen (runOps db ops) D componentType id := by
  induction ops generalizing db with
  | nil => exact hfrozen
  | cons operation rest ih => exact ih h.op (h.frozen_op hfrozen)

end LibraryInvariant

/-- Every library that operations can produce satisfies the invariant. -/
theorem libraryInvariant_of_run (ops : List Op) : LibraryInvariant (runOps .empty ops) :=
  LibraryInvariant.empty.run ops

end RadishMemory
