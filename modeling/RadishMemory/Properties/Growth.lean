import RadishMemory.Properties.ReadBack

/-!
# Source writes leave memories readable

A source write adds rows to the tables of sources and fragments and touches no memory table.  Every
source and fragment that could be read is read as before (`Grows`), and so is every proposal,
decision and record: their reads ask for nothing else.
-/

namespace RadishMemory

variable [Platform] {db db' : Database}

/-- The tables of memories are the same. -/
structure SameMemories (db db' : Database) : Prop where
  proposals : db'.proposals = db.proposals
  proposalFragments : db'.proposalFragments = db.proposalFragments
  proposalTargets : db'.proposalTargets = db.proposalTargets
  decisions : db'.decisions = db.decisions
  records : db'.records = db.records
  recordFragments : db'.recordFragments = db.recordFragments
  recordSupersedes : db'.recordSupersedes = db.recordSupersedes
  recordContradicts : db'.recordContradicts = db.recordContradicts
  events : db'.events = db.events
  eventRelated : db'.eventRelated = db.eventRelated

/-- The library has grown by sources or fragments: what could be read of them still can. -/
structure Grows (db db' : Database) : Prop where
  source : ∀ namespaceId sourceId source,
    loadSourceArtifact db namespaceId sourceId = .ok (some source) →
      loadSourceArtifact db' namespaceId sourceId = .ok (some source)
  fragment : ∀ namespaceId fragmentId resolved,
    loadResolvedSourceFragment db namespaceId fragmentId = .ok (some resolved) →
      loadResolvedSourceFragment db' namespaceId fragmentId = .ok (some resolved)
  memories : SameMemories db db'

theorem Grows.resolveFragments (h : Grows db db') {namespaceId : Identifier}
    {missing : SqliteError} {fragmentIds : List Identifier} {resolved : List ResolvedSource}
    (hresolve : resolveFragments loadSourceArtifact db namespaceId missing fragmentIds =
      .ok resolved) :
    resolveFragments loadSourceArtifact db' namespaceId missing fragmentIds = .ok resolved := by
  unfold RadishMemory.resolveFragments at *
  rw [List.mapM_eq_ok_iff] at *
  refine hresolve.imp fun fragmentId source hload => ?_
  simp only [Except.bind_eq_ok_iff, Option.orError_eq_ok_iff] at *
  obtain ⟨found, hfound, rfl⟩ := hload
  exact ⟨_, h.fragment _ _ _ hfound, rfl⟩

theorem Grows.loadMemoryProposal (h : Grows db db') {namespaceId proposalId : Identifier}
    {proposal : MemoryProposal}
    (hload : loadMemoryProposalWith loadSourceArtifact db namespaceId proposalId =
      .ok (some proposal)) :
    loadMemoryProposalWith loadSourceArtifact db' namespaceId proposalId =
      .ok (some proposal) := by
  unfold loadMemoryProposalWith activeProposalRow memoryExistsInNamespace at *
  rw [h.memories.proposals, h.memories.proposalFragments, h.memories.proposalTargets,
    h.memories.records]
  split at hload
  · cases hload
  · simp only [Except.bind_eq_ok_iff, Except.exists_unit_iff, Except.pure_eq_ok_iff,
      validateProposalSources, Except.mapError_eq_ok_iff, require_eq_ok_iff] at *
    obtain ⟨sources, hsources, targets, htargets, stored, hstored, ⟨resolved, hresolved, hvalid⟩,
      hexist, hproposal⟩ := hload
    exact ⟨sources, hsources, targets, htargets, stored, hstored,
      ⟨resolved, h.resolveFragments hresolved, hvalid⟩, hexist, hproposal⟩

theorem Grows.loadMemoryDecision (h : Grows db db') {namespaceId decisionId : Identifier}
    {decision : MemoryDecision}
    (hload : loadMemoryDecisionWith loadSourceArtifact db namespaceId decisionId =
      .ok (some decision)) :
    loadMemoryDecisionWith loadSourceArtifact db' namespaceId decisionId =
      .ok (some decision) := by
  unfold loadMemoryDecisionWith loadDecisionChain at *
  rw [h.memories.decisions]
  split at hload
  · cases hload
  · simp only [Except.bind_eq_ok_iff, Option.orError_eq_ok_iff] at *
    obtain ⟨_, hproposal, proposal, rfl, chain⟩ := hload
    exact ⟨_, h.loadMemoryProposal hproposal, proposal, rfl, chain⟩

omit [Platform] in
theorem SameMemories.loadEventChain (h : SameMemories db db') (namespaceId memoryId : Identifier) :
    loadEventChain db' namespaceId memoryId = loadEventChain db namespaceId memoryId := by
  have hstored : loadStoredEvent db' namespaceId memoryId =
      loadStoredEvent db namespaceId memoryId := by
    funext row
    rw [loadStoredEvent, loadStoredEvent, h.eventRelated]
  rw [RadishMemory.loadEventChain, RadishMemory.loadEventChain, hstored, h.events]

omit [Platform] in
theorem SameMemories.memoryExists (h : SameMemories db db') (namespaceId memoryId : Identifier) :
    memoryExistsInNamespace db' namespaceId memoryId =
      memoryExistsInNamespace db namespaceId memoryId := by
  rw [memoryExistsInNamespace, memoryExistsInNamespace, h.records]

theorem SameMemories.validateEventReferences (h : SameMemories db db') (record : MemoryRecord)
    (event : MemoryStateEvent) :
    validateEventReferences db' record event true none =
      validateEventReferences db record event true none := by
  simp only [RadishMemory.validateEventReferences, decisionExistsInNamespace, h.decisions,
    h.memoryExists]

theorem SameMemories.validateStoredSupersessionCause (h : SameMemories db db')
    (record : MemoryRecord) (event : MemoryStateEvent) :
    validateStoredSupersessionCause db' record event =
      validateStoredSupersessionCause db record event := by
  simp only [RadishMemory.validateStoredSupersessionCause, h.records, h.proposals,
    h.proposalTargets, h.recordSupersedes]

theorem Grows.loadRecordBase (h : Grows db db') {namespaceId : Identifier} {row : RecordRow}
    {loaded : LoadedRecord}
    (hload : loadRecordBase loadSourceArtifact db namespaceId row = .ok loaded) :
    loadRecordBase loadSourceArtifact db' namespaceId row = .ok loaded := by
  have hm := h.memories
  simp only [RadishMemory.loadRecordBase, hm.recordFragments, hm.recordSupersedes,
    hm.recordContradicts, hm.loadEventChain, hm.validateEventReferences,
    hm.validateStoredSupersessionCause, hm.memoryExists, Except.bind_eq_ok_iff,
    Except.exists_unit_iff, Option.orError_eq_ok_iff, Except.mapError_eq_ok_iff] at *
  obtain ⟨sources, hsources, supersedes, hsupersedes, contradicts, hcontradicts, events, hevents,
    root, hroot, hconfirmed, initial, hinitial, _, hproposal, proposal, rfl, _, hdecision,
    decision, rfl, hrest⟩ := hload
  exact ⟨sources, hsources, supersedes, hsupersedes, contradicts, hcontradicts, events, hevents,
    root, hroot, hconfirmed, initial, hinitial, _, h.loadMemoryProposal hproposal, proposal, rfl,
    _, h.loadMemoryDecision hdecision, decision, rfl, hrest⟩

/-- A record that could be read is read with the same closure. -/
theorem Grows.closureInner (h : Grows db db') {namespaceId : Identifier} {bound : Nat}
    {memoryId : Identifier} {visiting : List Identifier} {closure : RecordClosure}
    (hload : loadMemoryRecordClosureInner loadSourceArtifact db namespaceId bound memoryId
      visiting = .ok (some closure)) :
    loadMemoryRecordClosureInner loadSourceArtifact db' namespaceId bound memoryId visiting =
      .ok (some closure) := by
  induction bound generalizing memoryId visiting closure with
  | zero => cases hload
  | succ bound ih =>
    have hrow : activeRecordRow db' namespaceId memoryId =
        activeRecordRow db namespaceId memoryId := by
      rw [activeRecordRow, activeRecordRow, h.memories.records]
    unfold loadMemoryRecordClosureInner at hload ⊢
    rw [hrow]
    split at hload
    · cases hload
    · simp only [Except.bind_eq_ok_iff, Except.exists_unit_iff] at hload ⊢
      obtain ⟨hvisiting, loaded, hbase, hrest⟩ := hload
      refine ⟨hvisiting, loaded, h.loadRecordBase hbase, ?_⟩
      by_cases hsupersede : loaded.proposal.params.operation = .supersede
      · rw [if_pos hsupersede] at hrest ⊢
        simp only [Except.bind_eq_ok_iff, Except.exists_unit_iff, List.mapM_eq_ok_iff] at hrest ⊢
        obtain ⟨targets, htargets, hvalid⟩ := hrest
        refine ⟨targets, htargets.imp fun targetId target htarget => ?_, hvalid⟩
        simp only [Option.orError_eq_ok_iff] at htarget ⊢
        obtain ⟨_, hfound, found, rfl, hrest⟩ := htarget
        exact ⟨_, ih hfound, found, rfl, hrest⟩
      · rw [if_neg hsupersede] at hrest ⊢
        exact hrest

theorem Grows.closure (h : Grows db db') {namespaceId memoryId : Identifier}
    {closure : RecordClosure}
    (hload : loadMemoryRecordClosureWith loadSourceArtifact db namespaceId memoryId =
      .ok (some closure)) :
    loadMemoryRecordClosureWith loadSourceArtifact db' namespaceId memoryId =
      .ok (some closure) := by
  unfold loadMemoryRecordClosureWith at hload ⊢
  rw [h.memories.records]
  exact h.closureInner hload

/-! ## What a stored source changes -/

variable {source : SourceArtifact}

/-- The rows that a stored source adds, and the full-text rows that it takes away. -/
structure SourceStored (db db' : Database) (source : SourceArtifact) : Prop where
  added : SourceAdded db db' source
  origin : source.params.originKind ≠ .explicitUserInput
  freshBody : ∀ b ∈ db.bodies, b.sourceId ≠ source.params.sourceId
  targets : ∀ id ∈ source.params.supersedesSourceIds, ∃ t,
    lookup SourceRow.sourceId db.sources id = some t ∧
      supersededSourceMatches source.params t = true

theorem storeSourceArtifact_stored (h : storeSourceArtifact db source = .ok db') :
    SourceStored db db' source := by
  obtain ⟨horigin, hinsert, htip⟩ := storeSourceArtifact_eq_ok h
  obtain ⟨-, -, hsuperseded, -⟩ := insertSourceArtifact_eq_ok hinsert
  refine ⟨sourceAdded_of_insert hinsert htip, horigin, ?_, fun id hid => ?_⟩
  · simp only [insertSourceArtifact, insertSourceMetadata, Except.bind_eq_ok_iff] at hinsert
    obtain ⟨_, ⟨-, -, -, -, -, -, _, hmetadata, hlinks⟩, hbody⟩ := hinsert
    obtain ⟨-, -, rfl⟩ := Database.insertSource_eq_ok_iff.1 hmetadata
    obtain ⟨rfl, -⟩ := Database.insertSourceSupersedes_eq_ok hlinks
    exact (Database.insertBody_eq_ok_iff.1 hbody).2.1
  · obtain ⟨target, hlookup, hns, hlineage, hversion⟩ :=
      validateSupersededSources_eq_ok hsuperseded id hid
    refine ⟨target, hlookup, ?_⟩
    simp [supersededSourceMatches, hns, hlineage, hversion]

namespace SourceStored

/-- Every table that the write leaves alone. -/
theorem frame (h : SourceStored db db' source) :
    SameMemories db db' ∧ db'.fragments = db.fragments ∧ db'.headings = db.headings ∧
      db'.bindings = db.bindings ∧ db'.captureAudit = db.captureAudit ∧
      db'.projection = db.projection := by
  rcases h.added.tip with ⟨-, -, rfl⟩ | ⟨current, -, -, -, -, rfl⟩ <;>
    exact ⟨⟨rfl, rfl, rfl, rfl, rfl, rfl, rfl, rfl, rfl, rfl⟩, rfl, rfl, rfl, rfl, rfl⟩

theorem bodies (h : SourceStored db db' source) :
    db'.bodies = db.bodies ++ [BodyRow.ofArtifact source.params] := by
  rcases h.added.tip with ⟨-, -, rfl⟩ | ⟨current, -, -, -, -, rfl⟩ <;> rfl

theorem supersedes (h : SourceStored db db' source) :
    db'.sourceSupersedes = db.sourceSupersedes ++
      enumerate source.params.sourceId 0 source.params.supersedesSourceIds := by
  rcases h.added.tip with ⟨-, -, rfl⟩ | ⟨current, -, -, -, -, rfl⟩ <;> rfl

/-- The new source takes the place of the tip of its lineage. -/
theorem mem_tips (h : SourceStored db db' source) (hc : Constraints db) {tip : TipRow} :
    tip ∈ db'.tips ↔ tip = TipRow.ofSource (SourceRow.ofArtifact source.params) ∨
      (tip ∈ db.tips ∧ tip.key ≠ (source.params.namespaceId, source.params.lineageId)) := by
  rcases h.added.tip with ⟨hnone, -, rfl⟩ | ⟨current, hcurrent, -, -, -, rfl⟩
  · rw [lineageTip, lookup_eq_none_iff] at hnone
    simp only [Database.startLineage, List.mem_append, List.mem_singleton]
    constructor
    · rintro (htip | htip)
      · exact .inr ⟨htip, hnone tip htip⟩
      · exact .inl htip
    · rintro (htip | ⟨htip, -⟩)
      · exact .inr htip
      · exact .inl htip
  · have hkey : current.key = (source.params.namespaceId, source.params.lineageId) :=
      lookup_key hcurrent
    have hnew : { current with
        sourceId := source.params.sourceId, version := source.params.version.get } =
        TipRow.ofSource (SourceRow.ofArtifact source.params) := by
      simp only [TipRow.key, Prod.mk.injEq] at hkey
      simp [TipRow.ofSource, SourceRow.ofArtifact, hkey]
    simp only [Database.replaceTip, mem_updateWhere, beq_iff_eq]
    constructor
    · rintro ⟨old, hold, rfl⟩
      by_cases heq : old = current
      · rw [if_pos heq, heq]
        exact .inl hnew
      · rw [if_neg heq]
        refine .inr ⟨hold, fun hold' => heq ?_⟩
        exact hc.tipKeys.eq_of_mem hold (lookup_mem hcurrent) (hold'.trans hkey.symm)
    · rintro (rfl | ⟨htip, hne⟩)
      · exact ⟨current, lookup_mem hcurrent, by rw [if_pos rfl, hnew]⟩
      · have hother : tip ≠ current := by
          rintro rfl
          exact hne hkey
        exact ⟨tip, htip, if_neg hother⟩

/-- The fragments of the old tip leave the full-text table. -/
theorem mem_recallFts (h : SourceStored db db' source) (hc : Constraints db) {row : RecallRow} :
    row ∈ db'.recallFts ↔ row ∈ db.recallFts ∧ ∀ tip ∈ db.tips,
      tip.key = (source.params.namespaceId, source.params.lineageId) →
        ¬ (row.key.objectKind = .sourceFragment ∧
          ∃ f ∈ db.fragments, f.sourceId = tip.sourceId ∧ f.fragmentId = row.key.objectId) := by
  rcases h.added.tip with ⟨hnone, -, rfl⟩ | ⟨current, hcurrent, -, -, -, rfl⟩
  · rw [lineageTip, lookup_eq_none_iff] at hnone
    exact (and_iff_left fun tip htip hkey => absurd hkey (hnone tip htip)).symm
  · have hkey : current.key = (source.params.namespaceId, source.params.lineageId) :=
      lookup_key hcurrent
    have honly : ∀ tip ∈ db.tips,
        tip.key = (source.params.namespaceId, source.params.lineageId) → tip = current :=
      fun tip htip hkey' => hc.tipKeys.eq_of_mem htip (lookup_mem hcurrent)
        (hkey'.trans hkey.symm)
    simp only [Database.replaceTip, Database.removeSourceFragments, mem_deleteWhere]
    refine and_congr Iff.rfl ?_
    rw [← Bool.not_eq_true, Bool.and_eq_true, beq_iff_eq, List.contains_iff_mem]
    simp only [Database.fragmentIdsOf, List.mem_map, List.mem_filter, beq_iff_eq, and_assoc]
    constructor
    · intro hremoved tip htip hkey'
      rw [honly tip htip hkey']
      exact hremoved
    · exact fun hall => hall current (lookup_mem hcurrent) hkey

theorem lookup_source (h : SourceStored db db' source) {id : Identifier} {row : SourceRow}
    (hlookup : lookup SourceRow.sourceId db.sources id = some row) :
    lookup SourceRow.sourceId db'.sources id = some row := by
  rw [h.added.sources]
  exact lookup_append_of_some hlookup

theorem grows (h : SourceStored db db' source) : Grows db db' := by
  obtain ⟨hmemories, hfragments, hheadings, -⟩ := h.frame
  have hsource : ∀ namespaceId sourceId loaded,
      loadSourceArtifact db namespaceId sourceId = .ok (some loaded) →
        loadSourceArtifact db' namespaceId sourceId = .ok (some loaded) := by
    intro namespaceId sourceId loaded hload
    obtain ⟨hread, hrest⟩ := loadSourceArtifact_eq_ok_iff.1 hload
    have hne : source.params.sourceId ≠ loaded.params.sourceId :=
      fun heq => h.added.fresh _ (lookup_mem hread.row) heq.symm
    refine loadSourceArtifact_eq_ok_iff.2 ⟨⟨h.lookup_source hread.row, ?_, ?_, ?_⟩, hrest⟩
    · rw [h.bodies]
      exact lookup_append_of_some hread.body
    · rw [loadSupersededIds, h.supersedes, loadChildren_append_of_ne]
      · exact hread.supersedes
      · intro link hlink
        rw [(mem_enumerate hlink).1]
        exact hne
    · intro id hid
      obtain ⟨t, ht, hmatches⟩ := hread.targets id hid
      exact ⟨t, h.lookup_source ht, hmatches⟩
  refine ⟨hsource, fun namespaceId fragmentId resolved hload => ?_, hmemories⟩
  have hread := loadResolvedSourceFragment_eq_ok_iff.1 hload
  refine loadResolvedSourceFragment_eq_ok_iff.2 ⟨?_, ?_, hsource _ _ _ hread.source,
    hread.resolution⟩
  · rw [activeFragmentRow, hfragments]
    exact hread.row
  · rw [loadHeadingPath, hheadings]
    exact hread.headings

/-- The stored source can be read if it is active. -/
theorem loads (h : SourceStored db db' source) (hc : Constraints db)
    (hactive : source.params.governance.deletionState = .active) :
    loadSourceArtifact db' source.params.namespaceId source.params.sourceId =
      .ok (some source) := by
  refine loadSourceArtifact_eq_ok_iff.2 ⟨⟨?_, ?_, ?_, ?_⟩, rfl, rfl, hactive⟩
  · rw [h.added.sources]
    exact lookup_append_singleton h.added.fresh
  · rw [h.bodies]
    exact lookup_append_singleton h.freshBody
  · rw [loadSupersededIds, h.supersedes]
    refine loadChildren_append_enumerate fun link hlink heq => ?_
    obtain ⟨s, hs, hid⟩ := hc.supersedesSources link hlink
    exact h.added.fresh s hs (hid.trans heq)
  · intro id hid
    obtain ⟨t, ht, hmatches⟩ := h.targets id hid
    exact ⟨t, h.lookup_source ht, hmatches⟩

theorem mem_sources (h : SourceStored db db' source) {s : SourceRow} :
    s ∈ db'.sources ↔ s ∈ db.sources ∨ s = SourceRow.ofArtifact source.params := by
  rw [h.added.sources, List.mem_append, List.mem_singleton]

end SourceStored

/-! ## What stored fragments change -/

namespace FragmentsAdded

variable {fragments : List SourceFragment}

theorem mem_fragments (h : FragmentsAdded db db' source fragments) {row : FragmentRow} :
    row ∈ db'.fragments ↔ row ∈ db.fragments ∨
      ∃ f ∈ fragments, FragmentRow.ofFragment f.params = row := by
  rw [h.result, Database.addFragments, List.mem_append, List.mem_map]

theorem source_of_mem (h : FragmentsAdded db db' source fragments) {f : SourceFragment}
    (hf : f ∈ fragments) : f.params.sourceId = source.params.sourceId ∧
      f.params.namespaceId = source.params.namespaceId := by
  obtain ⟨hsource, hns, -⟩ := validateSourceFragmentResolution_eq_ok_iff.1 (h.resolved f hf)
  exact ⟨hsource, hns⟩

theorem headings_of_old (h : FragmentsAdded db db' source fragments) {row : FragmentRow}
    (hrow : row ∈ db.fragments) :
    loadHeadingPath db' row.fragmentId = loadHeadingPath db row.fragmentId := by
  rw [loadHeadingPath, loadHeadingPath, h.result, Database.addFragments,
    loadChildren_append_of_ne]
  intro heading hheading
  obtain ⟨f, hf, hheading⟩ := List.mem_flatMap.1 hheading
  rw [(mem_enumerate hheading).1]
  exact (h.fresh.ids f hf row hrow).symm

theorem headings_of_new (h : FragmentsAdded db db' source fragments) (hc : Constraints db)
    {f : SourceFragment} (hf : f ∈ fragments) :
    loadHeadingPath db' f.params.fragmentId = .ok f.params.headingPath := by
  have hheadings : loadChildren (SqliteError.invalidStored .storedIntegrityMismatch)
      db'.headings f.params.fragmentId = .ok (f.params.headingPath.getD []) := by
    refine loadChildren_of_filter ?_
    have hold : db.headings.filter (fun c => decide (c.owner = f.params.fragmentId)) = [] := by
      refine List.filter_eq_nil_iff.2 fun row hrow => ?_
      obtain ⟨g, hg, hid⟩ := hc.headingFragments row hrow
      simp only [decide_eq_true_eq]
      exact fun heq => h.fresh.ids f hf g hg (hid.trans heq)
    rw [h.result, Database.addFragments, List.filter_append, hold, List.nil_append]
    exact filter_flatMap_enumerate (fun f : SourceFragment => f.params.fragmentId)
      (fun f => f.params.headingPath.getD []) h.fresh.distinct hf
  have hpath : f.params.headingPath ≠ some [] := by
    have hvalid := f.valid
    simp only [SourceFragmentParams.check, Except.bind_eq_ok_iff, Except.exists_unit_iff,
      require_eq_ok_iff] at hvalid
    exact hvalid.2.2.1
  rw [loadHeadingPath, hheadings, Except.ok_bind]
  cases hcase : f.params.headingPath with
  | none => rfl
  | some path =>
    rw [Option.getD_some, if_neg]
    · rfl
    · exact fun hnil => hpath (by rw [hcase, hnil])

theorem loadSource_eq (h : FragmentsAdded db db' source fragments) :
    loadSourceArtifact db' = loadSourceArtifact db := by
  rw [h.result]
  rfl

theorem grows (h : FragmentsAdded db db' source fragments) : Grows db db' := by
  refine ⟨fun namespaceId sourceId loaded hload => ?_, fun namespaceId fragmentId resolved hload =>
    ?_, ?_⟩
  · rw [h.loadSource_eq]
    exact hload
  · have hread := loadResolvedSourceFragment_eq_ok_iff.1 hload
    obtain ⟨hlookup, hns, hactive⟩ := activeFragmentRow_eq_some_iff.1 hread.row
    refine loadResolvedSourceFragment_eq_ok_iff.2 ⟨?_, ?_, ?_, hread.resolution⟩
    · refine activeFragmentRow_eq_some_iff.2 ⟨?_, hns, hactive⟩
      rw [h.result]
      exact lookup_append_of_some hlookup
    · have hheadings := h.headings_of_old (lookup_mem hlookup)
      have hid := lookup_key hlookup
      rw [hid] at hheadings
      rw [hheadings]
      exact hread.headings
    · rw [h.loadSource_eq]
      exact hread.source
  · rw [h.result]
    exact ⟨rfl, rfl, rfl, rfl, rfl, rfl, rfl, rfl, rfl, rfl⟩

/-- A stored active fragment can be read. -/
theorem loads_fragment (h : FragmentsAdded db db' source fragments) (hc : Constraints db)
    {f : SourceFragment} (hf : f ∈ fragments)
    (hactive : f.params.governance.deletionState = .active) :
    loadResolvedSourceFragment db' f.params.namespaceId f.params.fragmentId =
      .ok (some { fragment := f, source }) := by
  obtain ⟨hsource, hns⟩ := h.source_of_mem hf
  have hunique : UniqueBy FragmentRow.fragmentId db'.fragments :=
    (hc.fragmentsAdded h).fragmentIds
  refine loadResolvedSourceFragment_eq_ok_iff.2 ⟨?_, h.headings_of_new hc hf, ?_, h.resolved f hf⟩
  · refine activeFragmentRow_eq_some_iff.2 ⟨?_, rfl, hactive⟩
    exact (lookup_eq_some_iff hunique).2 ⟨h.mem_fragments.2 (.inr ⟨f, hf, rfl⟩), rfl⟩
  · rw [h.loadSource_eq, hns, hsource]
    exact h.loaded

end FragmentsAdded

end RadishMemory
