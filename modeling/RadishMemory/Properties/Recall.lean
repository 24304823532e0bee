import RadishMemory.Properties.LibraryInvariant
import RadishMemory.Construction.Samples

/-!
# Deletion is irrevocable for recall

Once a delete request is stored, its source and record targets, the proposals of its closure and
the fragments of its sources stay out of reach: their rows are never active again, no derived row
stands for them, and no read returns them.

`Returned` lists the objects that the reads of the library hand out.  Every one of them has an
active row (`returned_active`), and the library invariant keeps frozen rows inactive, so
`deletion_is_irrevocable_for_recall` is a statement about every later state of every run.
-/

namespace RadishMemory

section Library

variable [Platform] [FullText] {db db' : Database}

/-! ## What the reads hand out -/

/-- A fragment gives away itself and its source. -/
def fragmentRefs (fragment : SourceFragment) : List ObjectRef :=
  [⟨.sourceFragment, fragment.params.fragmentId⟩, ⟨.sourceArtifact, fragment.params.sourceId⟩]

/-- The objects of a search hit. -/
def LocalSearchHit.refs : LocalSearchHit → List ObjectRef
  | .sourceFragment fragment => fragmentRefs fragment
  | .memoryRecord record => [⟨.memoryRecord, record.params.memoryId⟩]

/-- Some load, catalog or search operation returns the object. -/
inductive Returned (db : Database) : ObjectRef → Prop
  | loadSourceArtifact {namespaceId sourceId : Identifier} {source : SourceArtifact}
      (h : loadSourceArtifact db namespaceId sourceId = .ok (some source)) :
      Returned db ⟨.sourceArtifact, source.params.sourceId⟩
  | loadSourceFragments {namespaceId sourceId : Identifier} {fragments : List SourceFragment}
      {fragment : SourceFragment} {ref : ObjectRef}
      (h : loadSourceFragments db namespaceId sourceId = .ok (some fragments))
      (hmem : fragment ∈ fragments) (href : ref ∈ fragmentRefs fragment) : Returned db ref
  | loadResolvedSourceFragment {namespaceId fragmentId : Identifier} {resolved : ResolvedSource}
      {ref : ObjectRef}
      (h : loadResolvedSourceFragment db namespaceId fragmentId = .ok (some resolved))
      (href : ref ∈ fragmentRefs resolved.fragment) : Returned db ref
  | loadMemoryProposal {namespaceId proposalId : Identifier} {proposal : MemoryProposal}
      (h : loadMemoryProposal db namespaceId proposalId = .ok (some proposal)) :
      Returned db ⟨.memoryProposal, proposal.params.proposalId⟩
  | loadMemoryDecision {namespaceId decisionId : Identifier} {decision : MemoryDecision}
      (h : loadMemoryDecision db namespaceId decisionId = .ok (some decision)) :
      Returned db ⟨.memoryProposal, decision.params.proposalId⟩
  | loadMemoryRecord {namespaceId memoryId : Identifier} {record : MemoryRecord}
      (h : loadMemoryRecord db namespaceId memoryId = .ok (some record)) :
      Returned db ⟨.memoryRecord, record.params.memoryId⟩
  | loadMemoryStateEvents {namespaceId memoryId : Identifier} {events : List MemoryStateEvent}
      {event : MemoryStateEvent}
      (h : loadMemoryStateEvents db namespaceId memoryId = .ok (some events))
      (hmem : event ∈ events) : Returned db ⟨.memoryRecord, event.params.memoryId⟩
  | resolveSourceLineage {namespaceId lineageId : Identifier} {state : SourceLineageState}
      (h : resolveSourceLineage db namespaceId lineageId = .ok (some state)) :
      Returned db ⟨.sourceArtifact, state.currentSourceId⟩
  | listSourceLineages {request : SourceCatalogRequest} {summaries : List SourceLineageSummary}
      {summary : SourceLineageSummary} (h : listSourceLineages db request = .ok summaries)
      (hmem : summary ∈ summaries) : Returned db ⟨.sourceArtifact, summary.currentSourceId⟩
  | listSourceVersions {namespaceId lineageId : Identifier}
      {versions : List SourceVersionSummary} {version : SourceVersionSummary}
      (h : listSourceVersions db namespaceId lineageId = .ok versions)
      (hmem : version ∈ versions) : Returned db ⟨.sourceArtifact, version.sourceId⟩
  | search {request : LocalSearchRequest} {hits : List LocalSearchHit} {hit : LocalSearchHit}
      {ref : ObjectRef} (h : search db request = .ok hits) (hmem : hit ∈ hits)
      (href : ref ∈ hit.refs) : Returned db ref

/-! ## What is handed out is active -/

omit [Platform] [FullText] in
/-- The object has an active row; the source of a fragment has one too. -/
def ActiveObject (db : Database) (ref : ObjectRef) : Prop :=
  match ref.objectType with
  | .sourceArtifact => ∃ s ∈ db.sources, s.sourceId = ref.objectId ∧
      s.governance.deletionState = .active
  | .sourceFragment => ∃ f ∈ db.fragments, f.fragmentId = ref.objectId ∧
      f.governance.deletionState = .active
  | .memoryProposal => ∃ p ∈ db.proposals, p.proposalId = ref.objectId ∧
      p.governance.deletionState = .active
  | .memoryRecord => ∃ r ∈ db.records, r.memoryId = ref.objectId ∧
      r.governance.deletionState = .active
  | _ => False

section Reads

omit [FullText]

theorem active_source {namespaceId sourceId : Identifier} {source : SourceArtifact}
    (h : loadSourceArtifact db namespaceId sourceId = .ok (some source)) :
    source.params.sourceId = sourceId ∧ ActiveObject db ⟨.sourceArtifact, sourceId⟩ := by
  obtain ⟨row, hlookup, -, hactive, rfl⟩ := loadSourceArtifact_eq_ok h
  have hid := lookup_key hlookup
  exact ⟨hid, _, lookup_mem hlookup, hid, hactive⟩

theorem active_fragment {source : SourceArtifact} {row : FragmentRow} {fragment : SourceFragment}
    {namespaceId sourceId : Identifier}
    (hsource : loadSourceArtifact db namespaceId sourceId = .ok (some source))
    (hrow : row ∈ db.fragments) (hactive : row.governance.deletionState = .active)
    (hload : loadStoredFragment db source row = .ok fragment) {ref : ObjectRef}
    (href : ref ∈ fragmentRefs fragment) : ActiveObject db ref := by
  obtain ⟨rfl, hresolution⟩ := loadStoredFragment_eq_ok hload
  simp only [fragmentRefs, List.mem_cons, List.not_mem_nil, or_false] at href
  rcases href with rfl | rfl
  · exact ⟨_, hrow, rfl, hactive⟩
  · obtain ⟨hid, -⟩ := validateSourceFragmentResolution_eq_ok_iff.1 hresolution
    obtain ⟨heq, hsourceActive⟩ := active_source hsource
    rw [hid, heq]
    exact hsourceActive

theorem active_resolved {namespaceId fragmentId : Identifier} {resolved : ResolvedSource}
    (h : loadResolvedFragmentWith loadSourceArtifact db namespaceId fragmentId =
      .ok (some resolved)) {ref : ObjectRef} (href : ref ∈ fragmentRefs resolved.fragment) :
    ActiveObject db ref := by
  obtain ⟨hrow, hsource, hload⟩ := loadResolvedFragmentWith_eq_ok h
  obtain ⟨hlookup, -, hactive⟩ := activeFragmentRow_eq_some_iff.1 hrow
  exact active_fragment hsource (lookup_mem hlookup) hactive hload href

theorem active_fragments {namespaceId sourceId : Identifier} {fragments : List SourceFragment}
    (h : loadSourceFragments db namespaceId sourceId = .ok (some fragments))
    {fragment : SourceFragment} (hmem : fragment ∈ fragments) {ref : ObjectRef}
    (href : ref ∈ fragmentRefs fragment) : ActiveObject db ref := by
  simp only [loadSourceFragments, Except.bind_eq_ok_iff] at h
  obtain ⟨loaded, hsource, h⟩ := h
  cases loaded with
  | none => cases h
  | some source =>
    simp only [Except.bind_eq_ok_iff, Except.pure_eq_ok_iff, Option.some.injEq] at h
    obtain ⟨_, hload, rfl⟩ := h
    rw [loadFragmentsForSource, List.mapM_eq_ok_iff] at hload
    obtain ⟨row, hrow, hone⟩ := List.Forall₂.exists_of_mem_right hload hmem
    rw [activeFragmentRows, List.mem_insertionSort, List.mem_filter] at hrow
    simp only [Bool.and_eq_true, beq_iff_eq] at hrow
    exact active_fragment hsource hrow.1 hrow.2.2 hone href

theorem active_proposal {namespaceId proposalId : Identifier} {proposal : MemoryProposal}
    (h : loadMemoryProposal db namespaceId proposalId = .ok (some proposal)) :
    proposal.params.proposalId = proposalId ∧ ActiveObject db ⟨.memoryProposal, proposalId⟩ := by
  obtain ⟨hlookup, -, hactive⟩ :=
    activeProposalRow_eq_some_iff.1 (loadMemoryProposalWith_eq_ok_iff.1 h).row
  have hid := lookup_key hlookup
  exact ⟨hid, _, lookup_mem hlookup, hid, hactive⟩

theorem active_decision {namespaceId decisionId : Identifier} {decision : MemoryDecision}
    (h : loadMemoryDecision db namespaceId decisionId = .ok (some decision)) :
    ActiveObject db ⟨.memoryProposal, decision.params.proposalId⟩ := by
  simp only [loadMemoryDecision, loadMemoryDecisionWith] at h
  split at h
  · cases h
  · rename_i row hrow
    simp only [Except.bind_eq_ok_iff, Option.orError_eq_ok_iff, Except.pure_eq_ok_iff] at h
    obtain ⟨_, hload, proposal, rfl, decisions, hchain, hfind⟩ := h
    obtain ⟨hid, hactive⟩ := active_proposal hload
    -- Every decision of the chain was checked to be of the proposal.
    simp only [loadDecisionChain, Except.bind_eq_ok_iff, List.mapM_eq_ok_iff,
      Except.exists_unit_iff, require_eq_ok_iff, Except.pure_eq_ok_iff, orderDecisionChain,
      Option.orError_eq_ok_iff] at hchain
    obtain ⟨loaded, hloaded, -, -, horder⟩ := hchain
    have hmem := (orderLinks_perm horder).mem_iff.1 (List.mem_of_find?_eq_some hfind)
    obtain ⟨stored, -, _, -, hsame, rfl⟩ := List.Forall₂.exists_of_mem_right hloaded hmem
    rw [hsame.2, hid]
    exact hactive

theorem active_record {namespaceId memoryId : Identifier} {closure : RecordClosure}
    (h : loadMemoryRecordClosure db namespaceId memoryId = .ok (some closure)) :
    closure.1.params.memoryId = memoryId ∧ ActiveObject db ⟨.memoryRecord, memoryId⟩ := by
  obtain ⟨row, -, hrow, -, hid, -⟩ := loadMemoryRecordClosureWith_rows h
  obtain ⟨hlookup, -, hactive⟩ := activeRecordRow_eq_some_iff.1 hrow
  exact ⟨hid, row, lookup_mem hlookup, lookup_key hlookup, hactive⟩

omit [Platform] in
/-- The events of a record's chain are of the record. -/
theorem loadEventChain_memoryId {namespaceId memoryId : Identifier}
    {events : List MemoryStateEvent} (h : loadEventChain db namespaceId memoryId = .ok events)
    {event : MemoryStateEvent} (hmem : event ∈ events) : event.params.memoryId = memoryId := by
  simp only [loadEventChain, Except.bind_eq_ok_iff, List.mapM_eq_ok_iff, orderEventChain,
    Option.orError_eq_ok_iff] at h
  obtain ⟨loaded, hloaded, horder⟩ := h
  obtain ⟨row, -, hone⟩ :=
    List.Forall₂.exists_of_mem_right hloaded ((orderLinks_perm horder).mem_iff.1 hmem)
  simp only [loadStoredEvent, Except.bind_eq_ok_iff, Except.exists_unit_iff, require_eq_ok_iff,
    Except.pure_eq_ok_iff] at hone
  obtain ⟨_, -, _, -, hsame, rfl⟩ := hone
  exact hsame.2

theorem active_events {namespaceId memoryId : Identifier} {events : List MemoryStateEvent}
    (h : loadMemoryStateEvents db namespaceId memoryId = .ok (some events))
    {event : MemoryStateEvent} (hmem : event ∈ events) :
    ActiveObject db ⟨.memoryRecord, event.params.memoryId⟩ := by
  simp only [loadMemoryStateEvents, Except.bind_eq_ok_iff, Except.pure_eq_ok_iff,
    Option.map_eq_some_iff] at h
  obtain ⟨_, hload, closure, rfl, rfl⟩ := h
  obtain ⟨row, loaded, hrow, hbase, rfl⟩ := loadMemoryRecordClosureInner_eq_ok hload
  obtain ⟨root, tip, decision, initial, hread⟩ := loadRecordBase_eq_ok hbase
  obtain ⟨hlookup, -, hactive⟩ := activeRecordRow_eq_some_iff.1 hrow
  rw [loadEventChain_memoryId hread.chain hmem]
  exact ⟨row, lookup_mem hlookup, rfl, hactive⟩

theorem active_lineage {namespaceId lineageId : Identifier} {state : SourceLineageState}
    (h : resolveSourceLineage db namespaceId lineageId = .ok (some state)) :
    ActiveObject db ⟨.sourceArtifact, state.currentSourceId⟩ := by
  simp only [resolveSourceLineage, Except.bind_eq_ok_iff, resolveSourceLineageWith] at h
  obtain ⟨-, -, h⟩ := h
  split at h
  · cases h
  · simp only [Except.bind_eq_ok_iff, Option.orError_eq_ok_iff, Except.pure_eq_ok_iff,
      Option.some.injEq] at h
    obtain ⟨_, hload, current, rfl, -, -, rfl⟩ := h
    exact (active_source hload).2

theorem active_summary {request : SourceCatalogRequest} {summaries : List SourceLineageSummary}
    (h : listSourceLineages db request = .ok summaries) {summary : SourceLineageSummary}
    (hmem : summary ∈ summaries) : ActiveObject db ⟨.sourceArtifact, summary.currentSourceId⟩ := by
  simp only [listSourceLineages, listSourceLineagesWith, Except.bind_eq_ok_iff,
    List.mapM_eq_ok_iff, Except.pure_eq_ok_iff, Option.orError_eq_ok_iff,
    Except.mapError_eq_ok_iff] at h
  obtain ⟨-, -, all, hall, rfl⟩ := h
  have hsorted := List.mem_of_mem_drop (List.mem_of_mem_take hmem)
  rw [List.mem_insertionSort] at hsorted
  obtain ⟨tip, -, _, hload, source, rfl, hsummary⟩ :=
    List.Forall₂.exists_of_mem_right hall hsorted
  simp only [SourceLineageSummary.fromCurrentSource, Except.bind_eq_ok_iff,
    Except.pure_eq_ok_iff] at hsummary
  obtain ⟨-, -, rfl⟩ := hsummary
  obtain ⟨hid, hactive⟩ := active_source hload
  rw [← hid] at hactive
  exact hactive

theorem active_version {namespaceId lineageId : Identifier}
    {versions : List SourceVersionSummary}
    (h : listSourceVersions db namespaceId lineageId = .ok versions)
    {version : SourceVersionSummary} (hmem : version ∈ versions) :
    ActiveObject db ⟨.sourceArtifact, version.sourceId⟩ := by
  simp only [listSourceVersions, listSourceVersionsWith, Except.bind_eq_ok_iff] at h
  obtain ⟨-, -, h⟩ := h
  split at h
  · cases h
    cases hmem
  · simp only [Except.bind_eq_ok_iff, List.mapM_eq_ok_iff, Except.exists_unit_iff,
      Except.pure_eq_ok_iff] at h
    obtain ⟨_, hall, -, rfl⟩ := h
    obtain ⟨entry, -, hone⟩ := List.Forall₂.exists_of_mem_right hall hmem
    simp only [loadVersionSummary, Except.bind_eq_ok_iff, Except.exists_unit_iff,
      Option.orError_eq_ok_iff, Except.mapError_eq_ok_iff, SourceVersionSummary.fromSource,
      Except.pure_eq_ok_iff] at hone
    obtain ⟨-, _, hload, source, rfl, -, -, rfl⟩ := hone
    obtain ⟨hid, hactive⟩ := active_source hload
    rw [← hid] at hactive
    exact hactive

/-- What a catalog offers to a search is active. -/
theorem active_candidate {catalog : Catalog}
    (h : Catalog.loadWith loadSourceArtifact db = .ok catalog) {candidate : Candidate}
    (hmem : candidate ∈ catalog.candidates) {ref : ObjectRef} (href : ref ∈ candidate.hit.refs) :
    ActiveObject db ref := by
  obtain ⟨resolved, records, hread, -, -, -, -, hcandidates⟩ := Catalog.loadWith_eq_ok h
  rw [hcandidates] at hmem
  rcases List.mem_append.1 hmem with hmem | hmem
  · obtain ⟨r, hr, rfl⟩ := List.mem_map.1 hmem
    obtain ⟨row, -, hload⟩ :=
      List.Forall₂.exists_of_mem_right hread.fragments (List.mem_filter.1 hr).1
    exact active_resolved hload href
  · obtain ⟨record, hrecord, rfl⟩ := List.mem_map.1 hmem
    have heq : ref = ⟨.memoryRecord, record.params.memoryId⟩ := List.mem_singleton.1 href
    rw [heq]
    exact hread.record_active (List.mem_filter.1 hrecord).1

end Reads

theorem active_hit {request : LocalSearchRequest} {hits : List LocalSearchHit}
    (h : search db request = .ok hits) {hit : LocalSearchHit} (hmem : hit ∈ hits)
    {ref : ObjectRef} (href : ref ∈ hit.refs) : ActiveObject db ref := by
  simp only [search, Except.bind_eq_ok_iff, Except.exists_unit_iff] at h
  obtain ⟨catalog, hcatalog, -, h⟩ := h
  split at h
  · cases h
    cases hmem
  · simp only [Except.bind_eq_ok_iff, List.mapM_eq_ok_iff, Option.orError_eq_ok_iff,
      Except.pure_eq_ok_iff] at h
    obtain ⟨matched, -, hall⟩ := h
    obtain ⟨key, -, candidate, hlookup, rfl⟩ := List.Forall₂.exists_of_mem_right hall hmem
    exact active_candidate hcatalog (lookup_mem hlookup) href

/-- Every object that a read returns has an active row. -/
theorem returned_active {ref : ObjectRef} (h : Returned db ref) : ActiveObject db ref := by
  cases h with
  | loadSourceArtifact h =>
    obtain ⟨hid, hactive⟩ := active_source h
    rw [hid]
    exact hactive
  | loadSourceFragments h hmem href => exact active_fragments h hmem href
  | loadResolvedSourceFragment h href => exact active_resolved h href
  | loadMemoryProposal h =>
    obtain ⟨hid, hactive⟩ := active_proposal h
    rw [hid]
    exact hactive
  | loadMemoryDecision h => exact active_decision h
  | loadMemoryRecord h =>
    simp only [loadMemoryRecord, Except.bind_eq_ok_iff, Except.pure_eq_ok_iff,
      Option.map_eq_some_iff] at h
    obtain ⟨_, hload, closure, rfl, rfl⟩ := h
    obtain ⟨hid, hactive⟩ := active_record hload
    rw [hid]
    exact hactive
  | loadMemoryStateEvents h hmem => exact active_events h hmem
  | resolveSourceLineage h => exact active_lineage h
  | listSourceLineages h hmem => exact active_summary h hmem
  | listSourceVersions h hmem => exact active_version h hmem
  | search h hmem href => exact active_hit h hmem href

/-! ## What a request closes stays closed -/

omit [FullText] in
/-- The object went with the request: a source or record target, a proposal of the closure that
was frozen when the request was stored, or a fragment row of a source target. -/
def DeletedObject (stored db : Database) (request : DeleteRequest) (ref : ObjectRef) : Prop :=
  match ref.objectType with
  | .sourceArtifact => ref.objectId ∈ request.params.sourceTargets
  | .memoryRecord => ref.objectId ∈ request.params.memoryTargets
  | .memoryProposal => Frozen stored request.params.deleteRequestId .memoryProposal ref.objectId
  | .sourceFragment => ∃ f ∈ db.fragments, f.fragmentId = ref.objectId ∧
      f.sourceId ∈ request.params.sourceTargets
  | _ => False

omit [Platform] [FullText] in
/-- The object a full-text row stands for. -/
def RecallKey.ref (key : RecallKey) : ObjectRef :=
  match key.objectKind with
  | .sourceFragment => ⟨.sourceFragment, key.objectId⟩
  | .memoryRecord => ⟨.memoryRecord, key.objectId⟩

/-- The state `db` keeps everything that `request` deleted, when it was stored with the result
`stored`, out of recall. -/
structure ClosedToRecall (stored db : Database) (request : DeleteRequest) : Prop where
  sources : ∀ id ∈ request.params.sourceTargets, ∃ s ∈ db.sources, s.sourceId = id ∧
    s.governance.deletionState ≠ .active
  records : ∀ id ∈ request.params.memoryTargets, ∃ r ∈ db.records, r.memoryId = id ∧
    r.governance.deletionState ≠ .active
  proposals : ∀ id, Frozen stored request.params.deleteRequestId .memoryProposal id →
    ∃ p ∈ db.proposals, p.proposalId = id ∧ p.governance.deletionState ≠ .active
  inactive : ∀ ref, DeletedObject stored db request ref → ¬ ActiveObject db ref
  tips : ∀ tip ∈ db.tips, tip.sourceId ∉ request.params.sourceTargets
  recallFts : ∀ row ∈ db.recallFts, ¬ DeletedObject stored db request row.key.ref
  projection : ∀ row ∈ db.projection, row.memoryId ∉ request.params.memoryTargets
  returned : ∀ ref, Returned db ref → ¬ DeletedObject stored db request ref

omit [FullText] in
/-- A row of a deleted object is not active. -/
theorem LibraryInvariant.deleted_inactive (h : LibraryInvariant db) {stored : Database}
    {request : DeleteRequest} {ref : ObjectRef}
    (hsources : ∀ id ∈ request.params.sourceTargets,
      Frozen db request.params.deleteRequestId .sourceMetadata id)
    (hrecords : ∀ id ∈ request.params.memoryTargets,
      Frozen db request.params.deleteRequestId .memoryRecord id)
    (hproposals : ∀ id, Frozen stored request.params.deleteRequestId .memoryProposal id →
      Frozen db request.params.deleteRequestId .memoryProposal id)
    (hdeleted : DeletedObject stored db request ref) : ¬ ActiveObject db ref := by
  obtain ⟨objectType, id⟩ := ref
  cases objectType with
  | sourceArtifact =>
    rintro ⟨s, hs, rfl, hactive⟩
    exact h.source_not_frozen hs hactive _ (hsources _ hdeleted)
  | sourceFragment =>
    rintro ⟨f, hf, rfl, hactive⟩
    obtain ⟨g, hg, hid, hsource⟩ := hdeleted
    obtain rfl := h.constraints.fragmentIds.eq_of_mem hg hf hid
    exact h.closedFragments _ g hf (hsources _ hsource) hactive
  | memoryProposal =>
    rintro ⟨p, hp, rfl, hactive⟩
    exact h.proposal_not_frozen hp hactive _ (hproposals _ hdeleted)
  | memoryRecord =>
    rintro ⟨r, hr, rfl, hactive⟩
    exact h.record_not_frozen hr hactive _ (hrecords _ hdeleted)
  | memoryDecision => exact hdeleted.elim
  | memoryStateEvent => exact hdeleted.elim
  | contextPack => exact hdeleted.elim
  | deleteRequest => exact hdeleted.elim
  | deletionEvidence => exact hdeleted.elim

/-- A state that still has the request's closure frozen keeps the request closed to recall. -/
theorem LibraryInvariant.closedToRecall (h : LibraryInvariant db) {stored : Database}
    {request : DeleteRequest}
    (hsources : ∀ id ∈ request.params.sourceTargets,
      Frozen db request.params.deleteRequestId .sourceMetadata id)
    (hrecords : ∀ id ∈ request.params.memoryTargets,
      Frozen db request.params.deleteRequestId .memoryRecord id)
    (hproposals : ∀ id, Frozen stored request.params.deleteRequestId .memoryProposal id →
      Frozen db request.params.deleteRequestId .memoryProposal id) :
    ClosedToRecall stored db request := by
  have hinactive : ∀ ref, DeletedObject stored db request ref → ¬ ActiveObject db ref :=
    fun ref => h.deleted_inactive hsources hrecords hproposals
  refine ⟨fun id hid => h.closedSources _ id (hsources id hid),
    fun id hid => h.closedRecords _ id (hrecords id hid),
    fun id hid => h.closedProposals _ id (hproposals id hid), hinactive, ?_, ?_, ?_,
    fun ref href hdeleted => hinactive ref hdeleted (returned_active href)⟩
  · intro tip htip hmem
    obtain ⟨s, hs, rfl⟩ := h.tipSources tip htip
    exact (h.closedLineages _ s hs (hsources _ hmem)).1 _ htip rfl
  · intro row hrow hdeleted
    obtain ⟨⟨kind, id⟩, namespaceId, sensitivity, content⟩ := row
    cases kind with
    | sourceFragment =>
      obtain ⟨f, hf, hid, hsource⟩ := hdeleted
      exact h.recalledFragments _ hrow rfl f hf hid _ (hsources _ hsource)
    | memoryRecord => exact h.recalledRecords _ hrow rfl _ (hrecords _ hdeleted)
  · intro row hrow hmem
    exact h.projectedRecords row hrow _ (hrecords _ hmem)

/-- In every run, from the moment a delete request is stored on, everything it deleted stays out
of recall, whatever is captured, written, deleted, executed or fails later. -/
theorem deletion_is_irrevocable_for_recall (before after : List Op) (request : DeleteRequest)
    (stored : Database) (h : storeDeleteRequest (runOps .empty before) request = .ok stored) :
    ClosedToRecall stored (runOps stored after) request := by
  obtain ⟨closure, hstored⟩ := storeDeleteRequest_eq_ok h
  have hinv : LibraryInvariant stored :=
    (libraryInvariant_of_run before).step (c := .request request closure) hstored
  refine (hinv.run after).closedToRecall (fun id hid => ?_) (fun id hid => ?_) (fun id hid => ?_)
  · exact hinv.frozen_run after (hstored.frozen_source_iff.2 (.inr ⟨rfl, hid⟩))
  · exact hinv.frozen_run after (hstored.frozen_record_iff.2 (.inr ⟨rfl, hid⟩))
  · exact hinv.frozen_run after hid

end Library

section Run

open Sample

/-- A file is captured and deleted, the deletion is executed, and another file is captured. -/
theorem deletion_is_irrevocable_for_recall_of_one_file :
    ∃ stored, storeDeleteRequest (runOps .empty [captureFirst]) deleteFirst = .ok stored ∧
      ClosedToRecall stored (runOps stored [executeFirst, captureSecond]) deleteFirst := by
  have hok : (storeDeleteRequest (runOps .empty [captureFirst]) deleteFirst).toOption.isSome =
      true := by decide +kernel
  cases h : storeDeleteRequest (runOps .empty [captureFirst]) deleteFirst with
  | error e =>
    rw [h] at hok
    cases hok
  | ok stored => exact ⟨stored, rfl, deletion_is_irrevocable_for_recall _ _ deleteFirst stored h⟩

end Run

end RadishMemory
