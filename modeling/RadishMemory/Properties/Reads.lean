import RadishMemory.Properties.SourceWrites
import RadishMemory.Properties.MemoryWrites

/-!
# What a read returns

Every read of the library rebuilds a canonical object from rows and starts at a row whose state
is `active`.  For each read: the row behind what it returned, and the facts its checks
established.
-/

namespace RadishMemory

variable [Platform] {db : Database} {namespaceId : Identifier}

/-! ## Active rows -/

section Rows

omit [Platform]

theorem activeSourceRow_eq_some_iff {sourceId : Identifier} {row : SourceRow} :
    activeSourceRow db namespaceId sourceId = some row ↔
      lookup SourceRow.sourceId db.sources sourceId = some row ∧
        row.namespaceId = namespaceId ∧ row.governance.deletionState = .active := by
  simp [activeSourceRow, Option.filter_eq_some_iff]

theorem activeFragmentRow_eq_some_iff {fragmentId : Identifier} {row : FragmentRow} :
    activeFragmentRow db namespaceId fragmentId = some row ↔
      lookup FragmentRow.fragmentId db.fragments fragmentId = some row ∧
        row.namespaceId = namespaceId ∧ row.governance.deletionState = .active := by
  simp [activeFragmentRow, Option.filter_eq_some_iff]

theorem activeProposalRow_eq_some_iff {proposalId : Identifier} {row : ProposalRow} :
    activeProposalRow db namespaceId proposalId = some row ↔
      lookup ProposalRow.proposalId db.proposals proposalId = some row ∧
        row.namespaceId = namespaceId ∧ row.governance.deletionState = .active := by
  simp [activeProposalRow, Option.filter_eq_some_iff]

theorem activeRecordRow_eq_some_iff {memoryId : Identifier} {row : RecordRow} :
    activeRecordRow db namespaceId memoryId = some row ↔
      lookup RecordRow.memoryId db.records memoryId = some row ∧
        row.namespaceId = namespaceId ∧ row.governance.deletionState = .active := by
  simp [activeRecordRow, Option.filter_eq_some_iff]

end Rows

/-! ## Fragments -/

theorem FragmentRow.intoDomain_eq_ok {row : FragmentRow} {source : SourceArtifact}
    {headingPath : Option (List NonEmptyText)} {fragment : SourceFragment}
    (h : row.intoDomain source headingPath = .ok fragment) :
    row = FragmentRow.ofFragment fragment.params := by
  simp only [FragmentRow.intoDomain, Except.bind_eq_ok_iff, Except.mapError_eq_ok_iff,
    SourceFragment.new, Checked.new_eq_ok_iff] at h
  obtain ⟨content, -, text, -, hparams⟩ := h
  rw [hparams]
  rfl

theorem loadStoredFragment_eq_ok {source : SourceArtifact} {row : FragmentRow}
    {fragment : SourceFragment} (h : loadStoredFragment db source row = .ok fragment) :
    row = FragmentRow.ofFragment fragment.params ∧
      validateSourceFragmentResolution fragment source = .ok () := by
  simp only [loadStoredFragment, Except.bind_eq_ok_iff, Except.exists_unit_iff,
    Except.mapError_eq_ok_iff, Except.pure_eq_ok_iff] at h
  obtain ⟨headings, -, loaded, hdomain, hresolution, rfl⟩ := h
  exact ⟨FragmentRow.intoDomain_eq_ok hdomain, hresolution⟩

/-- The fragments of a source are its active rows, in order. -/
theorem loadFragmentsForSource_eq_ok {source : SourceArtifact} {fragments : List SourceFragment}
    (h : loadFragmentsForSource db source = .ok fragments) :
    activeFragmentRows db source.params.sourceId =
      fragments.map fun f => FragmentRow.ofFragment f.params := by
  rw [loadFragmentsForSource, List.mapM_eq_ok_iff] at h
  generalize activeFragmentRows db source.params.sourceId = rows at h
  induction h with
  | nil => rfl
  | cons hhead _ ih => rw [List.map_cons, ← ih, (loadStoredFragment_eq_ok hhead).1]

theorem loadResolvedFragmentWith_eq_ok {loadSource : SourceLoader} {fragmentId : Identifier}
    {resolved : ResolvedSource}
    (h : loadResolvedFragmentWith loadSource db namespaceId fragmentId = .ok (some resolved)) :
    activeFragmentRow db namespaceId fragmentId =
        some (FragmentRow.ofFragment resolved.fragment.params) ∧
      loadSource db namespaceId resolved.fragment.params.sourceId = .ok (some resolved.source) ∧
      loadStoredFragment db resolved.source (FragmentRow.ofFragment resolved.fragment.params) =
        .ok resolved.fragment := by
  simp only [loadResolvedFragmentWith] at h
  split at h
  · cases h
  · rename_i row hrow
    simp only [Except.bind_eq_ok_iff, Option.orError_eq_ok_iff, Except.pure_eq_ok_iff,
      Option.some.injEq] at h
    obtain ⟨_, hload, source, rfl, fragment, hfragment, rfl⟩ := h
    obtain ⟨rfl, -⟩ := loadStoredFragment_eq_ok hfragment
    exact ⟨hrow, hload, hfragment⟩

/-! ## Proposals -/

theorem ProposalRow.intoDomain_eq_ok {row : ProposalRow} {sources targets : List Identifier}
    {proposal : MemoryProposal} (h : row.intoDomain sources targets = .ok proposal) :
    row = ProposalRow.ofProposal proposal.params ∧
      proposal.params.sourceFragmentRefs = sources ∧
      proposal.params.targetMemoryIds = targets := by
  simp only [ProposalRow.intoDomain, Except.bind_eq_ok_iff, Except.mapError_eq_ok_iff,
    MemoryProposal.new, MemoryValue.new, Checked.new_eq_ok_iff] at h
  obtain ⟨content, hcontent, hparams⟩ := h
  rw [hparams]
  refine ⟨?_, rfl, rfl⟩
  simp only [ProposalRow.ofProposal, hcontent]

/-- What reading a proposal established. -/
structure ProposalRead (loadSource : SourceLoader) (db : Database)
    (namespaceId proposalId : Identifier) (proposal : MemoryProposal) : Prop where
  row : activeProposalRow db namespaceId proposalId =
    some (ProposalRow.ofProposal proposal.params)
  fragments : loadIdentifierList db.proposalFragments proposalId =
    .ok proposal.params.sourceFragmentRefs
  targets : loadIdentifierList db.proposalTargets proposalId =
    .ok proposal.params.targetMemoryIds
  sources : validateProposalSources loadSource db proposal true = .ok ()
  exist : ∀ targetId ∈ proposal.params.targetMemoryIds,
    memoryExistsInNamespace db namespaceId targetId = true

theorem loadMemoryProposalWith_eq_ok_iff {loadSource : SourceLoader} {proposalId : Identifier}
    {proposal : MemoryProposal} :
    loadMemoryProposalWith loadSource db namespaceId proposalId = .ok (some proposal) ↔
      ProposalRead loadSource db namespaceId proposalId proposal := by
  constructor
  · intro h
    simp only [loadMemoryProposalWith] at h
    split at h
    · cases h
    · rename_i row hrow
      simp only [Except.bind_eq_ok_iff, Except.exists_unit_iff, Except.pure_eq_ok_iff,
        Option.some.injEq, require_eq_ok_iff] at h
      obtain ⟨sources, hsources, targets, htargets, p, hdomain, hvalid, hexist, rfl⟩ := h
      obtain ⟨rfl, rfl, rfl⟩ := ProposalRow.intoDomain_eq_ok hdomain
      exact ⟨hrow, hsources, htargets, hvalid, hexist⟩
  · intro h
    have hdomain : (ProposalRow.ofProposal proposal.params).intoDomain
        proposal.params.sourceFragmentRefs proposal.params.targetMemoryIds = .ok proposal := by
      have hvalue : MemoryValue.new proposal.params.proposedContent.params.text
          proposal.params.proposedContent.params.contentDigest =
          .ok proposal.params.proposedContent := Checked.new_params _
      simp only [ProposalRow.intoDomain, ProposalRow.ofProposal, hvalue, Except.mapError,
        Except.ok_bind]
      exact Except.mapError_eq_ok_iff.2 (Checked.new_params proposal)
    simp only [loadMemoryProposalWith, h.row, h.fragments, h.targets, hdomain, h.sources,
      Except.ok_bind, require_of h.exist]
    rfl

/-! ## Records -/

theorem RecordRow.intoDomain_eq_ok {row : RecordRow}
    {sources supersedes contradicts : List Identifier} {state : MemoryState}
    {lastEventId : Identifier} {record : MemoryRecord}
    (h : row.intoDomain sources supersedes contradicts state lastEventId = .ok record) :
    row = RecordRow.ofRecord record.params ∧ record.params.sourceFragmentRefs = sources ∧
      record.params.supersedesMemoryIds = supersedes ∧
      record.params.contradictsMemoryIds = contradicts ∧
      record.params.currentState = state ∧ record.params.lastStateEventId = lastEventId := by
  simp only [RecordRow.intoDomain, Except.bind_eq_ok_iff, Except.mapError_eq_ok_iff,
    MemoryRecord.new, MemoryValue.new, Checked.new_eq_ok_iff] at h
  obtain ⟨content, hcontent, hparams⟩ := h
  rw [hparams]
  refine ⟨?_, rfl, rfl, rfl, rfl, rfl⟩
  simp only [RecordRow.ofRecord, hcontent]

theorem projectRecord_eq_ok_iff {record projected : MemoryRecord} {state : MemoryState}
    {lastEventId : Identifier} :
    projectRecord record state lastEventId = .ok projected ↔
      projected.params =
        { record.params with currentState := state, lastStateEventId := lastEventId } := by
  rw [projectRecord, Except.mapError_eq_ok_iff, MemoryRecord.new, Checked.new_eq_ok_iff]

/-- What reading the part of a record's closure that does not recurse established. -/
structure BaseRead (loadSource : SourceLoader) (db : Database) (namespaceId : Identifier)
    (row : RecordRow) (loaded : LoadedRecord) (root tip : MemoryStateEvent)
    (decision : MemoryDecision) (initial : MemoryRecord) : Prop where
  row_eq : row = RecordRow.ofRecord initial.params
  fragments : loadIdentifierList db.recordFragments row.memoryId =
    .ok initial.params.sourceFragmentRefs
  supersedes : loadIdentifierList db.recordSupersedes row.memoryId =
    .ok initial.params.supersedesMemoryIds
  contradicts : loadIdentifierList db.recordContradicts row.memoryId =
    .ok initial.params.contradictsMemoryIds
  confirmed : initial.params.currentState = .confirmed
  first : initial.params.lastStateEventId = root.params.eventId
  chain : loadEventChain db namespaceId row.memoryId = .ok loaded.events
  head : loaded.events.head? = some root
  last : loaded.events.getLast? = some tip
  root_ok : root.params.previousEventId = none ∧ root.params.toState = .confirmed
  proposalRead : loadMemoryProposalWith loadSource db namespaceId row.originProposalId =
    .ok (some loaded.proposal)
  decisionRead : loadMemoryDecisionWith loadSource db namespaceId row.acceptedByDecisionId =
    .ok (some decision)
  materialized : validateMemoryMaterialization loaded.proposal decision initial root = .ok ()
  projected : loaded.record.params =
    { initial.params with
      currentState := tip.params.toState, lastStateEventId := tip.params.eventId }
  valid : validateMemoryEventChain loaded.record loaded.events = .ok ()
  references : ∀ event ∈ loaded.events,
    validateEventReferences db loaded.record event true none = .ok ()
  cause : tip.params.eventType = .superseded →
    validateStoredSupersessionCause db loaded.record tip = .ok ()
  exist : ∀ targetId ∈ loaded.record.params.contradictsMemoryIds,
    memoryExistsInNamespace db namespaceId targetId = true

theorem loadRecordBase_eq_ok {loadSource : SourceLoader} {row : RecordRow}
    {loaded : LoadedRecord} (h : loadRecordBase loadSource db namespaceId row = .ok loaded) :
    ∃ root tip decision initial,
      BaseRead loadSource db namespaceId row loaded root tip decision initial := by
  simp only [loadRecordBase, Except.bind_eq_ok_iff, Option.orError_eq_ok_iff,
    require_eq_ok_iff, Except.mapError_eq_ok_iff, checkAll_eq_ok_iff] at h
  obtain ⟨sources, hsources, supersedes, hsupersedes, contradicts, hcontradicts, events, hevents,
    root, hroot, -, hrootok, initial, hinitial, _, hproposal, proposal, rfl, _, hdecision,
    decision, rfl, ⟨⟩, hmaterialized, tip, htip, projected, hprojected, ⟨⟩, hvalid, -, hrefs, h⟩ :=
    h
  obtain ⟨rfl, rfl, rfl, rfl, hstate, hfirst⟩ := RecordRow.intoDomain_eq_ok hinitial
  have hproj := projectRecord_eq_ok_iff.1 hprojected
  split at h
  · rename_i hsup
    simp only [Except.bind_eq_ok_iff, Except.exists_unit_iff, require_eq_ok_iff,
      Except.pure_eq_ok_iff] at h
    obtain ⟨hcause, hexist, rfl⟩ := h
    exact ⟨root, tip, decision, initial, rfl, hsources, hsupersedes, hcontradicts, hstate, hfirst,
      hevents, hroot, htip, hrootok, hproposal, hdecision, hmaterialized, hproj, hvalid, hrefs,
      fun _ => hcause, hexist⟩
  · rename_i hsup
    simp only [Except.ok_bind, Except.bind_eq_ok_iff, Except.exists_unit_iff,
      require_eq_ok_iff, Except.pure_eq_ok_iff] at h
    obtain ⟨hexist, rfl⟩ := h
    exact ⟨root, tip, decision, initial, rfl, hsources, hsupersedes, hcontradicts, hstate, hfirst,
      hevents, hroot, htip, hrootok, hproposal, hdecision, hmaterialized, hproj, hvalid, hrefs,
      fun hc => absurd hc hsup, hexist⟩

/-- A record that loads has an active row, and so has the proposal it came from. -/
theorem loadMemoryRecordClosureInner_eq_ok {loadSource : SourceLoader} {bound : Nat}
    {memoryId : Identifier} {visiting : List Identifier} {closure : RecordClosure}
    (h : loadMemoryRecordClosureInner loadSource db namespaceId bound memoryId visiting =
      .ok (some closure)) :
    ∃ row loaded, activeRecordRow db namespaceId memoryId = some row ∧
      loadRecordBase loadSource db namespaceId row = .ok loaded ∧
      closure = (loaded.record, loaded.events) := by
  cases bound with
  | zero => cases h
  | succ bound =>
    simp only [loadMemoryRecordClosureInner] at h
    split at h
    · cases h
    · rename_i row hrow
      simp only [Except.bind_eq_ok_iff, Except.exists_unit_iff] at h
      obtain ⟨-, loaded, hbase, h⟩ := h
      refine ⟨row, loaded, hrow, hbase, ?_⟩
      split at h
      · simp only [Except.bind_eq_ok_iff, Except.exists_unit_iff, Except.pure_eq_ok_iff,
          Option.some.injEq] at h
        obtain ⟨_, -, -, rfl⟩ := h
        rfl
      · rw [Except.pure_eq_ok_iff, Option.some.injEq] at h
        exact h.symm

/-- The rows behind a loaded record. -/
theorem loadMemoryRecordClosureWith_rows {loadSource : SourceLoader} {memoryId : Identifier}
    {closure : RecordClosure}
    (h : loadMemoryRecordClosureWith loadSource db namespaceId memoryId = .ok (some closure)) :
    ∃ row proposal, activeRecordRow db namespaceId memoryId = some row ∧
      activeProposalRow db namespaceId row.originProposalId = some proposal ∧
      closure.1.params.memoryId = memoryId ∧
      row = RecordRow.ofRecord closure.1.params := by
  obtain ⟨row, loaded, hrow, hbase, rfl⟩ := loadMemoryRecordClosureInner_eq_ok h
  obtain ⟨root, tip, decision, initial, hread⟩ := loadRecordBase_eq_ok hbase
  have hproposal := loadMemoryProposalWith_eq_ok_iff.1 hread.proposalRead
  have hrecord : row = RecordRow.ofRecord loaded.record.params := by
    rw [hread.projected, hread.row_eq]
    rfl
  refine ⟨row, _, hrow, hproposal.row, ?_, hrecord⟩
  have hid := lookup_key (activeRecordRow_eq_some_iff.1 hrow).1
  rw [hrecord] at hid
  exact hid

end RadishMemory
