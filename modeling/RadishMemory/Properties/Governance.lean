import RadishMemory.Construction.Core.Context
import RadishMemory.Construction.Samples

/-!
# Governance along derivation

`validateGovernanceDerivation` compares a derived object with what it is derived from, one step
at a time: a fragment with its source, a proposal with its fragments, a record with its proposal,
a pack with its records, fragments and cited sources.  The relation it checks is a preorder
(`NoWeaker.refl`, `NoWeaker.trans`), so the steps compose: what a record or a pack rests on is
never governed more strictly than the record or the pack itself.
-/

namespace RadishMemory

/-! ## The relation -/

/-- What `validateGovernanceDerivation` checks of one source. -/
structure NoWeaker (derived source : Governance) : Prop where
  sensitivity : sensitivityRank source.sensitivity ≤ sensitivityRank derived.sensitivity
  retention : retentionIsNoLater derived source = true
  deletion : source.deletionState ≠ .active → derived.deletionState ≠ .active

theorem validateGovernanceDerivation_eq_ok_iff {derived : Governance} {sources : List Governance} :
    validateGovernanceDerivation derived sources = .ok () ↔
      sources ≠ [] ∧ ∀ source ∈ sources, NoWeaker derived source := by
  simp only [validateGovernanceDerivation, Except.bind_eq_ok_iff, Except.exists_unit_iff,
    require_eq_ok_iff, checkAll_eq_ok_iff]
  refine and_congr_right fun _ => forall₂_congr fun source _ => ?_
  constructor
  · rintro ⟨hsensitivity, hretention, hdeletion⟩
    exact ⟨by omega, hretention, fun hsource hderived => hdeletion ⟨hsource, hderived⟩⟩
  · rintro ⟨hsensitivity, hretention, hdeletion⟩
    exact ⟨by omega, hretention, fun h => hdeletion h.1 h.2⟩

/-- A rule that expires names the instant. -/
theorem RetentionRule.exists_expiry {rule : RetentionRule} (h : rule.mode = .untilTime) :
    ∃ expiry, rule.expiresAt = some expiry := by
  have hfields := rule.fieldsMatch
  rw [h] at hfields
  simp only [retentionFieldsMatch, Bool.and_eq_true] at hfields
  exact Option.isSome_iff_exists.1 hfields.1

theorem retentionIsNoLater_self (governance : Governance) :
    retentionIsNoLater governance governance = true := by
  cases hmode : governance.retention.mode with
  | untilDeleted => simp [retentionIsNoLater, hmode]
  | untilTime =>
    obtain ⟨expiry, hexpiry⟩ := RetentionRule.exists_expiry hmode
    simp [retentionIsNoLater, hmode, hexpiry, Timestamp.le_refl]
  | policy => simp [retentionIsNoLater, hmode]

theorem retentionIsNoLater_trans {a b c : Governance} (hab : retentionIsNoLater a b = true)
    (hbc : retentionIsNoLater b c = true) : retentionIsNoLater a c = true := by
  cases ha : a.retention.mode <;> cases hb : b.retention.mode <;> cases hc : c.retention.mode <;>
    simp only [retentionIsNoLater, ha, hb, hc, Bool.false_eq_true] at hab hbc ⊢
  case untilTime.untilTime.untilTime =>
    obtain ⟨left, hleft⟩ := RetentionRule.exists_expiry ha
    obtain ⟨middle, hmiddle⟩ := RetentionRule.exists_expiry hb
    obtain ⟨right, hright⟩ := RetentionRule.exists_expiry hc
    simp only [hleft, hmiddle, hright, decide_eq_true_eq] at hab hbc ⊢
    exact Timestamp.le_trans hab hbc
  case policy.policy.policy =>
    rw [beq_iff_eq] at hab hbc ⊢
    exact hab.trans hbc

theorem NoWeaker.refl (governance : Governance) : NoWeaker governance governance :=
  ⟨le_refl _, retentionIsNoLater_self governance, id⟩

theorem NoWeaker.trans {a b c : Governance} (hab : NoWeaker a b) (hbc : NoWeaker b c) :
    NoWeaker a c :=
  ⟨le_trans hbc.sensitivity hab.sensitivity, retentionIsNoLater_trans hab.retention hbc.retention,
    fun h => hab.deletion (hbc.deletion h)⟩

/-! ## What records and packs rest on -/

section Derivation

variable [Platform]

/-- The governance is no weaker than that of a fragment and of the source it was cut from. -/
def Covers (governance : Governance) (fragment : SourceFragment) (source : SourceArtifact) : Prop :=
  NoWeaker governance fragment.params.governance ∧ NoWeaker governance source.params.governance

/-- The record was materialized from an accepted proposal over these resolved fragments.  Later
events move a record's state and leave the fields named here alone. -/
def AcceptedFrom (record : MemoryRecord) (origins : List ResolvedSource) : Prop :=
  ∃ proposal decision accepted initialEvent,
    validateMemoryProposalSources proposal origins = .ok () ∧
    validateMemoryMaterialization proposal decision accepted initialEvent = .ok () ∧
    record.params.memoryId = accepted.params.memoryId ∧
    record.params.sourceFragmentRefs = accepted.params.sourceFragmentRefs ∧
    record.params.governance = accepted.params.governance

/-- The fragments, with their sources, that a pack cites, shows, or shows a record of. -/
inductive RestsOn (pack : ContextPack) (sources : List SourceArtifact)
    (fragments : List SourceFragment) (records : List MemoryRecord) :
    SourceFragment → SourceArtifact → Prop where
  | cited {citation : Citation} {fragment : SourceFragment} {source : SourceArtifact} :
      citation ∈ pack.params.citationMap →
      fragment ∈ fragments → fragment.params.fragmentId = citation.fragmentId →
      source ∈ sources → source.params.sourceId = citation.sourceId →
      RestsOn pack sources fragments records fragment source
  | shown {item : ContextItem} {objectRef : ObjectRef} {fragment : SourceFragment}
      {source : SourceArtifact} :
      item ∈ pack.params.items → objectRef ∈ item.params.objectRefs →
      objectRef.objectType = .sourceFragment →
      fragment ∈ fragments → fragment.params.fragmentId = objectRef.objectId →
      source ∈ sources → source.params.sourceId = fragment.params.sourceId →
      RestsOn pack sources fragments records fragment source
  | remembered {item : ContextItem} {objectRef : ObjectRef} {record : MemoryRecord}
      {origins : List ResolvedSource} {origin : ResolvedSource} :
      item ∈ pack.params.items → objectRef ∈ item.params.objectRefs →
      objectRef.objectType = .memoryRecord →
      record ∈ records → record.params.memoryId = objectRef.objectId →
      AcceptedFrom record origins → origin ∈ origins →
      RestsOn pack sources fragments records origin.fragment origin.source

theorem fragment_noWeaker {fragment : SourceFragment} {source : SourceArtifact}
    (h : validateSourceFragmentResolution fragment source = .ok ()) :
    NoWeaker fragment.params.governance source.params.governance := by
  simp only [validateSourceFragmentResolution, Except.bind_eq_ok_iff, Except.exists_unit_iff] at h
  obtain ⟨-, -, -, hderivation, -⟩ := h
  exact (validateGovernanceDerivation_eq_ok_iff.1 hderivation).2 _ List.mem_cons_self

/-- Governance no weaker than a fragment's is no weaker than that of the fragment's source. -/
theorem Covers.of_fragment {governance : Governance} {fragment : SourceFragment}
    {source : SourceArtifact} (h : NoWeaker governance fragment.params.governance)
    (hresolved : validateSourceFragmentResolution fragment source = .ok ()) :
    Covers governance fragment source :=
  ⟨h, h.trans (fragment_noWeaker hresolved)⟩

theorem Covers.trans {derived governance : Governance} {fragment : SourceFragment}
    {source : SourceArtifact} (h : NoWeaker derived governance)
    (hcovers : Covers governance fragment source) : Covers derived fragment source :=
  ⟨h.trans hcovers.1, h.trans hcovers.2⟩

theorem proposal_covers {proposal : MemoryProposal} {origins : List ResolvedSource}
    (h : validateMemoryProposalSources proposal origins = .ok ()) {origin : ResolvedSource}
    (horigin : origin ∈ origins) :
    Covers proposal.params.governance origin.fragment origin.source := by
  simp only [validateMemoryProposalSources, Except.bind_eq_ok_iff, Except.exists_unit_iff,
    checkAll_eq_ok_iff] at h
  obtain ⟨-, -, hresolved, hderivation⟩ := h
  have hfragment : NoWeaker proposal.params.governance origin.fragment.params.governance :=
    (validateGovernanceDerivation_eq_ok_iff.1 hderivation).2 _ (List.mem_map_of_mem horigin)
  exact Covers.of_fragment hfragment (hresolved origin horigin).2.2.1

theorem record_noWeaker {proposal : MemoryProposal} {decision : MemoryDecision}
    {record : MemoryRecord} {initialEvent : MemoryStateEvent}
    (h : validateMemoryMaterialization proposal decision record initialEvent = .ok ()) :
    NoWeaker record.params.governance proposal.params.governance := by
  simp only [validateMemoryMaterialization, Except.bind_eq_ok_iff, Except.exists_unit_iff] at h
  obtain ⟨-, -, -, -, -, -, -, hderivation, -⟩ := h
  exact (validateGovernanceDerivation_eq_ok_iff.1 hderivation).2 _ List.mem_cons_self

theorem AcceptedFrom.covers {record : MemoryRecord} {origins : List ResolvedSource}
    (h : AcceptedFrom record origins) {origin : ResolvedSource} (horigin : origin ∈ origins) :
    Covers record.params.governance origin.fragment origin.source := by
  obtain ⟨proposal, decision, accepted, initialEvent, hsources, hmaterialized, -, -, hsame⟩ := h
  rw [hsame]
  exact (proposal_covers hsources horigin).trans (record_noWeaker hmaterialized)

/-- The origins of a record are all the fragments it names. -/
theorem AcceptedFrom.complete {record : MemoryRecord} {origins : List ResolvedSource}
    (h : AcceptedFrom record origins) {fragmentId : Identifier}
    (hid : fragmentId ∈ record.params.sourceFragmentRefs) :
    ∃ origin ∈ origins, origin.fragment.params.fragmentId = fragmentId := by
  obtain ⟨proposal, decision, accepted, initialEvent, hsources, hmaterialized, -, hrefs, -⟩ := h
  simp only [validateMemoryProposalSources, requireExactIds, Except.bind_eq_ok_iff,
    Except.exists_unit_iff, require_eq_ok_iff] at hsources
  simp only [validateMemoryMaterialization, materializationContentMatches, Except.bind_eq_ok_iff,
    Except.exists_unit_iff, require_eq_ok_iff, Bool.and_eq_true] at hmaterialized
  have hproposal : fragmentId ∈ proposal.params.sourceFragmentRefs := by
    obtain ⟨-, -, -, -, -, -, ⟨⟨⟨⟨⟨⟨-, hset⟩, -⟩, -⟩, -⟩, -⟩, -⟩, -⟩ := hmaterialized
    simp only [sameIdentifierSet, Bool.and_eq_true, List.all_eq_true, decide_eq_true_eq] at hset
    exact hset.1 fragmentId (hrefs ▸ hid)
  have hset := hsources.1.2
  simp only [sameIdentifierSet, Bool.and_eq_true, List.all_eq_true, decide_eq_true_eq] at hset
  exact List.mem_map.1 (hset.1 fragmentId hproposal)

/-! ## Packs -/

/-- What a resolved pack was checked for. -/
structure Resolved (pack : ContextPack) (sources : List SourceArtifact)
    (fragments : List SourceFragment) (records : List MemoryRecord) : Prop where
  uniqueSources : UniqueBy sourceKey sources
  uniqueFragments : UniqueBy fragmentKey fragments
  uniqueRecords : UniqueBy recordKey records
  objectRefs : ∀ item ∈ pack.params.items, ∀ objectRef ∈ item.params.objectRefs,
    validateContextObjectRef pack item.params.itemType objectRef sources fragments records = .ok ()
  citations : ∀ citation ∈ pack.params.citationMap,
    validateCitation pack sources fragments citation = .ok ()

variable {pack : ContextPack} {sources : List SourceArtifact} {fragments : List SourceFragment}
  {records : List MemoryRecord}

theorem resolved_of_validate
    (h : validateContextPackResolution pack sources fragments records = .ok ()) :
    Resolved pack sources fragments records := by
  simp only [validateContextPackResolution, requireIndexed, validateContextItem,
    Except.bind_eq_ok_iff, Except.exists_unit_iff, require_eq_ok_iff, checkAll_eq_ok_iff] at h
  obtain ⟨-, hsources, hfragments, hrecords, hitems, -, hcitations⟩ := h
  exact ⟨hsources, hfragments, hrecords, fun item hitem => (hitems item hitem).2, hcitations⟩

/-- A reference to a fragment is to one that resolves in its source. -/
theorem validateContextObjectRef_fragment {itemType : ContextItemType} {objectRef : ObjectRef}
    (h : validateContextObjectRef pack itemType objectRef sources fragments records = .ok ())
    (htype : objectRef.objectType = .sourceFragment) :
    ∃ fragment source, lookup fragmentKey fragments objectRef.objectId = some fragment ∧
      lookup sourceKey sources fragment.params.sourceId = some source ∧
      Covers pack.params.governance fragment source := by
  unfold validateContextObjectRef at h
  by_cases hfragment : objectRef.objectType = .sourceFragment ∧ itemType.takesFragments = true
  · rw [if_pos hfragment] at h
    simp only [validateContextFragmentRef, Except.bind_eq_ok_iff, Except.exists_unit_iff,
      Option.orError_eq_ok_iff] at h
    obtain ⟨fragment, hlookup, source, hsource, -, hresolved, -, hderivation⟩ := h
    have hgovernance := (validateGovernanceDerivation_eq_ok_iff.1 hderivation).2
      fragment.params.governance List.mem_cons_self
    exact ⟨fragment, source, hlookup, hsource, Covers.of_fragment hgovernance hresolved⟩
  · rw [if_neg hfragment, htype, if_neg (by simp)] at h
    cases h

/-- A reference to a record is to one whose governance the pack keeps. -/
theorem validateContextObjectRef_record {itemType : ContextItemType} {objectRef : ObjectRef}
    (h : validateContextObjectRef pack itemType objectRef sources fragments records = .ok ())
    (htype : objectRef.objectType = .memoryRecord) :
    ∃ record, lookup recordKey records objectRef.objectId = some record ∧
      NoWeaker pack.params.governance record.params.governance := by
  unfold validateContextObjectRef at h
  rw [if_neg (by simp [htype])] at h
  by_cases hrecord : objectRef.objectType = .memoryRecord ∧ itemType.takesRecords = true
  · rw [if_pos hrecord] at h
    simp only [validateContextRecordRef, Except.bind_eq_ok_iff, Except.exists_unit_iff,
      Option.orError_eq_ok_iff] at h
    obtain ⟨record, hlookup, -, -, -, hderivation⟩ := h
    exact ⟨record, hlookup, (validateGovernanceDerivation_eq_ok_iff.1 hderivation).2
      record.params.governance List.mem_cons_self⟩
  · rw [if_neg hrecord] at h
    cases h

theorem validateCitation_covers {citation : Citation}
    (h : validateCitation pack sources fragments citation = .ok ()) :
    ∃ fragment source, lookup fragmentKey fragments citation.fragmentId = some fragment ∧
      lookup sourceKey sources citation.sourceId = some source ∧
      Covers pack.params.governance fragment source := by
  simp only [validateCitation, Except.bind_eq_ok_iff, Except.exists_unit_iff,
    Option.orError_eq_ok_iff] at h
  obtain ⟨fragment, hlookup, source, hsource, -, -, hresolved, -, hderivation, -⟩ := h
  have hgovernance := (validateGovernanceDerivation_eq_ok_iff.1 hderivation).2
    fragment.params.governance (by simp)
  exact ⟨fragment, source, hlookup, hsource, Covers.of_fragment hgovernance hresolved⟩

theorem Resolved.covers (h : Resolved pack sources fragments records) {fragment : SourceFragment}
    {source : SourceArtifact} (hrests : RestsOn pack sources fragments records fragment source) :
    Covers pack.params.governance fragment source := by
  cases hrests with
  | cited hcitation hfragment hfragmentId hsource hsourceId =>
    obtain ⟨fragment', source', hlookup, hlookup', hcovers⟩ :=
      validateCitation_covers (h.citations _ hcitation)
    rw [← hfragmentId] at hlookup
    rw [← hsourceId] at hlookup'
    have heq := (lookup_of_mem h.uniqueFragments hfragment).symm.trans hlookup
    have heq' := (lookup_of_mem h.uniqueSources hsource).symm.trans hlookup'
    cases heq
    cases heq'
    exact hcovers
  | shown hitem hobjectRef htype hfragment hfragmentId hsource hsourceId =>
    obtain ⟨fragment', source', hlookup, hlookup', hcovers⟩ :=
      validateContextObjectRef_fragment (h.objectRefs _ hitem _ hobjectRef) htype
    rw [← hfragmentId] at hlookup
    have heq := (lookup_of_mem h.uniqueFragments hfragment).symm.trans hlookup
    cases heq
    rw [← hsourceId] at hlookup'
    have heq' := (lookup_of_mem h.uniqueSources hsource).symm.trans hlookup'
    cases heq'
    exact hcovers
  | remembered hitem hobjectRef htype hrecord hrecordId haccepted horigin =>
    obtain ⟨record', hlookup, hgovernance⟩ :=
      validateContextObjectRef_record (h.objectRefs _ hitem _ hobjectRef) htype
    rw [← hrecordId] at hlookup
    have heq := (lookup_of_mem h.uniqueRecords hrecord).symm.trans hlookup
    cases heq
    exact (haccepted.covers horigin).trans hgovernance

/-- Every citation of a resolved pack is of a fragment and a source that it rests on. -/
theorem Resolved.citation_resolves (h : Resolved pack sources fragments records)
    {citation : Citation} (hcitation : citation ∈ pack.params.citationMap) :
    ∃ fragment source, RestsOn pack sources fragments records fragment source ∧
      fragment.params.fragmentId = citation.fragmentId ∧
      source.params.sourceId = citation.sourceId := by
  obtain ⟨fragment, source, hlookup, hlookup', -⟩ :=
    validateCitation_covers (h.citations _ hcitation)
  have hfragmentId : fragmentKey fragment = citation.fragmentId := lookup_key hlookup
  have hsourceId : sourceKey source = citation.sourceId := lookup_key hlookup'
  exact ⟨fragment, source, .cited hcitation (lookup_mem hlookup) hfragmentId (lookup_mem hlookup')
    hsourceId, hfragmentId, hsourceId⟩

/-- Governance never weakens along derivation: the checked relation is a preorder, and a record
or a pack that passed its validators is governed at least as strictly as every fragment and every
source it was derived from or cites. -/
theorem governance_never_weakens :
    (∀ governance, NoWeaker governance governance) ∧
    (∀ a b c, NoWeaker a b → NoWeaker b c → NoWeaker a c) ∧
    (∀ derived sources, validateGovernanceDerivation derived sources = .ok () ↔
      sources ≠ [] ∧ ∀ source ∈ sources, NoWeaker derived source) ∧
    (∀ (record : MemoryRecord) origins, AcceptedFrom record origins →
      (∀ fragmentId ∈ record.params.sourceFragmentRefs,
        ∃ origin ∈ origins, origin.fragment.params.fragmentId = fragmentId) ∧
      ∀ origin ∈ origins, Covers record.params.governance origin.fragment origin.source) ∧
    (∀ (pack : ContextPack) sources fragments records,
      validateContextPackResolution pack sources fragments records = .ok () →
      (∀ citation ∈ pack.params.citationMap, ∃ fragment source,
        RestsOn pack sources fragments records fragment source ∧
        fragment.params.fragmentId = citation.fragmentId ∧
        source.params.sourceId = citation.sourceId) ∧
      ∀ fragment source, RestsOn pack sources fragments records fragment source →
        Covers pack.params.governance fragment source) := by
  refine ⟨NoWeaker.refl, fun _ _ _ => NoWeaker.trans,
    fun _ _ => validateGovernanceDerivation_eq_ok_iff, ?_, ?_⟩
  · intro record origins haccepted
    exact ⟨fun _ => haccepted.complete, fun _ => haccepted.covers⟩
  · intro pack sources fragments records hvalid
    have hresolved := resolved_of_validate hvalid
    exact ⟨fun _ => hresolved.citation_resolves, fun _ _ => hresolved.covers⟩

end Derivation

section Pack

open Sample

theorem packRecord_accepted : AcceptedFrom packRecord [packOrigin] :=
  ⟨proposal (identifier "proposal-1") [identifier "fragment-1"] [] fromStart,
    accept (identifier "decision-1") (identifier "proposal-1") (identifier "memory-1"),
    packRecord, confirmed (identifier "event-1") (identifier "memory-1") (identifier "decision-1"),
    by decide +kernel, by decide +kernel, rfl, rfl, rfl⟩

/-- A pack that shows one record and cites the record's fragment. -/
theorem governance_never_weakens_in_one_pack :
    Covers packRecord.params.governance packOrigin.fragment packOrigin.source ∧
    Covers Sample.pack.params.governance packOrigin.fragment packOrigin.source := by
  have h := governance_never_weakens
  obtain ⟨-, -, -, hrecord, hpack⟩ := h
  have hvalid : validateContextPackResolution Sample.pack [packOrigin.source]
      [packOrigin.fragment] [packRecord] = .ok () := by
    decide +kernel
  have hcited : RestsOn Sample.pack [packOrigin.source] [packOrigin.fragment] [packRecord]
      packOrigin.fragment packOrigin.source :=
    .cited (List.mem_singleton_self packCitation) List.mem_cons_self rfl List.mem_cons_self rfl
  exact ⟨(hrecord _ _ packRecord_accepted).2 _ List.mem_cons_self,
    (hpack _ _ _ _ hvalid).2 _ _ hcited⟩

end Pack

end RadishMemory
