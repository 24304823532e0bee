import RadishMemory.Properties.Lineages
import RadishMemory.Properties.MemoryProtocol
import RadishMemory.Properties.Scope

/-!
# What was stored is read back

A load rebuilds an object from the rows of several tables and validates it again.  Here: as long
as an object is active, every change of the library leaves what its load returns.

The proofs go by dependency.  A source depends on its body and on the rows of the sources it
superseded, a fragment on its source, a proposal on the fragments it cites, a decision on its
proposal and on the other decisions of it.  At each level a change that would disturb a
dependency closes the dependent object as well.
-/

namespace RadishMemory

variable [Platform] {db db' : Database}

/-! ## Active rows -/

namespace ClosedTable

variable {α : Type} {T : ClosedTable α}

/-- A row that is active after a change is as it was. -/
theorem on_eq_of_active {c : Change} {row : α}
    (hopen : T.state row = .active → ∀ D, ¬ Frozen db D T.component (T.id row))
    (hactive : T.state (T.on db c row) = .active) : T.on db c row = row := by
  unfold on at hactive ⊢
  split at hactive
  · split at hactive
    · rw [T.state_setState] at hactive
      cases hactive
    · rename_i hcloses
      exact if_neg hcloses
  · rename_i executed n componentType
    by_cases hfrozen : Frozen db executed.params.deleteRequestId T.component (T.id row)
    · rw [if_pos hfrozen] at hactive ⊢
      have hstate : T.state row ≠ .active := fun h => hopen h _ hfrozen
      by_cases hredact : componentType = T.component
      · rw [if_pos hredact, T.state_redact] at hactive
        exact absurd hactive hstate
      · rw [if_neg hredact] at hactive ⊢
        by_cases haudit : componentType = .minimalAudit
        · rw [if_pos haudit, T.state_setState, finalState] at hactive
          split at hactive <;> cases hactive
        · rw [if_neg haudit]
    · rw [if_neg hfrozen]
  · rfl

/-- An active row that no plan holds stays, unless the change is a request that closes it. -/
theorem on_eq_or_closed {c : Change} {row : α}
    (hopen : ∀ D, ¬ Frozen db D T.component (T.id row)) :
    T.on db c row = row ∨ ∃ request closure, c = .request request closure ∧
      T.closes request closure row = true := by
  unfold on
  split
  · rename_i request closure
    by_cases hcloses : T.closes request closure row = true
    · exact .inr ⟨request, closure, rfl, hcloses⟩
    · exact .inl (if_neg hcloses)
  · exact .inl (if_neg (hopen _))
  · exact .inl rfl

/-- An object that is active after a change has the row it had before. -/
theorem Sound.row_stays (hT : T.Sound) (hc : Constraints db) {c : Change}
    (happlies : c.Applies db db') (hunique : UniqueBy T.id (T.rows db'.toDataTables)) {row : α}
    (hopen : T.state row = .active → ∀ D, ¬ Frozen db D T.component (T.id row))
    (hrow : row ∈ T.rows db.toDataTables)
    (hactive : ∃ r ∈ T.rows db'.toDataTables, T.id r = T.id row ∧ T.state r = .active) :
    row ∈ T.rows db'.toDataTables ∧ T.state row = .active := by
  obtain ⟨r, hr, hid, hstate⟩ := hactive
  have hon : T.on db c row ∈ T.rows db'.toDataTables :=
    (hT.mem_rows hc happlies).2 (.inl ⟨row, hrow, rfl⟩)
  have heq : r = T.on db c row := hunique.eq_of_mem hr hon (hid.trans (T.on_id c row).symm)
  rw [heq] at hstate
  have hsame := on_eq_of_active hopen hstate
  rw [hsame] at hon hstate
  exact ⟨hon, hstate⟩

end ClosedTable

/-! ## Sources -/

/-- The rows a source is read from. -/
structure SourceRead (db : Database) (source : SourceArtifact) : Prop where
  row : lookup SourceRow.sourceId db.sources source.params.sourceId =
    some (SourceRow.ofArtifact source.params)
  body : lookup BodyRow.sourceId db.bodies source.params.sourceId =
    some (BodyRow.ofArtifact source.params)
  supersedes : loadSupersededIds db source.params.sourceId =
    .ok source.params.supersedesSourceIds
  targets : ∀ id ∈ source.params.supersedesSourceIds, ∃ t,
    lookup SourceRow.sourceId db.sources id = some t ∧
      supersededSourceMatches source.params t = true

theorem SourceRow.intoDomain_ofArtifact (source : SourceArtifact) :
    (SourceRow.ofArtifact source.params).intoDomain (some source.params.content.asStr)
      source.params.supersedesSourceIds = .ok source := by
  have htext : nonEmptyText source.params.content.asStr = .ok source.params.content := by
    rw [nonEmptyText, NonEmptyText.new_asStr]
    rfl
  simp only [SourceRow.intoDomain, Option.orError, Except.ok_bind, htext]
  exact Except.mapError_eq_ok_iff.2 (Checked.new_params source)

theorem validateStoredSupersededSources_eq_ok_iff {source : SourceArtifact} :
    validateStoredSupersededSources db source = .ok () ↔
      ∀ id ∈ source.params.supersedesSourceIds, ∃ t,
        lookup SourceRow.sourceId db.sources id = some t ∧
          supersededSourceMatches source.params t = true := by
  simp only [validateStoredSupersededSources, checkAll_eq_ok_iff, Except.bind_eq_ok_iff,
    Option.orError_eq_ok_iff, loadSourceRelationTarget, require_eq_ok_iff]

/-- A source that loads has its rows, and its rows are all it needs. -/
theorem loadSourceArtifact_eq_ok_iff {namespaceId sourceId : Identifier}
    {source : SourceArtifact} :
    loadSourceArtifact db namespaceId sourceId = .ok (some source) ↔
      SourceRead db source ∧ source.params.namespaceId = namespaceId ∧
        source.params.sourceId = sourceId ∧
        source.params.governance.deletionState = .active := by
  constructor
  · intro h
    obtain ⟨row, hlookup, rfl, hactive, rfl⟩ := loadSourceArtifact_eq_ok h
    have hid : (SourceRow.ofArtifact source.params).sourceId = sourceId := lookup_key hlookup
    subst hid
    have hrow : activeSourceRow db (SourceRow.ofArtifact source.params).namespaceId
        (SourceRow.ofArtifact source.params).sourceId =
        some (SourceRow.ofArtifact source.params) :=
      activeSourceRow_eq_some_iff.2 ⟨hlookup, rfl, hactive⟩
    simp only [loadSourceArtifact, loadSourceWithBody, hrow, Except.bind_eq_ok_iff,
      Except.exists_unit_iff, Except.pure_eq_ok_iff, Option.some.injEq, SourceRow.intoDomain,
      Except.mapError_eq_ok_iff, SourceArtifact.new, Checked.new_eq_ok_iff,
      Option.orError_eq_ok_iff, Option.none_or, Option.map_eq_some_iff] at h
    obtain ⟨ids, hids, loaded, ⟨text, ⟨body, hbody, rfl⟩, content, hcontent, hparams⟩, hvalid,
      rfl⟩ := h
    have htext : loaded.params.content = content := by rw [hparams]
    have hsupersedes : loaded.params.supersedesSourceIds = ids := by rw [hparams]
    refine ⟨⟨hlookup, ?_, ?_, validateStoredSupersededSources_eq_ok_iff.1 hvalid⟩, rfl, rfl,
      hactive⟩
    · rw [show loaded.params.sourceId = (SourceRow.ofArtifact loaded.params).sourceId from rfl,
        hbody]
      have hbodyId := lookup_key hbody
      have hbodyText : body.content = loaded.params.content.asStr := by
        simp only [nonEmptyText, NonEmptyText.new, Except.mapError_eq_ok_iff] at hcontent
        split at hcontent
        · cases hcontent
          rw [htext]
        · cases hcontent
      obtain ⟨bodyId, bodyText⟩ := body
      dsimp only at hbodyId hbodyText
      rw [hbodyId, hbodyText]
      rfl
    · rw [hsupersedes]
      exact hids
  · rintro ⟨h, rfl, rfl, hactive⟩
    have hrow : activeSourceRow db source.params.namespaceId source.params.sourceId =
        some (SourceRow.ofArtifact source.params) :=
      activeSourceRow_eq_some_iff.2 ⟨h.row, rfl, hactive⟩
    simp only [loadSourceArtifact, loadSourceWithBody, hrow, h.body, h.supersedes,
      Except.ok_bind, Option.map_some, Option.none_or, BodyRow.ofArtifact,
      SourceRow.intoDomain_ofArtifact, validateStoredSupersededSources_eq_ok_iff.2 h.targets]
    rfl

/-- What a change adds to the relation between sources; nothing is ever removed from it. -/
def Change.newSupersedes : Change → List (Child Identifier Identifier)
  | .source new => enumerate new.params.sourceId 0 new.params.supersedesSourceIds
  | _ => []

theorem Change.Applies.sourceSupersedes (hc : Constraints db) {c : Change}
    (h : c.Applies db db') :
    db'.sourceSupersedes = db.sourceSupersedes ++ c.newSupersedes := by
  have htables : (c.tables db).sourceSupersedes = db.sourceSupersedes ++ c.newSupersedes := by
    cases c with
    | source new => rfl
    | component executed n componentType =>
      cases componentType with
      | _ => exact (List.append_nil _).symm
    | _ => exact (List.append_nil _).symm
  rw [← htables, h.tables hc]
  rfl

/-- The id of a stored source is not given to a new one. -/
theorem Change.Applies.newSupersedes_owner {c : Change} (h : c.Applies db db') {s : SourceRow}
    (hs : s ∈ db.sources) : ∀ link ∈ c.newSupersedes, link.owner ≠ s.sourceId := by
  intro link hlink
  cases c with
  | source new =>
    rw [(mem_enumerate hlink).1]
    exact fun heq => SourceAdded.fresh h s hs heq.symm
  | _ => cases hlink

/-- A source keeps its row for ever, at its place in its lineage. -/
theorem Change.Applies.position_stays (hc : Constraints db) {c : Change} (h : c.Applies db db')
    (hc' : Constraints db') {id : Identifier} {s : SourceRow}
    (hlookup : lookup SourceRow.sourceId db.sources id = some s) :
    ∃ s', lookup SourceRow.sourceId db'.sources id = some s' ∧ s'.position = s.position := by
  have hid := lookup_key hlookup
  have hmem : sourceTable.on db c s ∈ db'.sources :=
    (sourceTable_sound.mem_rows hc h).2 (.inl ⟨s, lookup_mem hlookup, rfl⟩)
  have hposition : (sourceTable.on db c s).position = s.position :=
    CapturedLibrary.on_position c s
  refine ⟨_, ?_, hposition⟩
  rw [lookup_eq_some_iff hc'.sourceIds]
  exact ⟨hmem, (position_eq_iff.1 hposition).1.trans hid⟩

/-- The body of an active source stays. -/
theorem Change.Applies.body_stays (h : PlannedLibrary db) {c : Change}
    (happlies : c.Applies db db') {s : SourceRow} (hs : s ∈ db.sources) (hactive : s.governance.deletionState = .active)
    {body : BodyRow} (hbody : lookup BodyRow.sourceId db.bodies s.sourceId = some body) :
    lookup BodyRow.sourceId db'.bodies s.sourceId = some body := by
  rw [happlies.bodies h.library.constraints]
  refine lookup_append_of_some ?_
  rw [lookup_filter, hbody]
  intro row hrow hkey
  cases c with
  | component executed n componentType =>
    cases componentType with
    | sourceBody =>
      obtain ⟨planned, result, acted, hdone⟩ := happlies
      obtain ⟨closure, hplan⟩ := PlansStored.of_loaded h.plans hdone.loaded
      rw [Change.keepsBody, notFrozen_iff, hkey, hplan.frozen_body_iff]
      exact h.library.source_not_frozen hs hactive _
    | _ => rfl
  | _ => rfl

/-- A source that loads keeps loading, and as the same object, while it is active. -/
theorem loadSourceArtifact_stays (h : PlannedLibrary db) {c : Change}
    (happlies : c.Applies db db') {namespaceId sourceId : Identifier} {source : SourceArtifact}
    (hload : loadSourceArtifact db namespaceId sourceId = .ok (some source))
    (hactive : ∃ r ∈ db'.sources, r.sourceId = sourceId ∧
      r.governance.deletionState = .active) :
    loadSourceArtifact db' namespaceId sourceId = .ok (some source) := by
  have hc := h.library.constraints
  have hc' := hc.step happlies
  obtain ⟨hread, rfl, rfl, hstate⟩ := loadSourceArtifact_eq_ok_iff.1 hload
  have hrow := lookup_mem hread.row
  obtain ⟨hrow', -⟩ := sourceTable_sound.row_stays hc happlies hc'.sourceIds
    (fun hopen => h.library.source_not_frozen hrow hopen) hrow hactive
  refine loadSourceArtifact_eq_ok_iff.2 ⟨⟨?_, ?_, ?_, ?_⟩, rfl, rfl, hstate⟩
  · exact (lookup_eq_some_iff hc'.sourceIds).2 ⟨hrow', rfl⟩
  · exact happlies.body_stays h hrow hstate hread.body
  · have hnew : ∀ link ∈ c.newSupersedes, link.owner ≠ source.params.sourceId :=
      happlies.newSupersedes_owner hrow
    rw [loadSupersededIds, happlies.sourceSupersedes hc, loadChildren_append_of_ne hnew]
    exact hread.supersedes
  · intro id hid
    obtain ⟨t, ht, hmatches⟩ := hread.targets id hid
    obtain ⟨t', ht', hposition⟩ := happlies.position_stays hc hc' ht
    refine ⟨t', ht', ?_⟩
    obtain ⟨-, ⟨hns, hlineage⟩, hversion⟩ := position_eq_iff.1 hposition
    rw [supersededSourceMatches, hns, hlineage, hversion]
    exact hmatches

/-! ## Fragments -/

/-- The rows a fragment is read from. -/
structure FragmentRead (db : Database) (namespaceId fragmentId : Identifier)
    (resolved : ResolvedSource) : Prop where
  row : activeFragmentRow db namespaceId fragmentId =
    some (FragmentRow.ofFragment resolved.fragment.params)
  headings : loadHeadingPath db fragmentId = .ok resolved.fragment.params.headingPath
  source : loadSourceArtifact db namespaceId resolved.fragment.params.sourceId =
    .ok (some resolved.source)
  resolution : validateSourceFragmentResolution resolved.fragment resolved.source = .ok ()

theorem FragmentRow.intoDomain_eq_ok_iff {row : FragmentRow} {source : SourceArtifact}
    {headingPath : Option (List NonEmptyText)} {fragment : SourceFragment}
    (hresolution : validateSourceFragmentResolution fragment source = .ok ()) :
    row.intoDomain source headingPath = .ok fragment ↔
      row = FragmentRow.ofFragment fragment.params ∧
        fragment.params.headingPath = headingPath := by
  constructor
  · intro h
    refine ⟨FragmentRow.intoDomain_eq_ok h, ?_⟩
    simp only [FragmentRow.intoDomain, Except.bind_eq_ok_iff, Except.mapError_eq_ok_iff,
      SourceFragment.new, Checked.new_eq_ok_iff] at h
    obtain ⟨_, -, _, -, hparams⟩ := h
    rw [hparams]
  · rintro ⟨rfl, rfl⟩
    obtain ⟨-, -, -, -, hslice⟩ := validateSourceFragmentResolution_eq_ok_iff.1 hresolution
    simp only [FragmentRow.intoDomain, FragmentRow.ofFragment, hslice, Option.orError,
      Except.ok_bind, nonEmptyText, NonEmptyText.new_asStr, Except.mapError]
    exact Except.mapError_eq_ok_iff.2 (Checked.new_params fragment)

theorem loadResolvedSourceFragment_eq_ok_iff {namespaceId fragmentId : Identifier}
    {resolved : ResolvedSource} :
    loadResolvedSourceFragment db namespaceId fragmentId = .ok (some resolved) ↔
      FragmentRead db namespaceId fragmentId resolved := by
  constructor
  · intro h
    obtain ⟨hrow, hsource, hstored⟩ := loadResolvedFragmentWith_eq_ok h
    have hid : (FragmentRow.ofFragment resolved.fragment.params).fragmentId = fragmentId :=
      lookup_key (activeFragmentRow_eq_some_iff.1 hrow).1
    simp only [loadStoredFragment, Except.bind_eq_ok_iff, Except.exists_unit_iff,
      Except.pure_eq_ok_iff, Except.mapError_eq_ok_iff] at hstored
    obtain ⟨headings, hheadings, fragment, hinto, hresolution, rfl⟩ := hstored
    obtain ⟨-, hpath⟩ := (FragmentRow.intoDomain_eq_ok_iff hresolution).1 hinto
    refine ⟨hrow, ?_, hsource, hresolution⟩
    rw [hpath, ← hid]
    exact hheadings
  · intro h
    have hid : (FragmentRow.ofFragment resolved.fragment.params).fragmentId = fragmentId :=
      lookup_key (activeFragmentRow_eq_some_iff.1 h.row).1
    have hinto := (FragmentRow.intoDomain_eq_ok_iff h.resolution).2 ⟨rfl, rfl⟩
    have hheadings : loadHeadingPath db (FragmentRow.ofFragment
        resolved.fragment.params).fragmentId = .ok resolved.fragment.params.headingPath := by
      rw [← h.headings, ← hid]
    have hsource : loadSourceArtifact db namespaceId (FragmentRow.ofFragment
        resolved.fragment.params).sourceId = .ok (some resolved.source) := h.source
    have hstored : loadStoredFragment db resolved.source
        (FragmentRow.ofFragment resolved.fragment.params) = .ok resolved.fragment := by
      rw [loadStoredFragment, hheadings, Except.ok_bind, hinto, Except.ok_bind, h.resolution]
      rfl
    rw [loadResolvedSourceFragment, loadResolvedFragmentWith, h.row]
    dsimp only
    rw [hsource, Except.ok_bind, Option.orError, Except.ok_bind, hstored]
    rfl

/-- A fragment that is active after a change was not touched by it. -/
theorem Change.Applies.fragment_row_stays (hc : Constraints db) {c : Change}
    (h : c.Applies db db') {f : FragmentRow} (hf : f ∈ db.fragments)
    (hactive : ∃ r ∈ db'.fragments, r.fragmentId = f.fragmentId ∧
      r.governance.deletionState = .active) :
    f ∈ db'.fragments ∧ c.keepsFragment db f = true ∧ c.onFragment f = f := by
  obtain ⟨r, hr, hid, hstate⟩ := hactive
  obtain ⟨old, hold, hkeeps, rfl⟩ | hnew := (h.mem_fragments hc).1 hr
  · obtain rfl : old = f := hc.fragmentIds.eq_of_mem hold hf ((c.onFragment_key old).1.symm.trans hid)
    have hsame : c.onFragment old = old := by
      cases c with
      | request new closure =>
        simp only [Change.onFragment] at hstate ⊢
        by_cases hcloses : fragmentIsClosed new.params.namespaceId closure old = true
        · rw [if_pos hcloses] at hstate
          cases hstate
        · exact if_neg hcloses
      | _ => rfl
    rw [hsame] at hr
    exact ⟨hr, hkeeps, hsame⟩
  · cases c with
    | fragments owner new =>
      obtain ⟨fragment, hfragment, rfl⟩ := List.mem_map.1 hnew
      exact absurd hid.symm ((FragmentsAdded.fresh h).ids fragment hfragment f hf)
    | _ => cases hnew

/-- The headings of a fragment stay as long as its row does. -/
theorem Change.Applies.fragment_headings_stay (hc : Constraints db) {c : Change}
    (h : c.Applies db db') {f : FragmentRow} (hf : f ∈ db.fragments)
    (hkeeps : c.keepsFragment db f = true) (e : SqliteError) :
    loadChildren e db'.headings f.fragmentId = loadChildren e db.headings f.fragmentId := by
  rw [h.headings hc, loadChildren_append_of_ne, loadChildren_filter]
  · intro row hrow howner
    cases c with
    | component executed n componentType =>
      cases componentType with
      | sourceFragment =>
        simp only [Change.keepsFragment, Change.keepsHeading, notFrozen] at hkeeps ⊢
        rw [howner]
        exact hkeeps
      | _ => rfl
    | _ => rfl
  · intro row hrow
    cases c with
    | fragments owner new =>
      obtain ⟨fragment, hfragment, hheading⟩ := List.mem_flatMap.1 hrow
      rw [(mem_enumerate hheading).1]
      exact ((FragmentsAdded.fresh h).ids fragment hfragment f hf).symm
    | _ => cases hrow

/-- Closing a source closes its fragments. -/
theorem Change.Applies.source_of_fragment_stays (h : LibraryInvariant db) {c : Change}
    (happlies : c.Applies db db') {s : SourceRow} (hs : s ∈ db.sources)
    (hactive : s.governance.deletionState = .active) {f : FragmentRow} (hf : f ∈ db.fragments)
    (hstate : f.governance.deletionState = .active) (hsource : f.sourceId = s.sourceId)
    (hns : f.namespaceId = s.namespaceId) (hsame : c.onFragment f = f) : s ∈ db'.sources := by
  have hmem : sourceTable.on db c s ∈ db'.sources :=
    (sourceTable_sound.mem_rows h.constraints happlies).2 (.inl ⟨s, hs, rfl⟩)
  obtain heq | ⟨request, closure, rfl, hcloses⟩ :=
    sourceTable.on_eq_or_closed (c := c) fun D => h.source_not_frozen hs hactive D
  · rwa [heq] at hmem
  · have hbuilt := buildExecutionClosure_eq_ok (StoredRequest.built happlies)
    have htarget : sourceIsClosed request.params.namespaceId request.params.sourceTargets s =
        true := hcloses
    simp only [sourceIsClosed, Bool.and_eq_true, beq_iff_eq, List.contains_iff_mem] at htarget
    have hmember : f.fragmentId ∈ closure.fragmentIds :=
      (hbuilt.fragmentIds _).2 ⟨f, hf, rfl, hsource ▸ htarget.1.1, hns.trans htarget.1.2, hstate⟩
    have hclosed : fragmentIsClosed request.params.namespaceId closure f = true := by
      simp only [fragmentIsClosed, Bool.and_eq_true, beq_iff_eq, List.contains_iff_mem]
      exact ⟨⟨hmember, hns.trans htarget.1.2⟩, hstate⟩
    simp only [Change.onFragment, hclosed, if_true] at hsame
    rw [← hsame] at hstate
    cases hstate

/-- A fragment that loads keeps loading, and as the same object, while it is active. -/
theorem loadResolvedSourceFragment_stays (h : PlannedLibrary db) {c : Change}
    (happlies : c.Applies db db') {namespaceId fragmentId : Identifier} {resolved : ResolvedSource}
    (hload : loadResolvedSourceFragment db namespaceId fragmentId = .ok (some resolved))
    (hactive : ∃ r ∈ db'.fragments, r.fragmentId = fragmentId ∧
      r.governance.deletionState = .active) :
    loadResolvedSourceFragment db' namespaceId fragmentId = .ok (some resolved) := by
  have hc := h.library.constraints
  have hc' := hc.step happlies
  have hread := loadResolvedSourceFragment_eq_ok_iff.1 hload
  obtain ⟨hlookup, hns, hstate⟩ := activeFragmentRow_eq_some_iff.1 hread.row
  have hid := lookup_key hlookup
  obtain ⟨hrow', hkeeps, hsame⟩ := happlies.fragment_row_stays hc (lookup_mem hlookup)
    (hid ▸ hactive)
  refine loadResolvedSourceFragment_eq_ok_iff.2 ⟨?_, ?_, ?_, hread.resolution⟩
  · refine activeFragmentRow_eq_some_iff.2 ⟨?_, hns, hstate⟩
    exact (lookup_eq_some_iff hc'.fragmentIds).2 ⟨hrow', hid⟩
  · rw [← hread.headings, ← hid, loadHeadingPath, loadHeadingPath,
      happlies.fragment_headings_stay hc (lookup_mem hlookup) hkeeps]
  · obtain ⟨hsource, hsourceNs, hsourceId, hsourceState⟩ :=
      loadSourceArtifact_eq_ok_iff.1 hread.source
    have hkept := happlies.source_of_fragment_stays h.library (lookup_mem hsource.row)
      hsourceState (lookup_mem hlookup) hstate hsourceId.symm (hns.trans hsourceNs.symm) hsame
    exact loadSourceArtifact_stays h happlies hread.source ⟨_, hkept, hsourceId, hsourceState⟩

/-! ## Proposals -/

theorem validateProposalSources_eq_ok_iff {proposal : MemoryProposal} {stored : Bool} :
    validateProposalSources loadSourceArtifact db proposal stored = .ok () ↔
      ∃ resolved, List.Forall₂ (fun fragmentId source =>
          loadResolvedSourceFragment db proposal.params.namespaceId fragmentId =
            .ok (some source)) proposal.params.sourceFragmentRefs resolved ∧
        validateMemoryProposalSources proposal resolved = .ok () := by
  simp only [validateProposalSources, resolveFragments, Except.bind_eq_ok_iff,
    List.mapM_eq_ok_iff, Except.mapError_eq_ok_iff, Option.orError_eq_ok_iff,
    loadResolvedSourceFragment, exists_eq_right]

/-- What a change adds to the targets of proposals; nothing is ever removed from them. -/
def Change.newProposalTargets : Change → List (Child Identifier Identifier)
  | .proposal new => enumerate new.params.proposalId 0 new.params.targetMemoryIds
  | _ => []

theorem Change.Applies.proposalTargets (hc : Constraints db) {c : Change}
    (h : c.Applies db db') :
    db'.proposalTargets = db.proposalTargets ++ c.newProposalTargets := by
  have htables : (c.tables db).proposalTargets = db.proposalTargets ++ c.newProposalTargets := by
    cases c with
    | proposal new => rfl
    | component executed n componentType =>
      cases componentType with
      | _ => exact (List.append_nil _).symm
    | _ => exact (List.append_nil _).symm
  rw [← htables, h.tables hc]
  rfl

/-- The id of a stored proposal is not given to a new one. -/
theorem Change.Applies.newProposal_ne {c : Change} (h : c.Applies db db') {p : ProposalRow}
    (hp : p ∈ db.proposals) :
    (∀ link ∈ c.newProposalFragments, link.owner ≠ p.proposalId) ∧
      ∀ link ∈ c.newProposalTargets, link.owner ≠ p.proposalId := by
  cases c with
  | proposal new =>
    have hfresh : ∀ old ∈ db.proposals, old.proposalId ≠ new.params.proposalId :=
      fun old hold => proposalTable_sound.fresh db db' (.proposal new) h
        (ProposalRow.ofProposal new.params) (List.mem_singleton.2 rfl) old hold
    constructor
    · intro link hlink
      rw [(mem_enumerate hlink).1]
      exact (hfresh p hp).symm
    · intro link hlink
      rw [(mem_enumerate hlink).1]
      exact (hfresh p hp).symm
  | _ => exact ⟨fun _ h => (List.not_mem_nil h).elim, fun _ h => (List.not_mem_nil h).elim⟩

/-- A record keeps its row in its namespace for ever. -/
theorem Change.Applies.memoryExists_stays (hc : Constraints db) {c : Change}
    (h : c.Applies db db') {namespaceId memoryId : Identifier}
    (hexists : memoryExistsInNamespace db namespaceId memoryId = true) :
    memoryExistsInNamespace db' namespaceId memoryId = true := by
  simp only [memoryExistsInNamespace, List.any_eq_true, Bool.and_eq_true, beq_iff_eq]
    at hexists ⊢
  obtain ⟨row, hrow, hns, hid⟩ := hexists
  refine ⟨recordTable.on db c row, ?_, ?_, ?_⟩
  · exact (recordTable_sound.mem_rows hc h).2 (.inl ⟨row, hrow, rfl⟩)
  · rw [← hns]
    exact recordTable.on_column (fun _ _ => rfl) (fun _ => rfl) c row
  · rw [← hid]
    exact recordTable.on_id c row

/-- A fragment that an active proposal cites is not removed, and closing it closes the
proposal. -/
theorem Change.Applies.fragment_of_proposal_stays (h : LibraryInvariant db) {c : Change}
    (happlies : c.Applies db db') {p : ProposalRow} (hp : p ∈ db.proposals)
    (hactive : p.governance.deletionState = .active) (hsame : proposalTable.on db c p = p)
    {f : FragmentRow} (hf : f ∈ db.fragments) (hns : f.namespaceId = p.namespaceId)
    (hlink : ∃ link ∈ db.proposalFragments, link.owner = p.proposalId ∧
      link.value = f.fragmentId) : f ∈ db'.fragments := by
  obtain ⟨link, hlink, howner, hvalue⟩ := hlink
  have hkeeps : c.keepsFragment db f = true := by
    cases c with
    | component executed n componentType =>
      cases componentType with
      | sourceFragment =>
        obtain ⟨planned, result, acted, hdone⟩ := happlies
        obtain ⟨ids, hids, hunlinked, -⟩ := hdone.effect
        refine notFrozen_iff.2 fun hfrozen => ?_
        have hnot := hunlinked f hf ((hids _).2 hfrozen)
        simp only [fragmentIsLinked, Bool.or_eq_false_iff, List.any_eq_false, beq_iff_eq] at hnot
        exact hnot.1 link hlink hvalue
      | _ => rfl
    | _ => rfl
  have honFragment : c.onFragment f = f := by
    cases c with
    | request request closure =>
      by_contra hne
      have hclosed : fragmentIsClosed request.params.namespaceId closure f = true := by
        by_contra hopen
        exact hne (if_neg hopen)
      simp only [fragmentIsClosed, Bool.and_eq_true, beq_iff_eq, List.contains_iff_mem] at hclosed
      have hbuilt := buildExecutionClosure_eq_ok (StoredRequest.built happlies)
      have hpns : p.namespaceId = request.params.namespaceId := hns.symm.trans hclosed.1.2
      have hmember : p.proposalId ∈ closure.proposalIds :=
        (hbuilt.proposalIds _).2 (.inr ⟨p, hp, rfl, hpns, hactive, link, hlink, howner,
          hvalue ▸ hclosed.1.1⟩)
      have hcloses : proposalTable.closes request closure p = true := by
        simp only [proposalTable, proposalIsClosed, Bool.and_eq_true, beq_iff_eq,
          List.contains_iff_mem]
        exact ⟨⟨hmember, hpns⟩, hactive⟩
      rw [ClosedTable.on, if_pos hcloses] at hsame
      rw [← hsame] at hactive
      cases hactive
    | _ => rfl
  have hmem : c.onFragment f ∈ db'.fragments :=
    (happlies.mem_fragments h.constraints).2 (.inl ⟨f, hf, hkeeps, rfl⟩)
  rwa [honFragment] at hmem

/-- A proposal that loads keeps loading, and as the same object, while it is active. -/
theorem loadMemoryProposal_stays (h : PlannedLibrary db) {c : Change}
    (happlies : c.Applies db db') {namespaceId proposalId : Identifier} {proposal : MemoryProposal}
    (hload : loadMemoryProposal db namespaceId proposalId = .ok (some proposal))
    (hactive : ∃ r ∈ db'.proposals, r.proposalId = proposalId ∧
      r.governance.deletionState = .active) :
    loadMemoryProposal db' namespaceId proposalId = .ok (some proposal) := by
  have hc := h.library.constraints
  have hc' := hc.step happlies
  have hread := loadMemoryProposalWith_eq_ok_iff.1 hload
  obtain ⟨hlookup, hns, hstate⟩ := activeProposalRow_eq_some_iff.1 hread.row
  have hid := lookup_key hlookup
  have hrow := lookup_mem hlookup
  have hopen := fun D => h.library.proposal_not_frozen hrow hstate D
  have hstays : ∃ r ∈ db'.proposals,
      r.proposalId = (ProposalRow.ofProposal proposal.params).proposalId ∧
        r.governance.deletionState = .active := by
    rwa [hid]
  have hrow' : ProposalRow.ofProposal proposal.params ∈ db'.proposals := by
    refine (proposalTable_sound.row_stays hc happlies hc'.proposalIds ?_ hrow hstays).1
    exact fun _ => hopen
  have hon : proposalTable.on db c (ProposalRow.ofProposal proposal.params) =
      ProposalRow.ofProposal proposal.params := by
    refine hc'.proposalIds.eq_of_mem ?_ hrow' (proposalTable.on_id c _)
    exact (proposalTable_sound.mem_rows hc happlies).2 (.inl ⟨_, hrow, rfl⟩)
  have hnew := happlies.newProposal_ne hrow
  rw [hid] at hnew
  refine loadMemoryProposalWith_eq_ok_iff.2 ⟨?_, ?_, ?_, ?_, ?_⟩
  · refine activeProposalRow_eq_some_iff.2 ⟨?_, hns, hstate⟩
    exact (lookup_eq_some_iff hc'.proposalIds).2 ⟨hrow', hid⟩
  · rw [← hread.fragments, loadIdentifierList, loadIdentifierList, happlies.proposalFragments hc,
      loadChildren_append_of_ne hnew.1, loadChildren_filter]
    intro link hlink howner
    cases c with
    | component executed n componentType =>
      cases componentType with
      | memoryProposal =>
        refine notFrozen_iff.2 ?_
        rw [howner, ← hid]
        exact hopen _
      | _ => rfl
    | _ => rfl
  · rw [← hread.targets, loadIdentifierList, loadIdentifierList, happlies.proposalTargets hc,
      loadChildren_append_of_ne hnew.2]
  · obtain ⟨resolved, hresolved, hvalid⟩ := validateProposalSources_eq_ok_iff.1 hread.sources
    refine validateProposalSources_eq_ok_iff.2 ⟨resolved, ?_, hvalid⟩
    have hcited := (List.forall₂_and_left _ _).2 ⟨fun fragmentId hmem => hmem, hresolved⟩
    refine hcited.imp fun fragmentId source hsource => ?_
    obtain ⟨hmem, hsource⟩ := hsource
    have hfragment := (loadResolvedSourceFragment_eq_ok_iff.1 hsource).row
    obtain ⟨hflookup, hfns, hfstate⟩ := activeFragmentRow_eq_some_iff.1 hfragment
    have hlinked := (mem_of_loadChildren hread.fragments).1 hmem
    rw [← hid, ← lookup_key hflookup] at hlinked
    have hkept := happlies.fragment_of_proposal_stays h.library hrow hstate hon
      (lookup_mem hflookup) hfns hlinked
    exact loadResolvedSourceFragment_stays h happlies hsource
      ⟨_, hkept, lookup_key hflookup, hfstate⟩
  · exact fun id hid => happlies.memoryExists_stays hc (hread.exist id hid)

end RadishMemory
