import RadishMemory.Properties.Lineages

/-!
# Lineages of captured files

In a library that also holds other sources, a lineage whose newest version was captured holds
captured files only, and a captured file is closed by a stored delete request or not at all.
`FileLineages` says so and is kept by every operation.
-/

namespace RadishMemory

variable [Platform] {db db' : Database}

omit [Platform] in
structure FileLineages (db : Database) : Prop where
  library : LibraryInvariant db
  numbered : Numbered db
  captured : ∀ s ∈ db.sources, s.originKind = .explicitUserInput →
    isNewestVersion db s = true → ∀ t ∈ db.sources, SameLineage s t →
      t.originKind = .explicitUserInput
  closed : ∀ s ∈ db.sources, s.originKind = .explicitUserInput →
    s.governance.deletionState ≠ .active → ∃ D, Frozen db D .sourceMetadata s.sourceId

namespace FileLineages

omit [Platform] in
theorem empty : FileLineages Database.empty where
  library := LibraryInvariant.empty
  numbered := Numbered.empty
  captured _ h := absurd h List.not_mem_nil
  closed _ h := absurd h List.not_mem_nil

/-! ## Changes of stored sources -/

theorem on_originKind (c : Change) (row : SourceRow) :
    (sourceTable.on db c row).originKind = row.originKind :=
  sourceTable.on_column (fun _ _ => rfl) (fun _ => rfl) c row

/-- A change that closes a source freezes it. -/
theorem frozen_of_closed {c : Change} (happlies : c.Applies db db') {row : SourceRow}
    (hactive : row.governance.deletionState = .active)
    (hclosed : (sourceTable.on db c row).governance.deletionState ≠ .active) :
    ∃ D, Frozen db' D .sourceMetadata row.sourceId := by
  unfold ClosedTable.on at hclosed
  split at hclosed
  · rename_i new closure
    by_cases hcloses : sourceTable.closes new closure row = true
    · have hstored : StoredRequest db db' new closure := happlies
      change sourceIsClosed _ _ row = true at hcloses
      unfold sourceIsClosed at hcloses
      simp only [Bool.and_eq_true, List.contains_iff_mem] at hcloses
      exact ⟨_, hstored.frozen_source_iff.2 (.inr ⟨rfl, hcloses.1.1⟩)⟩
    · rw [if_neg hcloses] at hclosed
      exact absurd hactive hclosed
  · rename_i executed n componentType
    by_cases hfrozen : Frozen db executed.params.deleteRequestId sourceTable.component
        (sourceTable.id row)
    · exact ⟨_, happlies.frozen hfrozen⟩
    · rw [if_neg hfrozen] at hclosed
      exact absurd hactive hclosed
  · exact absurd hactive hclosed

theorem tables_supersedes {c : Change} (hadded : sourceTable.added c = []) :
    (c.tables db).sourceSupersedes = db.sourceSupersedes := by
  cases c with
  | source new => cases hadded
  | component executed n componentType => cases componentType with | _ => rfl
  | _ => rfl

/-- A change that adds no source keeps the lineages. -/
theorem step (h : FileLineages db) {c : Change} (hadded : sourceTable.added c = [])
    (happlies : c.Applies db db') : FileLineages db' := by
  have htables := happlies.tables h.library.constraints
  have hsources : db'.sources = db.sources.map (sourceTable.on db c) := by
    have heffect := sourceTable_effect db c
    unfold ClosedTable.Effect at heffect
    rw [hadded, List.append_nil] at heffect
    rw [show db'.sources = (c.tables db).sources by rw [htables]; rfl]
    exact heffect
  have hsupersedes : db'.sourceSupersedes = db.sourceSupersedes := by
    rw [htables]
    exact tables_supersedes hadded
  have hposition : ∀ s, (sourceTable.on db c s).position = s.position :=
    CapturedLibrary.on_position c
  have hmem : ∀ s, s ∈ db'.sources ↔ ∃ old ∈ db.sources, sourceTable.on db c old = s := by
    intro s
    rw [hsources, List.mem_map]
  refine ⟨h.library.step happlies, h.numbered.relabel hsources hposition hsupersedes, ?_, ?_⟩
  · intro s hs hexplicit hnewest t ht hsame
    obtain ⟨s, hold, rfl⟩ := (hmem s).1 hs
    obtain ⟨t, hold', rfl⟩ := (hmem t).1 ht
    rw [on_originKind] at hexplicit ⊢
    obtain ⟨-, ⟨hns, hlineage⟩, -⟩ := position_eq_iff.1 (hposition s)
    obtain ⟨-, ⟨hns', hlineage'⟩, -⟩ := position_eq_iff.1 (hposition t)
    refine h.captured s hold hexplicit
      ((isNewestVersion_relabel hsources hposition s).1 hnewest) t hold' ⟨?_, ?_⟩
    · rw [← hns', hsame.1, hns]
    · rw [← hlineage', hsame.2, hlineage]
  · intro s hs hexplicit hclosed
    obtain ⟨s, hold, rfl⟩ := (hmem s).1 hs
    rw [on_originKind] at hexplicit
    rw [(position_eq_iff.1 (hposition s)).1]
    by_cases hactive : s.governance.deletionState = .active
    · exact frozen_of_closed happlies hactive hclosed
    · obtain ⟨D, hfrozen⟩ := h.closed s hold hexplicit hactive
      exact ⟨D, happlies.frozen hfrozen⟩

/-! ## New sources -/

/-- A new version comes after every version of its lineage. -/
theorem newest_of_added (h : FileLineages db) {source : SourceArtifact} {added : Database}
    (hadded : SourceAdded db added source) {s : SourceRow} (hs : s ∈ db.sources)
    (hsame : SameLineage (SourceRow.ofArtifact source.params) s) :
    s.version.get < source.params.version.get := by
  by_contra hlater
  obtain ⟨p, hp, hpsame, hversion⟩ := h.numbered.below s hs source.params.version.get
    source.params.version.positive (not_lt.1 hlater)
  refine hadded.freshVersion p hp ?_
  refine Prod.ext (hpsame.1.trans hsame.1) (Prod.ext (hpsame.2.trans hsame.2) ?_)
  exact hversion

/-- A captured file may only extend a lineage whose tip was captured. -/
theorem addSource (h : FileLineages db) (hlib : LibraryInvariant db') {source : SourceArtifact}
    {added : Database} (hadded : SourceAdded db added source)
    (hsupersedes : source.params.supersedesSourceIds = (lineageTip db source.params.namespaceId
      source.params.lineageId).toList.map TipRow.sourceId)
    (hsources : db'.sources = db.sources ++ [SourceRow.ofArtifact source.params])
    (hrelations : db'.sourceSupersedes = db.sourceSupersedes ++
      enumerate source.params.sourceId 0 source.params.supersedesSourceIds)
    (hclosure : db'.executionClosure = db.executionClosure)
    (hfile : source.params.originKind = .explicitUserInput →
      source.params.governance.deletionState = .active ∧
        ∀ tip, lineageTip db source.params.namespaceId source.params.lineageId = some tip →
          ∀ s ∈ db.sources, TipRow.ofSource s = tip → s.originKind = .explicitUserInput) :
    FileLineages db' := by
  have hmem : ∀ s, s ∈ db'.sources ↔ s ∈ db.sources ∨ s = SourceRow.ofArtifact source.params := by
    intro s
    rw [hsources, List.mem_append, List.mem_singleton]
  refine ⟨hlib, h.numbered.sourceAdded h.library hadded hsupersedes hsources hrelations, ?_, ?_⟩
  · intro s hs hexplicit hnewest t ht hsame
    rw [isNewestVersion_iff] at hnewest
    rcases (hmem s).1 hs with hs | rfl
    · rcases (hmem t).1 ht with ht' | rfl
      · refine h.captured s hs hexplicit ?_ t ht' hsame
        exact isNewestVersion_iff.2 fun u hu => hnewest u ((hmem u).2 (.inl hu))
      · -- The new version would be newer.
        have hlt := h.newest_of_added hadded hs ⟨hsame.1.symm, hsame.2.symm⟩
        have hle : source.params.version.get ≤ s.version.get := hnewest _ ht hsame
        omega
    · rcases (hmem t).1 ht with ht | rfl
      · obtain ⟨-, htip⟩ := hfile hexplicit
        rcases hadded.predecessor h.library with ⟨hone, -⟩ | ⟨p, hp, hpsame, hversion, hsome⟩
        · have hlt := h.newest_of_added hadded ht hsame
          have hpos := t.version.positive
          omega
        · refine h.captured p hp (htip _ hsome p hp rfl) ?_ t ht
            ⟨hsame.1.trans hpsame.1.symm, hsame.2.trans hpsame.2.symm⟩
          rw [isNewestVersion_iff]
          intro u hu husame
          have hlt := h.newest_of_added hadded hu
            ⟨husame.1.trans hpsame.1, husame.2.trans hpsame.2⟩
          omega
      · exact hexplicit
  · intro s hs hexplicit hclosed
    rcases (hmem s).1 hs with hs | rfl
    · obtain ⟨D, hfrozen⟩ := h.closed s hs hexplicit hclosed
      refine ⟨D, ?_⟩
      unfold Frozen
      rw [hclosure]
      exact hfrozen
    · exact absurd (hfile hexplicit).1 hclosed

end FileLineages

/-! ## Operations -/

/-- A capture that writes found the tip it extends to be a captured file. -/
theorem decideCapture_tip {capture : SourceCapture} {source : SourceArtifact}
    {outcome : SourceCaptureOutcome} (hc : UniqueBy SourceRow.sourceId db.sources)
    (h : decideCapture loadSourceArtifact db capture = .ok (source, outcome)) {tip : TipRow}
    (htip : lineageTip db capture.params.source.params.namespaceId
      capture.params.source.params.lineageId = some tip) {s : SourceRow} (hs : s ∈ db.sources)
    (heq : TipRow.ofSource s = tip) : s.originKind = .explicitUserInput := by
  unfold decideCapture at h
  dsimp only at h
  split at h
  · simp only [Except.bind_eq_ok_iff, Except.exists_unit_iff, require_eq_ok_iff,
      loadCurrentSourceWith, Option.orError_eq_ok_iff] at h
    obtain ⟨rfl, current, ⟨tip', htip', loaded, hload, hsome⟩, hexisting, -⟩ := h
    obtain rfl := Option.some.inj (htip.symm.trans htip')
    obtain rfl := hsome
    simp only [validateExistingCapture, Except.bind_eq_ok_iff, Except.exists_unit_iff,
      require_eq_ok_iff] at hexisting
    obtain ⟨row, hlookup, -, -, rfl⟩ := loadSourceArtifact_eq_ok hload
    have hrow : s = SourceRow.ofArtifact current.params := by
      refine UniqueBy.eq_of_mem hc hs (lookup_mem hlookup) ?_
      rw [show SourceRow.sourceId _ = _ from lookup_key hlookup, ← heq]
      rfl
    rw [hrow]
    exact hexisting.1.1
  · simp only [Except.bind_eq_ok_iff, Except.exists_unit_iff, requireUnusedLineage,
      require_eq_ok_iff] at h
    exact absurd (lookup_key htip) (h.1 tip (lookup_mem htip))

namespace FileLineages

theorem op (h : FileLineages db) (op : Op) : FileLineages (op.apply db) := by
  have hlib : LibraryInvariant (op.apply db) := h.library.op
  cases op with
  | captureSource capture =>
    change FileLineages (committed db _)
    change LibraryInvariant (committed db _) at hlib
    cases hcapture : RadishMemory.captureSource db capture with
    | error e => exact h
    | ok captured =>
      obtain ⟨db', result⟩ := captured
      rw [hcapture] at hlib
      change FileLineages db'
      obtain ⟨-, heq | hw⟩ := captureSource_written hcapture
      · rw [heq]
        exact h
      · obtain ⟨-, -, heq | ⟨current, outcome, hdecide, -⟩⟩ := captureSource_eq_ok hcapture
        · rw [heq]
          exact h
        obtain ⟨added, hadded⟩ := hw.added
        exact h.addSource hlib hadded hw.supersedes hw.sources hw.sourceSupersedes hw.closure
          fun _ => ⟨hw.active, fun tip htip s hs heq =>
            decideCapture_tip h.library.constraints.sourceIds hdecide htip hs heq⟩
  | storeSourceArtifact source =>
    change LibraryInvariant (committed db _) at hlib
    change FileLineages (committed db _)
    cases hstore : RadishMemory.storeSourceArtifact db source with
    | error e => exact h
    | ok db' =>
      rw [hstore] at hlib
      change FileLineages db'
      obtain ⟨hsynthetic, hinsert, htip⟩ := storeSourceArtifact_eq_ok hstore
      have hadded := sourceAdded_of_insert hinsert htip
      have hrelations : db'.sourceSupersedes = db.sourceSupersedes ++
          enumerate source.params.sourceId 0 source.params.supersedesSourceIds := by
        rcases hadded.tip with ⟨-, -, rfl⟩ | ⟨current, -, -, -, -, rfl⟩
        · rfl
        · rfl
      refine h.addSource hlib hadded (insertedSource_supersedes hinsert htip) hadded.sources
        hrelations ?_ fun hfile => absurd hfile hsynthetic
      rw [hadded.frame.1]
  | storeSourceFragments fragments =>
    refine committed_cases h fun db' hstore => ?_
    obtain ⟨owner, hadded⟩ := fragmentsAdded_of_insert hstore
    exact h.step (c := .fragments owner fragments) rfl hadded
  | storeMemoryProposal proposal =>
    exact committed_cases h fun db' hstore => h.step (c := .proposal proposal) rfl hstore
  | storeMemoryDecision decision =>
    exact committed_cases h fun db' hstore => h.step (c := .decision decision) rfl hstore
  | materializeAcceptedMemory record initialEvent supersededEvents =>
    exact committed_cases h fun db' hstore =>
      h.step (c := .memory record initialEvent supersededEvents) rfl hstore
  | appendMemoryStateEvent event =>
    exact committed_cases h fun db' hstore => h.step (c := .event event) rfl hstore
  | rebuildRecallDerivations =>
    exact committed_cases h fun db' hstore =>
      h.step (c := .derived) rfl (rebuildRecallDerivations_eq_ok hstore)
  | storeDeleteRequest request =>
    refine committed_cases h fun db' hstore => ?_
    obtain ⟨closure, hstored⟩ := storeDeleteRequest_eq_ok hstore
    exact h.step (c := .request request closure) rfl hstored
  | executeDeletion namespaceId deleteRequestId execution faulty breaksAfter =>
    refine Op.preserves (fun a b c ha hw happlies => ha.step ?_ happlies)
      h.library.constraints.resultAttempts h
    cases c with
    | source new => cases hw
    | _ => rfl
  | storeDeletionEvidence evidence breaksAfter =>
    refine (storeDeletionEvidence_safe (I := FileLineages) (Q := fun _ => FileLineages) h
      (fun _ => h) fun latest db' hchecked hrow => ?_).runWith h
    have hstep : FileLineages db' := h.step (c := .evidence evidence latest) rfl ⟨hchecked, hrow⟩
    exact ⟨hstep, hstep⟩

end FileLineages

theorem fileLineages_of_run (ops : List Op) : FileLineages (runOps .empty ops) :=
  runOps_invariant (fun _ op h => h.op op) FileLineages.empty ops

end RadishMemory
