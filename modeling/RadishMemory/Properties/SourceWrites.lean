import RadishMemory.Properties.Statements
import RadishMemory.Construction.Sqlite.DerivedIndex

/-!
# What a source write does

For each part of a source write: the database it leaves, as an explicit update of the database
it was given, and the facts its checks established.
-/

namespace RadishMemory

variable [Platform] {db db' : Database}

/-! ## Sources -/

/-- The tables after a source has been inserted. -/
def Database.addSource (db : Database) (source : SourceArtifact) : Database :=
  { db with
    sources := db.sources ++ [SourceRow.ofArtifact source.params]
    bodies := db.bodies ++ [BodyRow.ofArtifact source.params]
    sourceSupersedes := db.sourceSupersedes ++
      enumerate source.params.sourceId 0 source.params.supersedesSourceIds }

theorem validateSupersededSources_eq_ok {source : SourceArtifact} {u : Unit}
    (h : validateSupersededSources db source = .ok u) :
    ∀ targetId ∈ source.params.supersedesSourceIds,
      ∃ target, lookup SourceRow.sourceId db.sources targetId = some target ∧
        target.namespaceId = source.params.namespaceId ∧
        target.lineageId = source.params.lineageId ∧
        target.version.get < source.params.version.get := by
  intro targetId hmem
  have hone := checkAll_eq_ok_iff.1 h targetId hmem
  simp only [Except.bind_eq_ok_iff, Option.orError_eq_ok_iff, require_eq_ok_iff,
    loadSourceRelationTarget] at hone
  obtain ⟨target, hlookup, -, hns, hlineage, hversion⟩ := hone
  exact ⟨target, hlookup, hns, hlineage, hversion⟩

theorem insertSourceArtifact_eq_ok {source : SourceArtifact}
    (h : insertSourceArtifact db source = .ok db') :
    db' = db.addSource source ∧
      (∀ r ∈ db.sources, r.sourceId ≠ source.params.sourceId ∧
        r.versionKey ≠ (SourceRow.ofArtifact source.params).versionKey) ∧
      validateSupersededSources db source = .ok () ∧
      source.params.version.get < 2 ^ 63 := by
  simp only [insertSourceArtifact, insertSourceMetadata, Except.bind_eq_ok_iff] at h
  obtain ⟨db₂, ⟨v, hv, l, hl, u, hsup, db₁, h₁, h₂⟩, h₃⟩ := h
  obtain ⟨-, hfresh, rfl⟩ := Database.insertSource_eq_ok_iff.1 h₁
  obtain ⟨rfl, -⟩ := Database.insertSourceSupersedes_eq_ok h₂
  obtain ⟨-, -, -, rfl⟩ := Database.insertBody_eq_ok_iff.1 h₃
  refine ⟨rfl, hfresh, hsup, ?_⟩
  unfold toI64 at hv
  split at hv
  · assumption
  · cases hv

/-! ## Tips -/

/-- The tips after a source started its lineage. -/
def Database.startLineage (db : Database) (source : SourceArtifact) : Database :=
  { db with tips := db.tips ++ [TipRow.ofSource (SourceRow.ofArtifact source.params)] }

/-- The tips and full-text rows after a source replaced the tip `current`. -/
def Database.replaceTip (db : Database) (current : TipRow) (source : SourceArtifact) :
    Database :=
  { db with
    tips := updateWhere (· == current) (fun tip => { tip with
      sourceId := source.params.sourceId, version := source.params.version.get }) db.tips
    recallFts := (db.removeSourceFragments current.sourceId).recallFts }

theorem advanceLineageTip_eq_ok {source : SourceArtifact}
    (h : advanceLineageTip db source = .ok db') :
    (lineageTip db source.params.namespaceId source.params.lineageId = none ∧
        source.params.version.get = 1 ∧ db' = db.startLineage source ∧
        ∀ tip ∈ db.tips, tip.sourceId ≠ source.params.sourceId) ∨
      ∃ current, lineageTip db source.params.namespaceId source.params.lineageId = some current ∧
        source.params.version.get = current.version + 1 ∧
        source.params.supersedesSourceIds = [current.sourceId] ∧
        (∀ tip ∈ db.tips, tip ≠ current → tip.sourceId ≠ source.params.sourceId) ∧
        db' = db.replaceTip current source := by
  simp only [advanceLineageTip, Except.bind_eq_ok_iff, require_eq_ok_iff] at h
  obtain ⟨-, -, h⟩ := h
  split at h
  · rename_i hnone
    simp only [Except.bind_eq_ok_iff, require_eq_ok_iff] at h
    obtain ⟨-, ⟨hversion, -⟩, h⟩ := h
    obtain ⟨-, hfresh, -, rfl⟩ := Database.insertTip_eq_ok_iff.1 h
    exact .inl ⟨hnone, hversion, rfl, fun tip htip => (hfresh tip htip).2⟩
  · rename_i current hsome
    simp only [Database.updateTip, Except.bind_eq_ok_iff, require_eq_ok_iff,
      Except.pure_eq_ok_iff] at h
    obtain ⟨-, -, -, ⟨hversion, hsupersedes⟩, -, hunique, -, -, -, -, rfl⟩ := h
    exact .inr ⟨current, hsome, hversion, hsupersedes, hunique, rfl⟩

/-! ## Fragments -/

/-- The fragment enters the full-text table: it is active and its source is the active tip. -/
def Database.recallsFragment (db : Database) (source : SourceArtifact)
    (fragment : SourceFragment) : Bool :=
  fragment.params.governance.deletionState == .active &&
    source.params.governance.deletionState == .active && db.isTip source

/-- The heading rows of a fragment. -/
def headingRows (fragment : SourceFragment) : List (Child Identifier NonEmptyText) :=
  enumerate fragment.params.fragmentId 0 (fragment.params.headingPath.getD [])

/-- The tables after fragments of a source have been inserted. -/
def Database.addFragments (db : Database) (source : SourceArtifact)
    (fragments : List SourceFragment) : Database :=
  { db with
    fragments := db.fragments ++ fragments.map fun f => FragmentRow.ofFragment f.params
    headings := db.headings ++ fragments.flatMap headingRows
    recallFts := db.recallFts ++
      (fragments.filter (db.recallsFragment source)).map RecallRow.ofFragment }

theorem insertSourceFragment_eq_ok {fragment : SourceFragment} {source : SourceArtifact}
    (h : db.insertSourceFragment fragment source = .ok db') :
    db' = { db with recallFts := db.recallFts ++
      ([fragment].filter (db.recallsFragment source)).map RecallRow.ofFragment } ∧
      (db.recallsFragment source fragment = true →
        ∀ row ∈ db.recallFts, row.key ≠ RecallKey.source fragment) := by
  simp only [Database.insertSourceFragment] at h
  split at h
  · rename_i hinactive
    have hno : db.recallsFragment source fragment = false := by
      rcases hinactive with hf | hs
      · simp [Database.recallsFragment, hf]
      · simp [Database.recallsFragment, hs]
    cases h
    simp [hno]
  · rename_i hactive
    simp only [not_or, not_not] at hactive
    simp only [Except.bind_eq_ok_iff, require_eq_ok_iff] at h
    obtain ⟨-, -, h⟩ := h
    split at h
    · rename_i htip
      have hyes : db.recallsFragment source fragment = true := by
        simp [Database.recallsFragment, hactive, htip]
      simp only [Except.bind_eq_ok_iff, Database.requireRecallRowAbsent, require_eq_ok_iff,
        Except.pure_eq_ok_iff, Database.insertRecallRow] at h
      obtain ⟨-, habsent, rfl⟩ := h
      exact ⟨by simp [hyes], fun _ => habsent⟩
    · rename_i htip
      have hno : db.recallsFragment source fragment = false := by
        simp [Database.recallsFragment, htip]
      rw [Except.pure_eq_ok_iff] at h
      subst h
      simp [hno]

theorem insertFragmentFacts_eq_ok {source : SourceArtifact} {fragment : SourceFragment}
    (h : insertFragmentFacts db source fragment = .ok db') :
    db' = db.addFragments source [fragment] ∧
      ∀ r ∈ db.fragments, r.fragmentId ≠ fragment.params.fragmentId ∧
        (r.sourceId = fragment.params.sourceId → r.ordinal ≠ fragment.params.ordinal) := by
  simp only [insertFragmentFacts, Except.bind_eq_ok_iff] at h
  obtain ⟨db₁, h₁, db₂, h₂, h₃⟩ := h
  obtain ⟨-, hfresh, -, rfl⟩ := Database.insertFragment_eq_ok_iff.1 h₁
  obtain ⟨rfl, -⟩ := Database.insertHeadings_eq_ok h₂
  obtain ⟨rfl, -⟩ := insertSourceFragment_eq_ok h₃
  refine ⟨?_, hfresh⟩
  simp only [Database.addFragments, List.map_cons, List.map_nil, List.flatMap_cons,
    List.flatMap_nil, List.append_nil, headingRows]
  rfl

theorem Database.addFragments_cons (source : SourceArtifact) (fragment : SourceFragment)
    (rest : List SourceFragment) :
    (db.addFragments source [fragment]).addFragments source rest =
      db.addFragments source (fragment :: rest) := by
  have hsame : (db.addFragments source [fragment]).recallsFragment source =
      db.recallsFragment source := rfl
  have hfts : [fragment].filter (db.recallsFragment source) ++
      rest.filter ((db.addFragments source [fragment]).recallsFragment source) =
      (fragment :: rest).filter (db.recallsFragment source) := by
    rw [hsame, ← List.filter_append, List.singleton_append]
  conv_rhs => rw [Database.addFragments, ← hfts, List.map_append]
  simp [Database.addFragments]

/-- The ids of the new fragments are new and distinct, and so are their positions. -/
structure FreshFragments (db : Database) (fragments : List SourceFragment) : Prop where
  ids : ∀ f ∈ fragments, ∀ r ∈ db.fragments, r.fragmentId ≠ f.params.fragmentId
  positions : ∀ f ∈ fragments, ∀ r ∈ db.fragments, r.sourceId = f.params.sourceId →
    r.ordinal ≠ f.params.ordinal
  distinct : (fragments.map fun f => f.params.fragmentId).Nodup

theorem foldlM_insertFragmentFacts_eq_ok {source : SourceArtifact}
    {fragments : List SourceFragment}
    (h : fragments.foldlM (fun db fragment => insertFragmentFacts db source fragment) db =
      .ok db') :
    db' = db.addFragments source fragments ∧ FreshFragments db fragments := by
  induction fragments generalizing db with
  | nil =>
    rw [List.foldlM_nil, Except.pure_eq_ok_iff] at h
    subst h
    exact ⟨by simp [Database.addFragments], by simp, by simp, by simp⟩
  | cons fragment rest ih =>
    rw [List.foldlM_cons, Except.bind_eq_ok_iff] at h
    obtain ⟨db₁, h₁, h₂⟩ := h
    obtain ⟨rfl, hfresh⟩ := insertFragmentFacts_eq_ok h₁
    obtain ⟨rfl, hrest⟩ := ih h₂
    have hold : ∀ r ∈ db.fragments, r ∈ (db.addFragments source [fragment]).fragments :=
      fun r hr => List.mem_append_left _ hr
    refine ⟨Database.addFragments_cons source fragment rest, ?_, ?_, ?_⟩
    · rintro f hf r hr
      rcases List.mem_cons.1 hf with rfl | hf
      · exact (hfresh r hr).1
      · exact hrest.ids f hf r (hold r hr)
    · rintro f hf r hr
      rcases List.mem_cons.1 hf with rfl | hf
      · exact (hfresh r hr).2
      · exact hrest.positions f hf r (hold r hr)
    · rw [List.map_cons, List.nodup_cons]
      refine ⟨fun hmem => ?_, hrest.distinct⟩
      obtain ⟨f, hf, heq⟩ := List.mem_map.1 hmem
      exact hrest.ids f hf (FragmentRow.ofFragment fragment.params)
        (by simp [Database.addFragments]) heq.symm

theorem insertFragmentsForSource_eq_ok {source : SourceArtifact}
    {fragments : List SourceFragment}
    (h : insertFragmentsForSource db fragments source = .ok db') :
    db' = db.addFragments source fragments ∧ FreshFragments db fragments ∧
      ∀ f ∈ fragments, validateSourceFragmentResolution f source = .ok () := by
  simp only [insertFragmentsForSource, Except.bind_eq_ok_iff, Except.exists_unit_iff] at h
  obtain ⟨-, -, -, -, hresolve, h⟩ := h
  obtain ⟨rfl, hfresh⟩ := foldlM_insertFragmentFacts_eq_ok h
  refine ⟨rfl, hfresh, fun f hf => ?_⟩
  have := checkAll_eq_ok_iff.1 hresolve f hf
  exact Except.mapError_eq_ok_iff.1 this

/-- A fragment write loads its source, which is active, and adds fragments of it. -/
theorem insertSourceFragments_eq_ok {fragments : List SourceFragment}
    (h : insertSourceFragments db fragments = .ok db') :
    ∃ namespaceId sourceId source,
      loadSourceArtifact db namespaceId sourceId = .ok (some source) ∧
      db' = db.addFragments source fragments ∧ FreshFragments db fragments ∧
      ∀ f ∈ fragments, validateSourceFragmentResolution f source = .ok () := by
  simp only [insertSourceFragments, Except.bind_eq_ok_iff, Option.orError_eq_ok_iff] at h
  obtain ⟨⟨namespaceId, sourceId⟩, -, _, hload, source, rfl, h⟩ := h
  exact ⟨namespaceId, sourceId, source, hload, insertFragmentsForSource_eq_ok h⟩

theorem validateSourceFragmentResolution_eq_ok_iff {fragment : SourceFragment}
    {source : SourceArtifact} {u : Unit} :
    validateSourceFragmentResolution fragment source = .ok u ↔
      fragment.params.sourceId = source.params.sourceId ∧
      fragment.params.namespaceId = source.params.namespaceId ∧
      source.params.governance.deletionState = .active ∧
      validateGovernanceDerivation fragment.params.governance [source.params.governance] =
        .ok () ∧
      sliceBytes source.params.content.asStr fragment.params.byteStart
        fragment.params.byteEnd = some fragment.params.content.asStr := by
  simp only [validateSourceFragmentResolution, Except.bind_eq_ok_iff, Except.exists_unit_iff,
    requireNamespace, requireRecallable, require_eq_ok_iff]

/-! ## Loading a source -/

/-- The row a loaded source was read from. -/
theorem loadSourceArtifact_eq_ok {namespaceId sourceId : Identifier} {source : SourceArtifact}
    (h : loadSourceArtifact db namespaceId sourceId = .ok (some source)) :
    ∃ row, lookup SourceRow.sourceId db.sources sourceId = some row ∧
      row.namespaceId = namespaceId ∧ row.governance.deletionState = .active ∧
      row = SourceRow.ofArtifact source.params := by
  simp only [loadSourceArtifact, loadSourceWithBody] at h
  split at h
  · cases h
  · rename_i row hrow
    simp only [activeSourceRow, Option.filter_eq_some_iff, Bool.and_eq_true, beq_iff_eq] at hrow
    simp only [Except.bind_eq_ok_iff, Except.pure_eq_ok_iff, Option.some.injEq,
      SourceRow.intoDomain, Except.mapError_eq_ok_iff, SourceArtifact.new,
      Checked.new_eq_ok_iff] at h
    obtain ⟨ids, -, src, ⟨c, -, c', -, hparams⟩, -, -, rfl⟩ := h
    refine ⟨row, hrow.1, hrow.2.1, hrow.2.2, ?_⟩
    rw [hparams]
    rfl

/-! ## Captures -/

/-- The audit row of a capture. -/
def captureAuditRow (capture : SourceCapture) (outcome : AuditOutcome) : AuditRow :=
  { sourceId := capture.params.source.params.sourceId
    namespaceId := capture.params.source.params.namespaceId
    originBindingId := capture.params.originBindingId
    outcome
    recordedAt := capture.params.source.params.capturedAt }

/-- The chain of statements behind a capture. -/
theorem insertCaptureFacts_steps {capture : SourceCapture} {outcome : SourceCaptureOutcome}
    (h : insertCaptureFacts db capture outcome = .ok db') :
    ∃ audit db₁ db₂ db₃ db₄,
      insertSourceArtifact db capture.params.source = .ok db₁ ∧
      advanceLineageTip db₁ capture.params.source = .ok db₂ ∧
      (if outcome = .created then
          insertOriginBinding db₂ capture.params.originBindingId capture.params.source
        else .ok db₂) = .ok db₃ ∧
      insertSourceFragments db₃ capture.params.fragments = .ok db₄ ∧
      insertCaptureAudit db₄ capture.params.originBindingId capture.params.source audit =
        .ok db' := by
  cases outcome with
  | idempotent => cases h
  | created =>
    simp only [insertCaptureFacts, Except.bind_eq_ok_iff, Except.ok_bind, ↓reduceIte] at h
    obtain ⟨db₁, h₁, db₂, h₂, db₃, h₃, db₄, h₄, h₅⟩ := h
    exact ⟨_, db₁, db₂, db₃, db₄, h₁, h₂, h₃, h₄, h₅⟩
  | versioned =>
    simp only [insertCaptureFacts, Except.bind_eq_ok_iff, Except.ok_bind, reduceCtorEq,
      ↓reduceIte] at h
    obtain ⟨db₁, h₁, db₂, h₂, db₄, h₄, h₅⟩ := h
    exact ⟨_, db₁, db₂, db₂, db₄, h₁, h₂, rfl, h₄, h₅⟩

/-- A capture that extends a lineage found its binding. -/
theorem decideCapture_versioned {capture : SourceCapture} {source : SourceArtifact}
    (h : decideCapture loadSourceArtifact db capture = .ok (source, .versioned)) :
    ∃ b ∈ db.bindings, b.namespaceId = capture.params.source.params.namespaceId ∧
      b.originBindingId = capture.params.originBindingId ∧
      b.lineageId = capture.params.source.params.lineageId := by
  simp only [decideCapture] at h
  split at h
  · rename_i lineageId hlineage
    simp only [Except.bind_eq_ok_iff, require_eq_ok_iff] at h
    obtain ⟨-, rfl, -⟩ := h
    simp only [loadOriginLineage, Option.map_eq_some_iff] at hlineage
    obtain ⟨b, hb, hl⟩ := hlineage
    have hkey := List.find?_some hb
    simp only [Bool.and_eq_true, beq_iff_eq] at hkey
    exact ⟨b, List.mem_of_find?_eq_some hb, hkey.1, hkey.2, hl⟩
  · simp only [Except.bind_eq_ok_iff, Except.pure_eq_ok_iff, Prod.mk.injEq, reduceCtorEq,
      and_false, exists_false] at h

/-- A successful capture leaves a verified library: the one it was given, or that one with the
facts of the capture. -/
theorem captureSource_eq_ok {capture : SourceCapture} {result : SourceCaptureResult}
    (h : captureSource db capture = .ok (db', result)) :
    verifyDerivedIndex db' = .ok () ∧ verifyOriginBindings db' = .ok () ∧
      (db' = db ∨ ∃ source outcome,
        decideCapture loadSourceArtifact db capture = .ok (source, outcome) ∧
        insertCaptureFacts db capture outcome = .ok db') := by
  simp only [captureSource, Except.bind_eq_ok_iff, Except.exists_unit_iff] at h
  obtain ⟨-, -, ⟨source, outcome⟩, hdecide, h⟩ := h
  dsimp only at h
  split at h
  · simp only [Except.bind_eq_ok_iff, Except.exists_unit_iff, Except.pure_eq_ok_iff,
      Prod.mk.injEq] at h
    obtain ⟨db₁, h₁, hverify, hbindings, rfl, -⟩ := h
    exact ⟨hverify, hbindings, .inr ⟨source, outcome, hdecide, h₁⟩⟩
  · simp only [Except.ok_bind, Except.bind_eq_ok_iff, Except.exists_unit_iff,
      Except.pure_eq_ok_iff, Prod.mk.injEq] at h
    obtain ⟨hverify, hbindings, rfl, -⟩ := h
    exact ⟨hverify, hbindings, .inl rfl⟩

/-- A stored artifact is new in its lineage and is the tip afterwards. -/
theorem storeSourceArtifact_eq_ok {source : SourceArtifact}
    (h : storeSourceArtifact db source = .ok db') :
    source.params.originKind ≠ .explicitUserInput ∧
      insertSourceArtifact db source = .ok (db.addSource source) ∧
      advanceLineageTip (db.addSource source) source = .ok db' := by
  simp only [storeSourceArtifact, Except.bind_eq_ok_iff, require_eq_ok_iff] at h
  obtain ⟨-, horigin, db₁, h₁, h₂⟩ := h
  obtain ⟨rfl, -⟩ := insertSourceArtifact_eq_ok h₁
  exact ⟨horigin, h₁, h₂⟩

end RadishMemory
