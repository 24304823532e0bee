import RadishMemory.Properties.Reads

/-!
# What a verified library satisfies

`Catalog.loadWith` rebuilds what the derived tables should hold; verification compares it with
what they hold, and a rebuild stores it.  Either way every derived row stands for an active
canonical row (`DerivedSound`), which is all that most proofs need of a verification.
-/

namespace RadishMemory

variable [Platform] {db db' : Database}

/-! ## The parts of a catalog -/

section Rows

omit [Platform]

theorem collectUnique_eq_ok_iff {α κ : Type} [DecidableEq κ] {key : α → κ} {rows rows' : List α} :
    collectUnique key rows = .ok rows' ↔ UniqueBy key rows ∧ rows' = rows := by
  simp only [collectUnique, Except.bind_eq_ok_iff, Except.exists_unit_iff, require_eq_ok_iff,
    Except.pure_eq_ok_iff, UniqueBy]
  exact and_congr Iff.rfl eq_comm

theorem mem_orderByTexts {α : Type} {first second : α → String} {rows : List α} {a : α} :
    a ∈ orderByTexts first second rows ↔ a ∈ rows :=
  List.mem_insertionSort _

theorem mem_newestActiveRows {row : SourceRow} :
    row ∈ newestActiveRows db ↔
      row ∈ db.sources ∧ row.governance.deletionState = .active ∧
        isNewestVersion db row = true := by
  simp [newestActiveRows, mem_orderByTexts]

theorem mem_tipFragmentRows {row : FragmentRow} :
    row ∈ tipFragmentRows db ↔
      row ∈ db.fragments ∧ row.governance.deletionState = .active ∧
        ∃ source ∈ db.sources, source.sourceId = row.sourceId ∧ isActiveTip db source = true := by
  simp [tipFragmentRows, mem_orderByTexts]

theorem mem_activeRecordRows {row : RecordRow} :
    row ∈ activeRecordRows db ↔ row ∈ db.records ∧ row.governance.deletionState = .active := by
  simp [activeRecordRows, mem_orderByTexts]

end Rows

/-- The tips that the canonical tables ask for. -/
structure ExpectedTips (db : Database) (tips : List TipRow) : Prop where
  keys : UniqueBy TipRow.key tips
  rows : tips = (newestActiveRows db).map TipRow.ofSource
  load : ∀ tip ∈ tips, checkExpectedTip loadSourceArtifact db tip = .ok ()

theorem expectedSourceTipsWith_eq_ok_iff {tips : List TipRow} :
    expectedSourceTipsWith loadSourceArtifact db = .ok tips ↔ ExpectedTips db tips := by
  simp only [expectedSourceTipsWith, Except.bind_eq_ok_iff, collectUnique_eq_ok_iff,
    Except.exists_unit_iff, checkAll_eq_ok_iff, Except.pure_eq_ok_iff]
  constructor
  · rintro ⟨tips', ⟨hkeys, rfl⟩, hload, rfl⟩
    exact ⟨hkeys, rfl, hload⟩
  · rintro ⟨hkeys, rfl, hload⟩
    exact ⟨_, ⟨hkeys, rfl⟩, hload, rfl⟩

/-- The fragments and records that the derived tables should know. -/
structure CatalogRead (db : Database) (resolved : List ResolvedSource)
    (records : List MemoryRecord) : Prop where
  expected : ∃ tips, ExpectedTips db tips ∧ UniqueBy TipRow.key db.tips ∧
    ∀ tip, tip ∈ tips ↔ tip ∈ db.tips
  fragments : List.Forall₂ (fun row r => loadResolvedFragmentWith loadSourceArtifact db
    row.namespaceId row.fragmentId = .ok (some r)) (tipFragmentRows db) resolved
  memories : List.Forall₂ (fun row record => ∃ events, loadMemoryRecordClosureWith
    loadSourceArtifact db row.namespaceId row.memoryId = .ok (some (record, events)))
    (activeRecordRows db) records

/-- The full-text rows of a catalog. -/
def catalogRecallRows (resolved : List ResolvedSource) (records : List MemoryRecord) :
    List RecallRow :=
  (resolved.filter resolvedIsActive).map (fun r => RecallRow.ofFragment r.fragment) ++
    (records.filter isRecallable).map RecallRow.ofRecord

theorem loadSources_eq_ok {resolved : List ResolvedSource}
    (h : loadSources loadSourceArtifact db = .ok resolved) :
    ∃ all, List.Forall₂ (fun row r => loadResolvedFragmentWith loadSourceArtifact db
        row.namespaceId row.fragmentId = .ok (some r)) (tipFragmentRows db) all ∧
      resolved = all.filter resolvedIsActive := by
  simp only [loadSources, Except.bind_eq_ok_iff, List.mapM_eq_ok_iff, Except.pure_eq_ok_iff,
    Option.orError_eq_ok_iff] at h
  obtain ⟨all, hall, rfl⟩ := h
  refine ⟨all, hall.imp fun row r hr => ?_, rfl⟩
  obtain ⟨_, hload, rfl⟩ := hr
  exact hload

theorem loadMemories_eq_ok {records : List MemoryRecord}
    (h : loadMemories loadSourceArtifact db = .ok records) :
    List.Forall₂ (fun row record => ∃ events, loadMemoryRecordClosureWith loadSourceArtifact db
      row.namespaceId row.memoryId = .ok (some (record, events))) (activeRecordRows db)
      records := by
  rw [loadMemories, List.mapM_eq_ok_iff] at h
  refine h.imp fun row record hr => ?_
  simp only [Except.bind_eq_ok_iff, Option.orError_eq_ok_iff, Except.pure_eq_ok_iff] at hr
  obtain ⟨_, hload, ⟨r, events⟩, rfl, rfl⟩ := hr
  exact ⟨events, hload⟩

theorem Catalog.loadWith_eq_ok {catalog : Catalog}
    (h : Catalog.loadWith loadSourceArtifact db = .ok catalog) :
    ∃ resolved records, CatalogRead db resolved records ∧
      catalog.recallRows = catalogRecallRows resolved records ∧
      catalog.projections = records.map ProjectionRow.ofRecord ∧
      UniqueBy RecallRow.key catalog.recallRows ∧
      UniqueBy ProjectionRow.memoryId catalog.projections ∧
      catalog.candidates = (resolved.filter resolvedIsActive).map Candidate.source ++
        (records.filter isRecallable).map Candidate.memory := by
  simp only [Catalog.loadWith, Except.bind_eq_ok_iff, Except.exists_unit_iff,
    verifySourceTips, actualSourceTips, expectedSourceTipsWith_eq_ok_iff,
    collectUnique_eq_ok_iff, require_eq_ok_iff, sameEntries_iff, Except.pure_eq_ok_iff] at h
  obtain ⟨⟨tips, htips, _, ⟨hkeys, rfl⟩, hsame⟩, resolved, hresolved, records, hrecords, _,
    ⟨hrecall, rfl⟩, _, ⟨hprojection, rfl⟩, rfl⟩ := h
  obtain ⟨all, hall, rfl⟩ := loadSources_eq_ok hresolved
  exact ⟨all, records, ⟨⟨tips, htips, hkeys, hsame⟩, hall, loadMemories_eq_ok hrecords⟩, rfl,
    rfl, hrecall, hprojection, rfl⟩

/-! ## Derived rows stand for active rows -/

omit [Platform] in
/-- The object a full-text key names is active. -/
def RecallKey.IsActive (db : Database) (key : RecallKey) : Prop :=
  match key.objectKind with
  | .sourceFragment => ∃ f ∈ db.fragments, f.fragmentId = key.objectId ∧
      f.governance.deletionState = .active
  | .memoryRecord => ∃ r ∈ db.records, r.memoryId = key.objectId ∧
      r.governance.deletionState = .active

/-- Every derived row stands for an active canonical row. -/
structure DerivedSound (db : Database) : Prop where
  tips : ∀ tip ∈ db.tips, ∃ s ∈ db.sources, s.governance.deletionState = .active ∧
    tip = TipRow.ofSource s
  tipKeys : UniqueBy TipRow.key db.tips
  projection : ∀ row ∈ db.projection, ∃ r ∈ db.records, r.memoryId = row.memoryId ∧
    r.governance.deletionState = .active
  recallFts : ∀ row ∈ db.recallFts, row.key.IsActive db

theorem CatalogRead.tips_active {resolved : List ResolvedSource} {records : List MemoryRecord}
    (h : CatalogRead db resolved records) {tip : TipRow} (htip : tip ∈ db.tips) :
    ∃ s ∈ db.sources, s.governance.deletionState = .active ∧ isNewestVersion db s = true ∧
      tip = TipRow.ofSource s := by
  obtain ⟨tips, htips, -, hsame⟩ := h.expected
  rw [← hsame, htips.rows, List.mem_map] at htip
  obtain ⟨s, hs, rfl⟩ := htip
  obtain ⟨hmem, hactive, hnewest⟩ := mem_newestActiveRows.1 hs
  exact ⟨s, hmem, hactive, hnewest, rfl⟩

theorem CatalogRead.record_active {resolved : List ResolvedSource}
    {records : List MemoryRecord} (h : CatalogRead db resolved records) {record : MemoryRecord}
    (hrecord : record ∈ records) :
    ∃ r ∈ db.records, r.memoryId = record.params.memoryId ∧
      r.governance.deletionState = .active := by
  obtain ⟨row, hrow, events, hload⟩ := List.Forall₂.exists_of_mem_right h.memories hrecord
  obtain ⟨row', -, hrow', -, hid, -⟩ := loadMemoryRecordClosureWith_rows hload
  obtain ⟨hlookup, -, hactive⟩ := activeRecordRow_eq_some_iff.1 hrow'
  exact ⟨row', lookup_mem hlookup, by rw [lookup_key hlookup, ← hid], hactive⟩

theorem CatalogRead.recall_active {resolved : List ResolvedSource}
    {records : List MemoryRecord} (h : CatalogRead db resolved records) {row : RecallRow}
    (hrow : row ∈ catalogRecallRows resolved records) : row.key.IsActive db := by
  rcases List.mem_append.1 hrow with hrow | hrow
  · obtain ⟨r, hr, rfl⟩ := List.mem_map.1 hrow
    obtain ⟨fragmentRow, -, hload⟩ :=
      List.Forall₂.exists_of_mem_right h.fragments (List.mem_filter.1 hr).1
    obtain ⟨hactive, -⟩ := loadResolvedFragmentWith_eq_ok hload
    obtain ⟨hlookup, -, hstate⟩ := activeFragmentRow_eq_some_iff.1 hactive
    exact ⟨_, lookup_mem hlookup, rfl, hstate⟩
  · obtain ⟨record, hrecord, rfl⟩ := List.mem_map.1 hrow
    exact h.record_active (List.mem_filter.1 hrecord).1

/-- The record rows behind a verified library have active proposals. -/
theorem CatalogRead.proposal_active {resolved : List ResolvedSource}
    {records : List MemoryRecord} (h : CatalogRead db resolved records) {r : RecordRow}
    (hr : r ∈ db.records) (hactive : r.governance.deletionState = .active)
    (hunique : UniqueBy RecordRow.memoryId db.records) :
    ∃ p ∈ db.proposals, p.proposalId = r.originProposalId ∧ p.namespaceId = r.namespaceId ∧
      p.governance.deletionState = .active := by
  obtain ⟨record, -, events, hload⟩ :=
    List.Forall₂.exists_of_mem_left h.memories (mem_activeRecordRows.2 ⟨hr, hactive⟩)
  obtain ⟨row, p, hrow, hp, -, -⟩ := loadMemoryRecordClosureWith_rows hload
  have hlookup := (activeRecordRow_eq_some_iff.1 hrow).1
  rw [lookup_of_mem hunique hr, Option.some.injEq] at hlookup
  subst hlookup
  obtain ⟨hp, hns, hstate⟩ := activeProposalRow_eq_some_iff.1 hp
  exact ⟨p, lookup_mem hp, lookup_key hp, hns, hstate⟩

theorem verifyCatalog_eq_ok_iff {catalog : Catalog} {u : Unit} :
    verifyCatalog db catalog = .ok u ↔
      UniqueBy ProjectionRow.memoryId db.projection ∧ UniqueBy RecallRow.key db.recallFts ∧
      (∀ row, row ∈ db.projection ↔ row ∈ catalog.projections) ∧
      ∀ row, row ∈ db.recallFts ↔ row ∈ catalog.recallRows := by
  simp only [verifyCatalog, Except.bind_eq_ok_iff, collectUnique_eq_ok_iff, require_eq_ok_iff,
    sameEntries_iff]
  constructor
  · rintro ⟨_, ⟨hp, rfl⟩, _, ⟨hr, rfl⟩, h⟩
    exact ⟨hp, hr, h⟩
  · rintro ⟨hp, hr, h⟩
    exact ⟨_, ⟨hp, rfl⟩, _, ⟨hr, rfl⟩, h⟩

/-- A verified library has a catalog that its derived tables agree with. -/
theorem verifyDerivedIndex_eq_ok {u : Unit} (h : verifyDerivedIndex db = .ok u) :
    ∃ resolved records, CatalogRead db resolved records ∧
      UniqueBy ProjectionRow.memoryId db.projection ∧ UniqueBy RecallRow.key db.recallFts ∧
      (∀ row, row ∈ db.projection ↔ row ∈ records.map ProjectionRow.ofRecord) ∧
      ∀ row, row ∈ db.recallFts ↔ row ∈ catalogRecallRows resolved records := by
  simp only [verifyDerivedIndex, Except.bind_eq_ok_iff, verifyCatalog_eq_ok_iff] at h
  obtain ⟨catalog, hcatalog, hp, hr, hprojection, hrecall⟩ := h
  obtain ⟨resolved, records, hread, hrows, hprojections, -⟩ := Catalog.loadWith_eq_ok hcatalog
  exact ⟨resolved, records, hread, hp, hr, by rw [← hprojections]; exact hprojection,
    by rw [← hrows]; exact hrecall⟩

/-- The derived tables of a catalog are sound over the canonical tables it was read from. -/
theorem CatalogRead.sound {resolved : List ResolvedSource} {records : List MemoryRecord}
    (h : CatalogRead db resolved records) :
    DerivedSound { db with
      projection := records.map ProjectionRow.ofRecord
      recallFts := catalogRecallRows resolved records } where
  tips tip htip := by
    obtain ⟨s, hs, hactive, -, heq⟩ := h.tips_active htip
    exact ⟨s, hs, hactive, heq⟩
  tipKeys := by
    obtain ⟨-, -, hkeys, -⟩ := h.expected
    exact hkeys
  projection row hrow := by
    obtain ⟨record, hrecord, rfl⟩ := List.mem_map.1 hrow
    exact h.record_active hrecord
  recallFts row hrow := h.recall_active hrow

theorem verifyDerivedIndex_sound {u : Unit} (h : verifyDerivedIndex db = .ok u) :
    DerivedSound db := by
  obtain ⟨resolved, records, hread, -, -, hprojection, hrecall⟩ := verifyDerivedIndex_eq_ok h
  have hsound := hread.sound
  exact ⟨hsound.tips, hsound.tipKeys,
    fun row hrow => hsound.projection row ((hprojection row).1 hrow),
    fun row hrow => hsound.recallFts row ((hrecall row).1 hrow)⟩

/-! ## Rebuilding -/

section Derived

omit [Platform]

/-- Replace the derived tables. -/
def Database.withDerived (db : Database) (tips : List TipRow) (projection : List ProjectionRow)
    (recallFts : List RecallRow) : Database :=
  { db with tips, projection, recallFts }

theorem Database.withDerived_withDerived (tips tips' : List TipRow)
    (projection projection' : List ProjectionRow) (recallFts recallFts' : List RecallRow) :
    (db.withDerived tips projection recallFts).withDerived tips' projection' recallFts' =
      db.withDerived tips' projection' recallFts' := rfl

theorem foldlM_insertTip_eq_ok {tips : List TipRow}
    (h : tips.foldlM (fun db tip => db.insertTip tip) db = .ok db') :
    db' = db.withDerived (db.tips ++ tips) db.projection db.recallFts := by
  induction tips generalizing db with
  | nil =>
    rw [List.foldlM_nil, Except.pure_eq_ok_iff] at h
    subst h
    simp [Database.withDerived]
  | cons tip rest ih =>
    rw [List.foldlM_cons, Except.bind_eq_ok_iff] at h
    obtain ⟨db₁, h₁, h₂⟩ := h
    obtain ⟨-, -, -, rfl⟩ := Database.insertTip_eq_ok_iff.1 h₁
    rw [ih h₂]
    simp [Database.withDerived]

theorem foldlM_insertProjection_eq_ok {rows : List ProjectionRow}
    (h : rows.foldlM (fun db row => db.insertProjection row) db = .ok db') :
    db' = db.withDerived db.tips (db.projection ++ rows) db.recallFts := by
  induction rows generalizing db with
  | nil =>
    rw [List.foldlM_nil, Except.pure_eq_ok_iff] at h
    subst h
    simp [Database.withDerived]
  | cons row rest ih =>
    rw [List.foldlM_cons, Except.bind_eq_ok_iff] at h
    obtain ⟨db₁, h₁, h₂⟩ := h
    obtain ⟨-, rfl⟩ := Database.insertProjection_eq_ok h₁
    rw [ih h₂]
    simp [Database.withDerived]

end Derived

/-- A rebuild replaces the derived tables, and what it stores is sound. -/
theorem rebuildRecallDerivations_eq_ok (h : rebuildRecallDerivations db = .ok db') :
    ∃ tips projection recallFts, db' = db.withDerived tips projection recallFts ∧
      DerivedSound db' := by
  simp only [rebuildRecallDerivations, rebuildDerivedIndex, Except.bind_eq_ok_iff,
    Except.exists_unit_iff, Except.pure_eq_ok_iff] at h
  obtain ⟨-, _, ⟨tips, -, db₁, h₁, catalog, hcatalog, db₂, h₂, -, rfl⟩, -, rfl⟩ := h
  obtain ⟨resolved, records, hread, hrows, hprojections, -⟩ := Catalog.loadWith_eq_ok hcatalog
  have hdb₁ : db₁ = db.withDerived tips db.projection db.recallFts := foldlM_insertTip_eq_ok h₁
  have hdb₂ : db₂ = db₁.withDerived db₁.tips catalog.projections [] :=
    foldlM_insertProjection_eq_ok h₂
  have hresult : { db₂ with recallFts := catalog.recallRows } =
      db₁.withDerived db₁.tips catalog.projections catalog.recallRows := by
    rw [hdb₂]
    rfl
  rw [hresult]
  refine ⟨tips, catalog.projections, catalog.recallRows, ?_, ?_⟩
  · rw [hdb₁]
    rfl
  · rw [hrows, hprojections]
    exact hread.sound

end RadishMemory
