import RadishMemory.Properties.ReadBack

/-!
# What a verified index is

Under the constraints of the schema, verification accepts a library exactly when everything that
its canonical tables ask for can be read, and its derived tables hold that and nothing else
(`IndexVerified`).  Nothing in it depends on the order in which rows are visited.
-/

namespace RadishMemory

variable [Platform] {db : Database}

/-! ## Lists and what they are read from -/

section Lists

omit [Platform]

variable {α β κ : Type}

theorem UniqueBy.map_comp {β' : Type} {key : α → β} {f : α → β'} {rows : List α}
    (h : UniqueBy key rows) (hf : ∀ a b, f a = f b → key a = key b) : (rows.map f).Nodup := by
  have hrows : rows.Nodup := h.of_map
  refine List.Nodup.map_on (fun a ha b hb hab => ?_) hrows
  exact h.eq_of_mem ha hb (hf a b hab)

theorem UniqueBy.orderByTexts {key : α → κ} {first second : α → String} {rows : List α}
    (h : UniqueBy key rows) : UniqueBy key (orderByTexts first second rows) :=
  ((List.perm_insertionSort _ rows).map key).nodup_iff.2 h

end Lists

/-! ## What the canonical tables ask for -/

/-- A tip, for the newest version of a lineage if it is active. -/
def TipAsked (db : Database) (tip : TipRow) : Prop :=
  ∃ s ∈ newestActiveRows db, tip = TipRow.ofSource s

/-- A projection, for an active record as it is read. -/
def ProjectionAsked (db : Database) (row : ProjectionRow) : Prop :=
  ∃ r ∈ activeRecordRows db, ∃ closure, loadMemoryRecordClosureWith loadSourceArtifact db
    r.namespaceId r.memoryId = .ok (some closure) ∧ row = ProjectionRow.ofRecord closure.1

/-- A full-text row, for an active fragment of a tip or for an active record that can be
recalled. -/
def RecallAsked (db : Database) (row : RecallRow) : Prop :=
  (∃ f ∈ tipFragmentRows db, ∃ resolved, loadResolvedSourceFragment db f.namespaceId
    f.fragmentId = .ok (some resolved) ∧ row = RecallRow.ofFragment resolved.fragment) ∨
  ∃ r ∈ activeRecordRows db, ∃ closure, loadMemoryRecordClosureWith loadSourceArtifact db
    r.namespaceId r.memoryId = .ok (some closure) ∧ isRecallable closure.1 = true ∧
      row = RecallRow.ofRecord closure.1

/-- What the canonical tables ask for can be read. -/
structure IndexReadable (db : Database) : Prop where
  sources : ∀ s ∈ newestActiveRows db, ∃ source,
    loadSourceArtifact db s.namespaceId s.sourceId = .ok (some source)
  fragments : ∀ f ∈ tipFragmentRows db, ∃ resolved,
    loadResolvedSourceFragment db f.namespaceId f.fragmentId = .ok (some resolved)
  records : ∀ r ∈ activeRecordRows db, ∃ closure, loadMemoryRecordClosureWith
    loadSourceArtifact db r.namespaceId r.memoryId = .ok (some closure)

/-- The derived tables hold what the canonical tables ask for, each row once. -/
structure IndexVerified (db : Database) : Prop where
  readable : IndexReadable db
  projectionKeys : UniqueBy ProjectionRow.memoryId db.projection
  recallKeys : UniqueBy RecallRow.key db.recallFts
  tips : ∀ tip, tip ∈ db.tips ↔ TipAsked db tip
  projection : ∀ row, row ∈ db.projection ↔ ProjectionAsked db row
  recallFts : ∀ row, row ∈ db.recallFts ↔ RecallAsked db row

/-! ## The catalog -/

theorem resolvedIsActive_of_load {namespaceId fragmentId : Identifier} {resolved : ResolvedSource}
    (h : loadResolvedSourceFragment db namespaceId fragmentId = .ok (some resolved)) :
    resolvedIsActive resolved = true := by
  obtain ⟨hrow, hsource, -⟩ := loadResolvedFragmentWith_eq_ok h
  obtain ⟨-, -, hfragment⟩ := activeFragmentRow_eq_some_iff.1 hrow
  obtain ⟨row, -, -, hactive, rfl⟩ := loadSourceArtifact_eq_ok hsource
  rw [resolvedIsActive, Bool.and_eq_true, beq_iff_eq, beq_iff_eq]
  exact ⟨hfragment, hactive⟩

theorem fragmentId_of_load {namespaceId fragmentId : Identifier} {resolved : ResolvedSource}
    (h : loadResolvedSourceFragment db namespaceId fragmentId = .ok (some resolved)) :
    resolved.fragment.params.fragmentId = fragmentId := by
  obtain ⟨hrow, -⟩ := loadResolvedFragmentWith_eq_ok h
  exact @lookup_key _ _ _ FragmentRow.fragmentId _ _ _ (activeFragmentRow_eq_some_iff.1 hrow).1

theorem memoryId_of_load {namespaceId memoryId : Identifier} {closure : RecordClosure}
    (h : loadMemoryRecordClosureWith loadSourceArtifact db namespaceId memoryId =
      .ok (some closure)) : closure.1.params.memoryId = memoryId := by
  obtain ⟨-, -, -, -, hid, -⟩ := loadMemoryRecordClosureWith_rows h
  exact hid

theorem CatalogRead.resolved_active {resolved : List ResolvedSource} {records : List MemoryRecord}
    (h : CatalogRead db resolved records) : resolved.filter resolvedIsActive = resolved := by
  refine List.filter_eq_self.2 fun r hr => ?_
  obtain ⟨row, -, hload⟩ := h.fragments.exists_of_mem_right hr
  exact resolvedIsActive_of_load hload

theorem CatalogRead.mem_projections_iff {resolved : List ResolvedSource}
    {records : List MemoryRecord} (h : CatalogRead db resolved records) {row : ProjectionRow} :
    row ∈ records.map ProjectionRow.ofRecord ↔ ProjectionAsked db row := by
  rw [List.mem_map]
  constructor
  · rintro ⟨record, hrecord, rfl⟩
    obtain ⟨r, hr, events, hload⟩ := h.memories.exists_of_mem_right hrecord
    exact ⟨r, hr, (record, events), hload, rfl⟩
  · rintro ⟨r, hr, closure, hload, rfl⟩
    obtain ⟨record, hrecord, events, hload'⟩ := h.memories.exists_of_mem_left hr
    rw [hload, Except.ok.injEq, Option.some.injEq] at hload'
    exact ⟨record, hrecord, by rw [hload']⟩

theorem CatalogRead.mem_recallRows_iff {resolved : List ResolvedSource}
    {records : List MemoryRecord} (h : CatalogRead db resolved records) {row : RecallRow} :
    row ∈ catalogRecallRows resolved records ↔ RecallAsked db row := by
  rw [catalogRecallRows, h.resolved_active, List.mem_append, List.mem_map, List.mem_map]
  constructor
  · rintro (⟨r, hr, rfl⟩ | ⟨record, hrecord, rfl⟩)
    · obtain ⟨f, hf, hload⟩ := h.fragments.exists_of_mem_right hr
      exact .inl ⟨f, hf, r, hload, rfl⟩
    · obtain ⟨hrecord, hrecallable⟩ := List.mem_filter.1 hrecord
      obtain ⟨r, hr, events, hload⟩ := h.memories.exists_of_mem_right hrecord
      exact .inr ⟨r, hr, (record, events), hload, hrecallable, rfl⟩
  · rintro (⟨f, hf, resolved', hload, rfl⟩ | ⟨r, hr, closure, hload, hrecallable, rfl⟩)
    · obtain ⟨r, hr, hload'⟩ := h.fragments.exists_of_mem_left hf
      rw [show loadResolvedFragmentWith loadSourceArtifact db f.namespaceId f.fragmentId =
        .ok (some resolved') from hload, Except.ok.injEq, Option.some.injEq] at hload'
      exact .inl ⟨r, hr, by rw [hload']⟩
    · obtain ⟨record, hrecord, events, hload'⟩ := h.memories.exists_of_mem_left hr
      rw [hload, Except.ok.injEq, Option.some.injEq] at hload'
      rw [hload'] at hrecallable ⊢
      exact .inr ⟨record, List.mem_filter.2 ⟨hrecord, hrecallable⟩, rfl⟩

theorem CatalogRead.recordKeys {resolved : List ResolvedSource} {records : List MemoryRecord}
    (h : CatalogRead db resolved records) (hc : Constraints db) :
    UniqueBy (fun record : MemoryRecord => record.params.memoryId) records := by
  rw [UniqueBy, h.memories.map_eq RecordRow.memoryId (fun record => record.params.memoryId)
    fun row record hload => hload.elim fun events hload => memoryId_of_load hload]
  exact UniqueBy.orderByTexts hc.recordIds.filter

/-- The rows that a catalog lists have keys of their own: they are primary keys of the tables. -/
theorem CatalogRead.recallKeys {resolved : List ResolvedSource} {records : List MemoryRecord}
    (h : CatalogRead db resolved records) (hc : Constraints db) :
    UniqueBy RecallRow.key (catalogRecallRows resolved records) := by
  have hfragments : UniqueBy (fun r => r.fragment.params.fragmentId) resolved := by
    rw [UniqueBy, h.fragments.map_eq FragmentRow.fragmentId
      (fun r => r.fragment.params.fragmentId)
      fun row r hload => fragmentId_of_load hload]
    exact UniqueBy.orderByTexts hc.fragmentIds.filter
  rw [catalogRecallRows, h.resolved_active]
  refine UniqueBy.append ?_ ?_ ?_
  · rw [UniqueBy, List.map_map]
    exact UniqueBy.map_comp hfragments
      fun a b => by simp [RecallRow.ofFragment, RecallKey.source]
  · rw [UniqueBy, List.map_map]
    exact UniqueBy.map_comp (h.recordKeys hc).filter
      fun a b => by simp [RecallRow.ofRecord, RecallKey.memory]
  · intro a ha b hb
    obtain ⟨record, -, rfl⟩ := List.mem_map.1 ha
    obtain ⟨r, -, rfl⟩ := List.mem_map.1 hb
    simp [RecallRow.ofFragment, RecallRow.ofRecord, RecallKey.source, RecallKey.memory]

theorem CatalogRead.projectionKeys {resolved : List ResolvedSource} {records : List MemoryRecord}
    (h : CatalogRead db resolved records) (hc : Constraints db) :
    UniqueBy ProjectionRow.memoryId (records.map ProjectionRow.ofRecord) := by
  rw [UniqueBy, List.map_map]
  exact UniqueBy.map_comp (h.recordKeys hc) fun a b => by simp [ProjectionRow.ofRecord]

theorem CatalogRead.mem_tips_iff {resolved : List ResolvedSource} {records : List MemoryRecord}
    (h : CatalogRead db resolved records) (tip : TipRow) : tip ∈ db.tips ↔ TipAsked db tip := by
  obtain ⟨tips, htips, -, hsame⟩ := h.expected
  rw [← hsame, htips.rows, List.mem_map]
  exact exists_congr fun s => and_congr_right fun _ => eq_comm

theorem CatalogRead.readable {resolved : List ResolvedSource} {records : List MemoryRecord}
    (h : CatalogRead db resolved records) : IndexReadable db where
  sources s hs := by
    obtain ⟨tips, htips, -⟩ := h.expected
    have hload := htips.load _ (htips.rows ▸ List.mem_map_of_mem hs)
    simp only [checkExpectedTip, Except.bind_eq_ok_iff, Except.exists_unit_iff, require_eq_ok_iff,
      Option.orError_eq_ok_iff] at hload
    obtain ⟨-, _, hload, source, rfl, -⟩ := hload
    exact ⟨source, hload⟩
  fragments f hf := by
    obtain ⟨resolved, -, hload⟩ := h.fragments.exists_of_mem_left hf
    exact ⟨resolved, hload⟩
  records r hr := by
    obtain ⟨record, -, events, hload⟩ := h.memories.exists_of_mem_left hr
    exact ⟨(record, events), hload⟩

/-! ## Verification and what it accepts -/

omit [Platform] in
theorem newest_eq_of_key (hc : Constraints db) {s t : SourceRow} (hs : s ∈ db.sources)
    (ht : t ∈ db.sources) (hnewest : isNewestVersion db s = true)
    (hnewest' : isNewestVersion db t = true)
    (hkey : (TipRow.ofSource s).key = (TipRow.ofSource t).key) : s = t := by
  obtain ⟨hns, hlineage⟩ : s.namespaceId = t.namespaceId ∧ s.lineageId = t.lineageId := by
    simpa [TipRow.key, TipRow.ofSource] using hkey
  have hge := isNewestVersion_iff.1 hnewest t ht ⟨hns.symm, hlineage.symm⟩
  have hle := isNewestVersion_iff.1 hnewest' s hs ⟨hns, hlineage⟩
  refine hc.sourceVersions.eq_of_mem hs ht ?_
  rw [SourceRow.versionKey, SourceRow.versionKey, hns, hlineage, Nat.le_antisymm hle hge]

theorem expectedTips_of_loads (hc : Constraints db) (h : ∀ s ∈ newestActiveRows db, ∃ source,
    loadSourceArtifact db s.namespaceId s.sourceId = .ok (some source)) :
    ExpectedTips db ((newestActiveRows db).map TipRow.ofSource) := by
  refine ⟨?_, rfl, fun tip htip => ?_⟩
  · rw [UniqueBy, List.map_map]
    refine List.Nodup.map_on (fun s hs t ht hkey => ?_)
      (List.Nodup.of_map _ (UniqueBy.orderByTexts hc.sourceIds.filter))
    rw [mem_newestActiveRows] at hs ht
    exact newest_eq_of_key hc hs.1 ht.1 hs.2.2 ht.2.2 hkey
  · obtain ⟨s, hs, rfl⟩ := List.mem_map.1 htip
    obtain ⟨source, hload⟩ := h s hs
    obtain ⟨row, hlookup, -, -, hrow⟩ := loadSourceArtifact_eq_ok hload
    have heq : row = s := by
      rw [lookup_of_mem hc.sourceIds (mem_newestActiveRows.1 hs).1, Option.some.injEq] at hlookup
      exact hlookup.symm
    subst heq
    simp only [checkExpectedTip, Except.bind_eq_ok_iff, Except.exists_unit_iff, require_eq_ok_iff,
      Option.orError_eq_ok_iff]
    refine ⟨row.version.positive, _, hload, source, rfl, ?_⟩
    rw [hrow]
    exact ⟨rfl, rfl⟩

/-- Everything a verified library is asked for can be listed. -/
theorem IndexReadable.catalogRead (h : IndexReadable db) (hc : Constraints db)
    (htips : ∀ tip, tip ∈ db.tips ↔ TipAsked db tip) :
    ∃ resolved records, CatalogRead db resolved records := by
  obtain ⟨resolved, hresolved⟩ := List.exists_forall₂ h.fragments
  obtain ⟨records, hrecords⟩ := List.exists_forall₂ (R := fun (row : RecordRow) record =>
    ∃ events, loadMemoryRecordClosureWith loadSourceArtifact db row.namespaceId row.memoryId =
      .ok (some (record, events))) fun row hrow => by
    obtain ⟨⟨record, events⟩, hload⟩ := h.records row hrow
    exact ⟨record, events, hload⟩
  refine ⟨resolved, records, ⟨_, expectedTips_of_loads hc h.sources, hc.tipKeys, fun tip => ?_⟩,
    hresolved, hrecords⟩
  rw [htips, List.mem_map]
  exact exists_congr fun s => and_congr_right fun _ => eq_comm

theorem CatalogRead.loadWith {resolved : List ResolvedSource} {records : List MemoryRecord}
    (h : CatalogRead db resolved records) (hc : Constraints db) :
    ∃ catalog, Catalog.loadWith loadSourceArtifact db = .ok catalog ∧
      catalog.recallRows = catalogRecallRows resolved records ∧
      catalog.projections = records.map ProjectionRow.ofRecord := by
  obtain ⟨tips, htips, hkeys, hsame⟩ := h.expected
  have hloadSources : loadSources loadSourceArtifact db =
      .ok (resolved.filter resolvedIsActive) := by
    simp only [loadSources, Except.bind_eq_ok_iff, List.mapM_eq_ok_iff, Except.pure_eq_ok_iff,
      Option.orError_eq_ok_iff]
    exact ⟨resolved, h.fragments.imp fun row r hload => ⟨_, hload, rfl⟩, rfl⟩
  have hloadMemories : loadMemories loadSourceArtifact db = .ok records := by
    simp only [loadMemories, List.mapM_eq_ok_iff, Except.bind_eq_ok_iff, Option.orError_eq_ok_iff,
      Except.pure_eq_ok_iff]
    refine h.memories.imp fun row record hload => ?_
    obtain ⟨events, hload⟩ := hload
    exact ⟨_, hload, _, rfl, rfl⟩
  have hverify : verifySourceTips loadSourceArtifact db = .ok () := by
    simp only [verifySourceTips, actualSourceTips, Except.bind_eq_ok_iff,
      expectedSourceTipsWith_eq_ok_iff, collectUnique_eq_ok_iff, require_eq_ok_iff, sameEntries_iff]
    exact ⟨tips, htips, _, ⟨hkeys, rfl⟩, hsame⟩
  simp only [Catalog.loadWith, Except.bind_eq_ok_iff, Except.exists_unit_iff,
    collectUnique_eq_ok_iff, Except.pure_eq_ok_iff]
  exact ⟨_, ⟨hverify, _, hloadSources, _, hloadMemories, _, ⟨h.recallKeys hc, rfl⟩, _,
    ⟨h.projectionKeys hc, rfl⟩, rfl⟩, rfl, rfl⟩

/-- Verification accepts exactly the libraries whose derived tables hold what is asked for. -/
theorem verifyDerivedIndex_eq_ok_iff (hc : Constraints db) :
    verifyDerivedIndex db = .ok () ↔ IndexVerified db := by
  constructor
  · intro h
    obtain ⟨resolved, records, hread, hprojection, hrecall, hprojections, hrecalls⟩ :=
      verifyDerivedIndex_eq_ok h
    exact ⟨hread.readable, hprojection, hrecall, hread.mem_tips_iff,
      fun row => (hprojections row).trans hread.mem_projections_iff,
      fun row => (hrecalls row).trans hread.mem_recallRows_iff⟩
  · intro h
    obtain ⟨resolved, records, hread⟩ := h.readable.catalogRead hc h.tips
    obtain ⟨catalog, hcatalog, hrows, hprojections⟩ := hread.loadWith hc
    rw [verifyDerivedIndex, hcatalog, Except.ok_bind, verifyCatalog_eq_ok_iff, hrows, hprojections]
    exact ⟨h.projectionKeys, h.recallKeys,
      fun row => (h.projection row).trans hread.mem_projections_iff.symm,
      fun row => (h.recallFts row).trans hread.mem_recallRows_iff.symm⟩

end RadishMemory
