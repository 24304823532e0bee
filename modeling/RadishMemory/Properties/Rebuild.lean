import RadishMemory.Properties.VerifiedWrites
import RadishMemory.Properties.Readable
import RadishMemory.Properties.StoredKeys

/-!
# A rebuild repairs the derived tables

A rebuild reads the canonical tables only: it stores the expected tips before it reads the catalog,
and the catalog before it looks at what was stored.  So whatever the derived tables held, the result
is what the canonical tables ask for.  It refuses a library whose origin bindings do not verify.
-/

namespace RadishMemory

section Writes

variable [Platform] {db db' : Database}

/-! ## Inserting what is expected -/

section Inserts

omit [Platform]

theorem UniqueBy.ne_of_append {α κ : Type} {key : α → κ} {rows rest : List α} {row : α}
    (h : UniqueBy key (rows ++ row :: rest)) : ∀ r ∈ rows, key r ≠ key row := by
  intro r hr
  rw [UniqueBy, List.map_append, List.map_cons, List.nodup_append] at h
  exact h.2.2 _ (List.mem_map_of_mem hr) _ List.mem_cons_self

/-- A tip that the schema accepts. -/
structure TipAccepted (db : Database) (tip : TipRow) : Prop where
  namespaceId : idOk tip.namespaceId = true
  lineageId : idOk tip.lineageId = true
  sourceId : idOk tip.sourceId = true
  version : 0 < tip.version
  source : db.hasSource tip.sourceId = true

theorem foldlM_insertTip_ok {tips : List TipRow} (h : ∀ tip ∈ tips, TipAccepted db tip)
    (hkeys : UniqueBy TipRow.key (db.tips ++ tips))
    (hids : UniqueBy TipRow.sourceId (db.tips ++ tips)) :
    tips.foldlM (fun db tip => db.insertTip tip) db =
      .ok (db.withDerived (db.tips ++ tips) db.projection db.recallFts) := by
  induction tips generalizing db with
  | nil => rw [List.append_nil]; rfl
  | cons tip rest ih =>
    have hone := h tip List.mem_cons_self
    have hinsert : db.insertTip tip = .ok { db with tips := db.tips ++ [tip] } := by
      refine Database.insertTip_eq_ok_iff.2 ⟨⟨hone.namespaceId, hone.lineageId, hone.sourceId,
        hone.version⟩, fun r hr => ⟨fun hns hlineage => ?_, UniqueBy.ne_of_append hids r hr⟩,
        hone.source, rfl⟩
      exact UniqueBy.ne_of_append hkeys r hr (Prod.ext hns hlineage)
    rw [List.foldlM_cons, hinsert, Except.ok_bind, ih]
    · rw [List.append_assoc, List.singleton_append]
      rfl
    · intro other hother
      have haccepted := h other (List.mem_cons_of_mem tip hother)
      exact ⟨haccepted.namespaceId, haccepted.lineageId, haccepted.sourceId, haccepted.version,
        haccepted.source⟩
    · rw [List.append_assoc, List.singleton_append]
      exact hkeys
    · rw [List.append_assoc, List.singleton_append]
      exact hids

/-- A projection that the schema accepts. -/
structure ProjectionAccepted (db : Database) (row : ProjectionRow) : Prop where
  memoryId : idOk row.memoryId = true
  namespaceId : idOk row.namespaceId = true
  lastStateEventId : idOk row.lastStateEventId = true
  references : db.projectionReferences row = true

theorem foldlM_insertProjection_ok {rows : List ProjectionRow}
    (h : ∀ row ∈ rows, ProjectionAccepted db row)
    (hkeys : UniqueBy ProjectionRow.memoryId (db.projection ++ rows))
    (hevents : UniqueBy ProjectionRow.lastStateEventId (db.projection ++ rows)) :
    rows.foldlM (fun db row => db.insertProjection row) db =
      .ok (db.withDerived db.tips (db.projection ++ rows) db.recallFts) := by
  induction rows generalizing db with
  | nil => rw [List.append_nil]; rfl
  | cons row rest ih =>
    have hone := h row List.mem_cons_self
    have hinsert : db.insertProjection row =
        .ok { db with projection := db.projection ++ [row] } := by
      rw [Database.insertProjection, insertInto_eq_ok_iff]
      refine ⟨?_, fun r hr => ?_, hone.references, rfl⟩
      · rw [hone.memoryId, hone.namespaceId, hone.lastStateEventId]
        rfl
      · rw [Bool.or_eq_false_iff, beq_eq_false_iff_ne, beq_eq_false_iff_ne]
        exact ⟨UniqueBy.ne_of_append hkeys r hr, UniqueBy.ne_of_append hevents r hr⟩
    rw [List.foldlM_cons, hinsert, Except.ok_bind, ih]
    · rw [List.append_assoc, List.singleton_append]
      rfl
    · intro other hother
      have haccepted := h other (List.mem_cons_of_mem row hother)
      exact ⟨haccepted.memoryId, haccepted.namespaceId, haccepted.lastStateEventId,
        haccepted.references⟩
    · rw [List.append_assoc, List.singleton_append]
      exact hkeys
    · rw [List.append_assoc, List.singleton_append]
      exact hevents

end Inserts

/-! ## What a rebuild stores -/

section Derived

variable {tips : List TipRow} {projection : List ProjectionRow} {recallFts : List RecallRow}

/-- What is read does not depend on the derived tables. -/
theorem grows_withDerived : Grows db (db.withDerived tips projection recallFts) :=
  ⟨fun _ _ _ h => h, fun _ _ _ h => h, ⟨rfl, rfl, rfl, rfl, rfl, rfl, rfl, rfl, rfl, rfl⟩⟩

theorem grows_of_withDerived : Grows (db.withDerived tips projection recallFts) db :=
  ⟨fun _ _ _ h => h, fun _ _ _ h => h, ⟨rfl, rfl, rfl, rfl, rfl, rfl, rfl, rfl, rfl, rfl⟩⟩

/-- The catalog over the same tips is the same. -/
theorem CatalogRead.withDerived {resolved : List ResolvedSource} {records : List MemoryRecord}
    (h : CatalogRead (db.withDerived tips projection recallFts) resolved records)
    (projection' : List ProjectionRow) (recallFts' : List RecallRow) :
    CatalogRead (db.withDerived tips projection' recallFts') resolved records := by
  obtain ⟨expected, hexpected, hkeys, hsame⟩ := h.expected
  refine ⟨⟨expected, ⟨hexpected.keys, hexpected.rows, hexpected.load⟩, hkeys, hsame⟩, h.fragments,
    h.memories.imp fun row record hload => ?_⟩
  obtain ⟨events, hload⟩ := hload
  exact ⟨events, grows_withDerived.closure (grows_of_withDerived.closure hload)⟩

end Derived

/-- Every active record can be read. -/
def RecordsReadable (db : Database) : Prop :=
  ∀ r ∈ activeRecordRows db, ∃ closure,
    loadMemoryRecordClosureWith loadSourceArtifact db r.namespaceId r.memoryId = .ok (some closure)

/-- A library whose active objects can be read, with keys that the schema accepts. -/
structure Rebuildable (db : Database) : Prop extends ReadableLibrary db where
  keys : KeysStored db
  records : RecordsReadable db

/-- The tips that the sources ask for. -/
def askedTips (db : Database) : List TipRow :=
  (newestActiveRows db).map TipRow.ofSource

namespace Rebuildable

variable {tips : List TipRow} {projection : List ProjectionRow} {recallFts : List RecallRow}

theorem constraints (h : Rebuildable db) : Constraints db :=
  h.library.constraints

theorem newest_loads (h : Rebuildable db) : ∀ s ∈ newestActiveRows db, ∃ source,
    loadSourceArtifact db s.namespaceId s.sourceId = .ok (some source) := by
  intro s hs
  obtain ⟨hmem, hactive, -⟩ := mem_newestActiveRows.1 hs
  exact h.sources s hmem hactive

theorem expectedTips (h : Rebuildable db) :
    ExpectedTips (db.withDerived tips projection recallFts) (askedTips db) := by
  have hexpected := expectedTips_of_loads h.constraints h.newest_loads
  exact ⟨hexpected.keys, hexpected.rows, hexpected.load⟩

theorem tipKeys (h : Rebuildable db) : UniqueBy TipRow.key (askedTips db) :=
  (expectedTips_of_loads h.constraints h.newest_loads).keys

theorem tipSources (h : Rebuildable db) : UniqueBy TipRow.sourceId (askedTips db) := by
  rw [UniqueBy, askedTips, List.map_map]
  exact UniqueBy.orderByTexts (UniqueBy.filter h.constraints.sourceIds)

theorem tipAccepted (h : Rebuildable db) :
    ∀ tip ∈ askedTips db, TipAccepted (db.withDerived tips projection recallFts) tip := by
  intro tip htip
  obtain ⟨s, hs, rfl⟩ := List.mem_map.1 htip
  have hmem := (mem_newestActiveRows.1 hs).1
  obtain ⟨hid, hlineage, hns⟩ := h.keys.sources s hmem
  refine ⟨hns, hlineage, hid, s.version.positive, ?_⟩
  rw [Database.hasSource, List.any_eq_true]
  exact ⟨s, hmem, beq_self_eq_true _⟩

/-- The tips are replaced before anything is read through them. -/
theorem tips_stored (h : Rebuildable db) :
    (askedTips db).foldlM (fun db tip => db.insertTip tip)
      (db.withDerived [] projection recallFts) =
      .ok (db.withDerived (askedTips db) projection recallFts) :=
  foldlM_insertTip_ok h.tipAccepted h.tipKeys h.tipSources

/-- The catalog over the stored tips can be read, whatever else the derived tables hold. -/
theorem exists_catalogRead (h : Rebuildable db) : ∃ resolved records, ∀ projection recallFts,
    CatalogRead (db.withDerived (askedTips db) projection recallFts) resolved records := by
  have hc : Constraints (db.withDerived (askedTips db) [] []) :=
    h.constraints.withDerived h.tipKeys
  have hread : IndexReadable (db.withDerived (askedTips db) [] []) := by
    refine ⟨h.newest_loads, fun f hf => ?_, fun r hr => ?_⟩
    · obtain ⟨hmem, hactive, -⟩ := mem_tipFragmentRows.1 hf
      exact h.fragments f hmem hactive
    · obtain ⟨closure, hload⟩ := h.records r hr
      exact ⟨closure, grows_withDerived.closure hload⟩
  obtain ⟨resolved, records, hcatalog⟩ := hread.catalogRead hc fun tip => by
    rw [TipAsked]
    exact List.mem_map.trans (exists_congr fun s => and_congr_right fun _ => eq_comm)
  exact ⟨resolved, records, hcatalog.withDerived⟩

/-- The last event of a record that is read is stored. -/
theorem last_event_stored {namespaceId memoryId : Identifier} {closure : RecordClosure}
    (hload : loadMemoryRecordClosureWith loadSourceArtifact db namespaceId memoryId =
      .ok (some closure)) : ∃ e ∈ db.events, e.memoryId = memoryId ∧
        e.eventId = closure.1.params.lastStateEventId := by
  obtain ⟨row, loaded, hrow, hbase, rfl⟩ := loadMemoryRecordClosureInner_eq_ok hload
  obtain ⟨root, tip, decision, initial, hread⟩ := loadRecordBase_eq_ok hbase
  have hid : row.memoryId = memoryId := lookup_key (activeRecordRow_eq_some_iff.1 hrow).1
  obtain ⟨hmem, hmemory⟩ := (loadEventChain_mem hread.chain (EventRow.ofEvent tip.params)).1
    ⟨tip, List.mem_of_getLast? hread.last, rfl⟩
  refine ⟨_, hmem, hmemory.trans hid, ?_⟩
  rw [hread.projected]
  rfl

theorem projectionAccepted (h : Rebuildable db) {resolved : List ResolvedSource}
    {records : List MemoryRecord}
    (hread : CatalogRead (db.withDerived tips projection recallFts) resolved records) :
    ∀ row ∈ records.map ProjectionRow.ofRecord,
      ProjectionAccepted (db.withDerived tips projection recallFts) row := by
  intro row hrow
  obtain ⟨record, hrecord, rfl⟩ := List.mem_map.1 hrow
  obtain ⟨r, hr, events, hload⟩ := hread.memories.exists_of_mem_right hrecord
  obtain ⟨stored, -, hstored, -, hid, hof⟩ := loadMemoryRecordClosureWith_rows hload
  obtain ⟨hlookup, -⟩ := activeRecordRow_eq_some_iff.1 hstored
  have hmem : stored ∈ db.records := lookup_mem hlookup
  obtain ⟨hidOk, hnsOk⟩ := h.keys.records stored hmem
  obtain ⟨e, he, hmemory, hlast⟩ := last_event_stored hload
  rw [hof] at hidOk hnsOk
  refine ⟨hidOk, hnsOk, ?_, ?_⟩
  · have hok := h.keys.events e he
    rw [hlast] at hok
    exact hok
  · rw [Database.projectionReferences, Bool.and_eq_true, Database.hasRecord, List.any_eq_true,
      List.any_eq_true]
    refine ⟨⟨stored, hmem, ?_⟩, e, he, ?_⟩
    · rw [beq_iff_eq, hof]
      rfl
    · rw [Bool.and_eq_true, beq_iff_eq, beq_iff_eq]
      exact ⟨hmemory.trans hid.symm, hlast⟩

/-- Two records have different last events. -/
theorem lastEvents (h : Rebuildable db) {resolved : List ResolvedSource}
    {records : List MemoryRecord}
    (hread : CatalogRead (db.withDerived tips projection recallFts) resolved records)
    (hc : Constraints (db.withDerived tips projection recallFts)) :
    UniqueBy ProjectionRow.lastStateEventId (records.map ProjectionRow.ofRecord) := by
  have hkeys := hread.recordKeys hc
  rw [UniqueBy, List.map_map]
  refine List.Nodup.map_on (fun a ha b hb hab => hkeys.eq_of_mem ha hb ?_) hkeys.of_map
  obtain ⟨r, hr, events, hload⟩ := hread.memories.exists_of_mem_right ha
  obtain ⟨r', hr', events', hload'⟩ := hread.memories.exists_of_mem_right hb
  obtain ⟨e, he, hmemory, hlast⟩ := last_event_stored hload
  obtain ⟨e', he', hmemory', hlast'⟩ := last_event_stored hload'
  have hsame : e = e' := h.keys.eventIds.eq_of_mem he he' (hlast.trans (hab.trans hlast'.symm))
  have hid := memoryId_of_load hload
  have hid' := memoryId_of_load hload'
  exact hid.trans (hmemory.symm.trans (by rw [hsame, hmemory', hid']))

/-- A rebuild stores what the canonical tables ask for, whatever the derived tables held. -/
theorem rebuild_eq (h : Rebuildable db) (horigins : verifyOriginBindings db = .ok ()) :
    ∃ projection recallFts, IndexVerified (db.withDerived (askedTips db) projection recallFts) ∧
      ∀ tips₀ projection₀ recallFts₀,
        rebuildRecallDerivations (db.withDerived tips₀ projection₀ recallFts₀) =
          .ok (db.withDerived (askedTips db) projection recallFts) := by
  obtain ⟨resolved, records, hread⟩ := h.exists_catalogRead
  have hc : ∀ projection recallFts,
      Constraints (db.withDerived (askedTips db) projection recallFts) :=
    fun projection recallFts => h.constraints.withDerived h.tipKeys
  refine ⟨records.map ProjectionRow.ofRecord, catalogRecallRows resolved records, ?_,
    fun tips₀ projection₀ recallFts₀ => ?_⟩
  · have hrebuilt := hread (records.map ProjectionRow.ofRecord) (catalogRecallRows resolved records)
    exact ⟨hrebuilt.readable, hrebuilt.projectionKeys (hc _ _), hrebuilt.recallKeys (hc _ _),
      hrebuilt.mem_tips_iff, fun row => hrebuilt.mem_projections_iff,
      fun row => hrebuilt.mem_recallRows_iff⟩
  · obtain ⟨catalog, hcatalog, hrows, hprojections⟩ :=
      (hread projection₀ recallFts₀).loadWith (hc projection₀ recallFts₀)
    have hexpected : expectedSourceTipsWith loadSourceArtifact
        (db.withDerived tips₀ projection₀ recallFts₀) = .ok (askedTips db) :=
      expectedSourceTipsWith_eq_ok_iff.2 h.expectedTips
    have hinserted : (records.map ProjectionRow.ofRecord).foldlM
        (fun db row => db.insertProjection row) (db.withDerived (askedTips db) [] []) =
        .ok (db.withDerived (askedTips db) (records.map ProjectionRow.ofRecord) []) :=
      foldlM_insertProjection_ok (h.projectionAccepted (hread [] []))
        ((hread [] []).projectionKeys (hc [] [])) (h.lastEvents (hread [] []) (hc [] []))
    have hverify : verifyCatalog (db.withDerived (askedTips db)
        (records.map ProjectionRow.ofRecord) (catalogRecallRows resolved records)) catalog =
        .ok () := by
      rw [verifyCatalog_eq_ok_iff, hrows, hprojections]
      exact ⟨(hread [] []).projectionKeys (hc [] []), (hread [] []).recallKeys (hc [] []),
        fun row => Iff.rfl, fun row => Iff.rfl⟩
    have hrebuilt : rebuildDerivedIndex (db.withDerived tips₀ projection₀ recallFts₀) =
        .ok (db.withDerived (askedTips db) (records.map ProjectionRow.ofRecord)
          (catalogRecallRows resolved records)) := by
      simp only [rebuildDerivedIndex, Except.bind_eq_ok_iff, Except.exists_unit_iff,
        Except.pure_eq_ok_iff]
      refine ⟨_, hexpected, _, h.tips_stored, _, hcatalog,
        db.withDerived (askedTips db) (records.map ProjectionRow.ofRecord) [], ?_, ?_, ?_⟩
      · rw [hprojections]
        exact hinserted
      · rw [hrows]
        exact hverify
      · rw [hrows]
        rfl
    simp only [rebuildRecallDerivations, Except.bind_eq_ok_iff, Except.exists_unit_iff,
      Except.pure_eq_ok_iff]
    exact ⟨horigins, _, hrebuilt, horigins, rfl⟩

end Rebuildable

/-! ## Which libraries a rebuild repairs -/

/-- The result of a rebuild: the canonical rows are as they were, the derived tables hold what they
ask for, and another rebuild changes nothing. -/
structure Repaired (db db' : Database) : Prop where
  canonical : db' = db.withDerived db'.tips db'.projection db'.recallFts
  index : IndexVerified db'
  tipKeys : UniqueBy TipRow.key db'.tips
  verified : verifyRecallDerivations db' = .ok ()
  again : rebuildRecallDerivations db' = .ok db'

/-- Whatever the derived tables of the library are replaced by, a rebuild repairs them exactly when
the origins of the captured files are kept. -/
def RebuildRepairs (db : Database) : Prop :=
  RecordsReadable db → ∀ tips projection recallFts,
    (∃ db', rebuildRecallDerivations (db.withDerived tips projection recallFts) = .ok db' ∧
      Repaired db db') ↔ OriginsKept db

theorem rebuild_repairs (ops : List Op) : RebuildRepairs (runOps .empty ops) := by
  intro hrecords tips projection recallFts
  have h : Rebuildable (runOps .empty ops) :=
    ⟨ReadableLibrary.of_run ops, KeysStored.of_run ops, hrecords⟩
  rw [← verifyOriginBindings_eq_ok_iff h.constraints.sourceIds]
  constructor
  · rintro ⟨db', hrebuild, -⟩
    simp only [rebuildRecallDerivations, Except.bind_eq_ok_iff, Except.exists_unit_iff] at hrebuild
    exact hrebuild.1
  · intro horigins
    obtain ⟨projection', recallFts', hindex, hrebuild⟩ := h.rebuild_eq horigins
    have hconstraints : Constraints ((runOps .empty ops).withDerived (askedTips (runOps .empty ops))
        projection' recallFts') := h.constraints.withDerived h.tipKeys
    refine ⟨_, hrebuild tips projection recallFts, rfl, hindex, h.tipKeys, ?_, hrebuild _ _ _⟩
    rw [verifyRecallDerivations_eq_ok_iff hconstraints]
    exact ⟨(verifyOriginBindings_eq_ok_iff hconstraints.sourceIds).1 horigins, hindex⟩

end Writes

section Run

open Sample

/-- A captured file gets a second fragment over its bytes, and the library cannot be rebuilt. -/
theorem overlapping_fragment_unrebuildable :
    RecordsReadable (runOps .empty [captureFirst, .storeSourceFragments [overlapping]]) ∧
      ∀ db', rebuildRecallDerivations
        (runOps .empty [captureFirst, .storeSourceFragments [overlapping]]) ≠ .ok db' := by
  have hrecords : (runOps .empty [captureFirst, .storeSourceFragments [overlapping]]).records =
      [] := by
    rfl
  have hrebuild : (rebuildRecallDerivations
      (runOps .empty [captureFirst, .storeSourceFragments [overlapping]])).toOption.isNone =
        true := by
    decide +kernel
  refine ⟨fun r hr => ?_, fun db' h => ?_⟩
  · rw [mem_activeRecordRows, hrecords] at hr
    cases hr.1
  · rw [h] at hrebuild
    cases hrebuild

end Run

end RadishMemory
