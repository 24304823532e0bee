import RadishMemory.Properties.Verification
import RadishMemory.Properties.FragmentPartition

/-!
# What verified origin bindings are

The bindings are those of the captured tips, apart from lineages whose deletion is unfinished, and
every active captured file has a valid binding, a complete set of fragments and its capture audit.
-/

namespace RadishMemory

variable [Platform] {db : Database}

/-- What the captured tips ask for. -/
def expectedEntries (db : Database) : List BindingEntry :=
  db.sources.filterMap (expectedBindingOf db)

/-- The bindings are those of the captured tips, apart from lineages that are being deleted. -/
structure BindingsVerified (db : Database) : Prop where
  expectedKeys : UniqueBy Prod.fst (expectedEntries db)
  valid : ∀ entry ∈ expectedEntries db, sourceOriginBindingIdIsValid entry.1.2 = true
  actualKeys : UniqueBy Prod.fst (db.bindings.map bindingEntry)
  kept : ∀ entry ∈ expectedEntries db, entry ∈ db.bindings.map bindingEntry
  asked : ∀ entry ∈ db.bindings.map bindingEntry, entry ∈ expectedEntries db ∨
    belongsToClosedPlan db entry.1.1 entry.2 = true

section Entries

omit [Platform]

theorem lookup_fst_eq_iff {α β : Type} [DecidableEq α] {entries : List (α × β)}
    (h : UniqueBy Prod.fst entries) {entry : α × β} :
    (lookup Prod.fst entries entry.1).map Prod.snd = some entry.2 ↔ entry ∈ entries := by
  rw [Option.map_eq_some_iff]
  constructor
  · rintro ⟨found, hfound, hvalue⟩
    have hkey : found.1 = entry.1 := lookup_key hfound
    rw [← Prod.ext hkey hvalue]
    exact lookup_mem hfound
  · intro hmem
    exact ⟨entry, lookup_of_mem h hmem, rfl⟩

theorem verifyOriginBindingRows_eq_ok_iff :
    verifyOriginBindingRows db = .ok () ↔ BindingsVerified db := by
  simp only [verifyOriginBindingRows, expectedOriginBindings, actualOriginBindings,
    collectUniqueBindings, Except.bind_eq_ok_iff, Except.exists_unit_iff, require_eq_ok_iff,
    Except.pure_eq_ok_iff]
  constructor
  · rintro ⟨_, ⟨_, ⟨hkeys, rfl⟩, hvalid, rfl⟩, _, ⟨hactual, rfl⟩, hkept, hasked⟩
    refine ⟨hkeys, hvalid, hactual, fun entry hentry => ?_, fun entry hentry => ?_⟩
    · exact (lookup_fst_eq_iff hactual).1 (hkept entry hentry)
    · exact (hasked entry hentry).imp_left (lookup_fst_eq_iff hkeys).1
  · rintro ⟨hkeys, hvalid, hactual, hkept, hasked⟩
    refine ⟨_, ⟨_, ⟨hkeys, rfl⟩, hvalid, rfl⟩, _, ⟨hactual, rfl⟩, fun entry hentry => ?_,
      fun entry hentry => ?_⟩
    · exact (lookup_fst_eq_iff hactual).2 (hkept entry hentry)
    · exact (hasked entry hentry).imp_left (lookup_fst_eq_iff hkeys).2

theorem mem_expectedEntries {entry : BindingEntry} : entry ∈ expectedEntries db ↔
    ∃ s ∈ db.sources, s.originKind = .explicitUserInput ∧ s.governance.deletionState = .active ∧
      isNewestVersion db s = true ∧ ∃ originRef, s.originRef = some originRef ∧
        entry = ((s.namespaceId, originRef.asStr), s.lineageId) := by
  simp only [expectedEntries, List.mem_filterMap, expectedBindingOf]
  refine exists_congr fun s => and_congr_right fun _ => ?_
  by_cases h : s.originKind = .explicitUserInput ∧ s.governance.deletionState = .active ∧
      isNewestVersion db s = true
  · rw [if_pos h, Option.map_eq_some_iff]
    simp only [h, true_and]
    exact exists_congr fun originRef => and_congr_right fun _ => eq_comm
  · rw [if_neg h]
    constructor
    · intro hnone
      cases hnone
    · rintro ⟨hexplicit, hactive, hnewest, -⟩
      exact absurd ⟨hexplicit, hactive, hnewest⟩ h

theorem belongsToClosedPlan_iff {namespaceId lineageId : Identifier} :
    belongsToClosedPlan db namespaceId lineageId = true ↔
      ∃ s ∈ db.sources, s.namespaceId = namespaceId ∧ s.lineageId = lineageId ∧
        s.originKind = .explicitUserInput ∧
        (s.governance.deletionState = .pending ∨ s.governance.deletionState = .failed) := by
  simp [belongsToClosedPlan, and_assoc]

theorem mem_activeFragmentRows {sourceId : Identifier} {row : FragmentRow} :
    row ∈ activeFragmentRows db sourceId ↔ row ∈ db.fragments ∧ row.sourceId = sourceId ∧
      row.governance.deletionState = .active := by
  simp [activeFragmentRows]

end Entries

theorem verifyActiveFileCaptures_eq_ok_iff : verifyActiveFileCaptures db = .ok () ↔
    ∀ s ∈ db.sources, s.originKind = .explicitUserInput → s.governance.deletionState = .active →
      verifyActiveFileCapture db s = .ok () := by
  simp only [verifyActiveFileCaptures, checkAll_eq_ok_iff, activeCapturedRows, mem_orderByTexts,
    List.mem_filter, Bool.and_eq_true, beq_iff_eq, and_imp]

/-! ## Captured files -/

/-- What an active captured file keeps beside its row. -/
def CapturedFile (db : Database) (s : SourceRow) : Prop :=
  ∃ originRef source pieces, s.originRef = some originRef ∧
    sourceOriginBindingIdIsValid originRef.asStr = true ∧
    loadSourceArtifact db s.namespaceId s.sourceId = .ok (some source) ∧
    loadFragmentsForSource db source = .ok pieces ∧ IsPartition source pieces ∧
    auditMatches db originRef.toIdentifier source = true

/-- The fragments of a captured file are a partition of it, row by row. -/
theorem CapturedFile.pieces {s : SourceRow} (h : CapturedFile db s) {source : SourceArtifact}
    (hload : loadSourceArtifact db s.namespaceId s.sourceId = .ok (some source)) : ∃ pieces,
      activeFragmentRows db source.params.sourceId =
        pieces.map (fun f => FragmentRow.ofFragment f.params) ∧ IsPartition source pieces := by
  obtain ⟨-, loaded, pieces, -, -, hload', hpieces, hpartition, -⟩ := h
  have hsame := hload.symm.trans hload'
  rw [Except.ok.injEq, Option.some.injEq] at hsame
  subst hsame
  exact ⟨pieces, loadFragmentsForSource_eq_ok hpieces, hpartition⟩

theorem verifyActiveFileCapture_eq_ok_iff (hunique : UniqueBy SourceRow.sourceId db.sources)
    {s : SourceRow} (hs : s ∈ db.sources) (hexplicit : s.originKind = .explicitUserInput) :
    verifyActiveFileCapture db s = .ok () ↔ CapturedFile db s := by
  simp only [verifyActiveFileCapture, validateExistingCapture, Except.bind_eq_ok_iff,
    Except.exists_unit_iff, Option.orError_eq_ok_iff, Except.mapError_eq_ok_iff,
    require_eq_ok_iff, validateCompleteSourceFragmentSet_eq_ok_iff]
  constructor
  · rintro ⟨originRef, horigin, hvalid, _, hload, source, rfl, -, pieces, hpieces, hpartition,
      haudit⟩
    exact ⟨originRef, source, pieces, horigin, hvalid, hload, hpieces, hpartition, haudit⟩
  · rintro ⟨originRef, source, pieces, horigin, hvalid, hload, hpieces, hpartition, haudit⟩
    obtain ⟨row, hlookup, -, -, hrow⟩ := loadSourceArtifact_eq_ok hload
    have hsame : s = SourceRow.ofArtifact source.params := by
      rw [← hrow]
      exact hunique.eq_of_mem hs (lookup_mem hlookup) (lookup_key hlookup).symm
    refine ⟨originRef, horigin, hvalid, _, hload, source, rfl, ⟨?_, ?_⟩, pieces, hpieces,
      hpartition, haudit⟩
    · rw [hsame] at hexplicit
      exact hexplicit
    · rw [hsame] at horigin
      rw [show source.params.originRef = some originRef from horigin]
      rfl

/-- The bindings and the captured files are as a capture leaves them. -/
structure OriginsKept (db : Database) : Prop where
  bindings : BindingsVerified db
  files : ∀ s ∈ db.sources, s.originKind = .explicitUserInput →
    s.governance.deletionState = .active → CapturedFile db s

theorem verifyOriginBindings_eq_ok_iff (hunique : UniqueBy SourceRow.sourceId db.sources) :
    verifyOriginBindings db = .ok () ↔ OriginsKept db := by
  simp only [verifyOriginBindings, Except.bind_eq_ok_iff, Except.exists_unit_iff,
    verifyOriginBindingRows_eq_ok_iff, verifyActiveFileCaptures_eq_ok_iff]
  constructor
  · rintro ⟨hbindings, hfiles⟩
    exact ⟨hbindings, fun s hs hexplicit hactive =>
      (verifyActiveFileCapture_eq_ok_iff hunique hs hexplicit).1 (hfiles s hs hexplicit hactive)⟩
  · rintro ⟨hbindings, hfiles⟩
    exact ⟨hbindings, fun s hs hexplicit hactive =>
      (verifyActiveFileCapture_eq_ok_iff hunique hs hexplicit).2 (hfiles s hs hexplicit hactive)⟩

end RadishMemory
