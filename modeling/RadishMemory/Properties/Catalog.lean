import RadishMemory.Properties.FileLineages
import RadishMemory.Properties.TimestampOrder
import RadishMemory.Construction.Samples

/-!
# The pages of the source catalog

A page of lineages is a slice of one list that depends neither on the page nor on the order in
which the tips are read.  The list is sorted by two keys and names every lineage with a tip once,
with as many versions as the listing of its versions reports.

The reading refuses a tip that is not a captured file, and with it every page of the namespace;
nothing else in a verified library makes it fail.
-/

namespace RadishMemory

/-! ## Slices -/

section Slices

variable {α : Type}

theorem pageStart_le (usizeMax offset length : Nat) : pageStart usizeMax offset length ≤ length :=
  Nat.min_le_right _ _

theorem pageEnd_le (usizeMax start limit length : Nat) :
    pageEnd usizeMax start limit length ≤ length :=
  Nat.min_le_right _ _

/-- The range of a page never runs backwards. -/
theorem pageStart_le_pageEnd {usizeMax length : Nat} (h : length ≤ usizeMax)
    (offset limit : Nat) : pageStart usizeMax offset length ≤
      pageEnd usizeMax (pageStart usizeMax offset length) limit length := by
  have hstart := pageStart_le usizeMax offset length
  unfold pageEnd
  omega

theorem pageSlice_eq {usizeMax : Nat} {list : List α} (h : list.length ≤ usizeMax)
    (offset limit : Nat) :
    pageSlice usizeMax list offset limit = (list.drop offset).take limit := by
  have hstart : min (pageStart usizeMax offset list.length) list.length =
      min offset list.length := by
    unfold pageStart
    split
    · omega
    · omega
  have hdrop : list.drop (pageStart usizeMax offset list.length) = list.drop offset :=
    List.drop_eq_drop_iff.2 hstart
  unfold pageSlice
  rw [List.drop_take, hdrop, List.take_eq_take_iff, List.length_drop]
  unfold pageEnd
  omega

theorem flatMap_pages (list : List α) (limit k : Nat) :
    (List.range k).flatMap (fun page => (list.drop (page * limit)).take limit) =
      list.take (k * limit) := by
  induction k with
  | zero => simp
  | succ k ih => simp [List.range_succ, ih, Nat.add_mul, List.take_add]

end Slices

/-! ## Order -/

theorem Timestamp.lt_of_le_of_lt {a b c : Timestamp} (hab : a ≤ b) (hbc : b < c) : a < c := by
  by_contra hac
  exact Timestamp.not_lt.2 (Timestamp.le_trans (Timestamp.not_lt.1 hac) hab) hbc

theorem Timestamp.lt_of_lt_of_le {a b c : Timestamp} (hab : a < b) (hbc : b ≤ c) : a < c := by
  by_contra hac
  exact Timestamp.not_lt.2 (Timestamp.le_trans hbc (Timestamp.not_lt.1 hac)) hab

theorem Timestamp.le_of_lt {a b : Timestamp} (hab : a < b) : a ≤ b := by
  rcases Timestamp.le_total a b with hle | hle
  · exact hle
  · exact absurd hab (Timestamp.not_lt.2 hle)

theorem summaryBefore_total (a b : SourceLineageSummary) :
    summaryBefore a b ∨ summaryBefore b a := by
  unfold summaryBefore
  by_cases hab : a.capturedAt < b.capturedAt
  · exact .inr (.inl hab)
  · by_cases hba : b.capturedAt < a.capturedAt
    · exact .inl (.inl hba)
    · rcases String.le_total a.lineageId.asStr b.lineageId.asStr with hle | hle
      · exact .inl (.inr ⟨hab, hle⟩)
      · exact .inr (.inr ⟨hba, hle⟩)

theorem summaryBefore_trans {a b c : SourceLineageSummary} (hab : summaryBefore a b)
    (hbc : summaryBefore b c) : summaryBefore a c := by
  unfold summaryBefore at hab hbc ⊢
  simp only [Timestamp.not_lt] at hab hbc ⊢
  rcases hab with hab | ⟨hab, hlineage⟩
  · rcases hbc with hbc | ⟨hbc, -⟩
    · exact .inl (Timestamp.lt_of_lt_of_le hbc (Timestamp.le_of_lt hab))
    · exact .inl (Timestamp.lt_of_le_of_lt hbc hab)
  · rcases hbc with hbc | ⟨hbc, hlineage'⟩
    · exact .inl (Timestamp.lt_of_lt_of_le hbc hab)
    · exact .inr ⟨Timestamp.le_trans hbc hab, String.le_trans hlineage hlineage'⟩

instance summaryBefore_isTotal : Std.Total summaryBefore :=
  ⟨summaryBefore_total⟩

instance summaryBefore_isTrans : IsTrans SourceLineageSummary summaryBefore :=
  ⟨fun _ _ _ => summaryBefore_trans⟩

/-- The order a reader sees: later captures first, and at one instant by lineage. -/
def SourceLineageSummary.Precedes (a b : SourceLineageSummary) : Prop :=
  b.capturedAt < a.capturedAt ∨
    ((a.capturedAt == b.capturedAt) = true ∧ a.lineageId.asStr < b.lineageId.asStr)

theorem precedes_of_summaryBefore {a b : SourceLineageSummary} (h : summaryBefore a b)
    (hne : a.lineageId ≠ b.lineageId) : a.Precedes b := by
  by_cases hlt : b.capturedAt < a.capturedAt
  · exact .inl hlt
  · obtain hlt' | ⟨hnot, hle⟩ := h
    · exact absurd hlt' hlt
    · refine .inr ⟨Timestamp.beq_of_le_of_le (Timestamp.not_lt.1 hlt) (Timestamp.not_lt.1 hnot),
        Std.lt_of_le_of_ne hle fun heq => hne (Identifier.ext_asStr heq)⟩

/-- Sorted by the two keys, a list of distinct lineages has one order. -/
theorem eq_of_perm_of_sorted {l l' : List SourceLineageSummary}
    (hnodup : (l.map SourceLineageSummary.lineageId).Nodup) (hperm : l.Perm l')
    (h : l.Pairwise summaryBefore) (h' : l'.Pairwise summaryBefore) : l = l' := by
  refine List.Perm.eq_of_pairwise (fun a b ha hb hab hba => ?_) h h' hperm
  refine List.inj_on_of_nodup_map hnodup ha (hperm.mem_iff.2 hb) ?_
  rcases hab with hlt | ⟨hnot, hle⟩
  · rcases hba with hlt' | ⟨hnot', -⟩
    · exact absurd hlt' (Timestamp.not_lt.2 (Timestamp.le_of_lt hlt))
    · exact absurd hlt hnot'
  · rcases hba with hlt' | ⟨-, hle'⟩
    · exact absurd hlt' hnot
    · exact Identifier.ext_asStr (String.le_antisymm hle hle')

/-- The rows of a lineage by version. -/
theorem versions_sorted (rows : List SourceRow) :
    (rows.insertionSort fun a b => a.version.get < b.version.get ∨
      (a.version.get = b.version.get ∧ a.sourceId.asStr ≤ b.sourceId.asStr)).Pairwise
      fun a b => a.version.get ≤ b.version.get := by
  have htotal : Std.Total fun a b : SourceRow => a.version.get < b.version.get ∨
      (a.version.get = b.version.get ∧ a.sourceId.asStr ≤ b.sourceId.asStr) := by
    refine ⟨fun a b => ?_⟩
    rcases lt_trichotomy a.version.get b.version.get with hlt | heq | hlt
    · exact .inl (.inl hlt)
    · rcases String.le_total a.sourceId.asStr b.sourceId.asStr with hle | hle
      · exact .inl (.inr ⟨heq, hle⟩)
      · exact .inr (.inr ⟨heq.symm, hle⟩)
    · exact .inr (.inl hlt)
  have htrans : IsTrans SourceRow fun a b => a.version.get < b.version.get ∨
      (a.version.get = b.version.get ∧ a.sourceId.asStr ≤ b.sourceId.asStr) := by
    refine ⟨fun a b c hab hbc => ?_⟩
    rcases hab with hab | ⟨hab, hid⟩
    · exact .inl (by omega)
    · rcases hbc with hbc | ⟨hbc, hid'⟩
      · exact .inl (by omega)
      · exact .inr ⟨hab.trans hbc, String.le_trans hid hid'⟩
  refine (List.pairwise_insertionSort _ rows).imp ?_
  rintro a b (hlt | ⟨heq, -⟩)
  · exact hlt.le
  · exact heq.le

variable [Platform] {db : Database}

/-! ## The lineage of a captured tip -/

/-- A state some run reached, whose verification passes. -/
structure VerifiedLibrary (db : Database) : Prop where
  reached : ∃ ops, db = runOps .empty ops
  verified : verifyRecallDerivations db = .ok ()

namespace VerifiedLibrary

theorem bindings (h : VerifiedLibrary db) : verifyOriginBindings db = .ok () := by
  have hverify := h.verified
  simp only [verifyRecallDerivations, Except.bind_eq_ok_iff, Except.exists_unit_iff] at hverify
  exact hverify.1

theorem derived (h : VerifiedLibrary db) : verifyDerivedIndex db = .ok () := by
  have hverify := h.verified
  simp only [verifyRecallDerivations, Except.bind_eq_ok_iff, Except.exists_unit_iff] at hverify
  exact hverify.2

theorem lineages (h : VerifiedLibrary db) : FileLineages db := by
  obtain ⟨ops, rfl⟩ := h.reached
  exact fileLineages_of_run ops

end VerifiedLibrary

/-- The verification loaded every active captured file. -/
theorem loads_of_verified (hids : UniqueBy SourceRow.sourceId db.sources)
    (h : verifyOriginBindings db = .ok ()) {s : SourceRow} (hs : s ∈ db.sources)
    (hexplicit : s.originKind = .explicitUserInput)
    (hactive : s.governance.deletionState = .active) :
    ∃ source, loadSourceArtifact db s.namespaceId s.sourceId = .ok (some source) ∧
      SourceRow.ofArtifact source.params = s := by
  simp only [verifyOriginBindings, verifyActiveFileCaptures, Except.bind_eq_ok_iff,
    Except.exists_unit_iff, checkAll_eq_ok_iff] at h
  have hrow : s ∈ activeCapturedRows db := by
    simp [activeCapturedRows, mem_orderByTexts, hs, hexplicit, hactive]
  have hcapture := h.2 s hrow
  simp only [verifyActiveFileCapture, Except.bind_eq_ok_iff, Except.exists_unit_iff,
    require_eq_ok_iff, Option.orError_eq_ok_iff] at hcapture
  obtain ⟨-, -, -, loaded, hload, source, rfl, -⟩ := hcapture
  obtain ⟨row, hlookup, -, -, rfl⟩ := loadSourceArtifact_eq_ok hload
  exact ⟨source, hload, UniqueBy.eq_of_mem hids (lookup_mem hlookup) hs (lookup_key hlookup)⟩

/-- The row behind a tip, when the tip is a captured file. -/
structure CapturedTip (db : Database) (s : SourceRow) : Prop where
  mem : s ∈ db.sources
  captured : s.originKind = .explicitUserInput
  active : s.governance.deletionState = .active
  newest : isNewestVersion db s = true

namespace CapturedTip

variable {s : SourceRow}

omit [Platform] in
/-- Every version of the lineage is an active captured file. -/
theorem open_version (h : CapturedTip db s) (hlib : FileLineages db) {t : SourceRow}
    (ht : t ∈ db.sources) (hsame : SameLineage s t) :
    t.originKind = .explicitUserInput ∧ t.governance.deletionState = .active := by
  have hcaptured := hlib.captured s h.mem h.captured h.newest t ht hsame
  refine ⟨hcaptured, ?_⟩
  by_contra hclosed
  obtain ⟨D, hfrozen⟩ := hlib.closed t ht hcaptured hclosed
  exact (hlib.library.closedLineages D t ht hfrozen).2 s h.mem hsame.1.symm hsame.2.symm h.active

omit [Platform] in
theorem mem_activeVersions {t : SourceRow} : t ∈ activeVersions db s.namespaceId s.lineageId ↔
    t ∈ db.sources ∧ SameLineage s t ∧ t.governance.deletionState = .active := by
  simp [activeVersions, SameLineage, and_assoc]

omit [Platform] in
/-- The active versions are numbered from one up to the tip. -/
theorem versions (h : CapturedTip db s) (hlib : FileLineages db) :
    ((activeVersions db s.namespaceId s.lineageId).map fun t => t.version.get).Perm
      (List.range' 1 s.version.get) := by
  rw [List.perm_ext_iff_of_nodup ?_ List.nodup_range']
  · intro k
    rw [List.mem_map, List.mem_range'_1]
    constructor
    · rintro ⟨t, ht, rfl⟩
      obtain ⟨ht, hsame, -⟩ := mem_activeVersions.1 ht
      have hle := isNewestVersion_iff.1 h.newest t ht hsame
      have hpos := t.version.positive
      omega
    · rintro ⟨hone, hk⟩
      obtain ⟨p, hp, hsame, hversion⟩ := hlib.numbered.below s h.mem k hone (by omega)
      exact ⟨p, mem_activeVersions.2 ⟨hp, hsame, (h.open_version hlib hp hsame).2⟩, hversion⟩
  · -- Within the lineage the version alone is a key.
    refine List.Nodup.of_map (fun k => (s.namespaceId, s.lineageId, k)) ?_
    rw [List.map_map]
    have hkeys : (activeVersions db s.namespaceId s.lineageId).map SourceRow.versionKey =
        (activeVersions db s.namespaceId s.lineageId).map
          ((fun k => (s.namespaceId, s.lineageId, k)) ∘ fun t => t.version.get) := by
      refine List.map_congr_left fun t ht => ?_
      obtain ⟨-, ⟨hns, hlineage⟩, -⟩ := mem_activeVersions.1 ht
      exact Prod.ext hns (Prod.ext hlineage rfl)
    rw [← hkeys]
    exact hlib.library.constraints.sourceVersions.filter

end CapturedTip

/-! ## Listing -/

/-- What the listing makes of one tip. -/
def lineageSummary (db : Database) (namespaceId : Identifier) (tip : TipRow) :
    Except SqliteError SourceLineageSummary := do
  let source ← (← loadSourceArtifact db namespaceId tip.sourceId).orError lineageTipMismatch
  let count := (activeVersions db namespaceId source.params.lineageId).length
  (SourceLineageSummary.fromCurrentSource source count).mapError invalidCatalog

theorem listSourceLineages_eq (db : Database) (request : SourceCatalogRequest) :
    listSourceLineages db request = (do
      verifyOriginBindings db
      let summaries ← (db.tips.filter (·.namespaceId == request.namespaceId)).mapM
        (lineageSummary db request.namespaceId)
      return ((summaries.insertionSort summaryBefore).drop request.offset).take
        request.limit) :=
  rfl

theorem lineageSummary_eq_ok {namespaceId : Identifier} {tip : TipRow}
    {summary : SourceLineageSummary} (h : lineageSummary db namespaceId tip = .ok summary) :
    ∃ source, loadSourceArtifact db namespaceId tip.sourceId = .ok (some source) ∧
      source.params.originKind = .explicitUserInput := by
  simp only [lineageSummary, SourceLineageSummary.fromCurrentSource, Except.bind_eq_ok_iff,
    Except.exists_unit_iff, Except.mapError_eq_ok_iff, Option.orError_eq_ok_iff,
    require_eq_ok_iff] at h
  obtain ⟨loaded, hload, source, rfl, ⟨hcaptured, -, -⟩, -⟩ := h
  exact ⟨source, hload, hcaptured⟩

theorem loadVersionSummary_current {namespaceId lineageId currentSourceId : Identifier}
    {row : SourceRow} {expectedVersion : Nat} {summary : SourceVersionSummary}
    (h : loadVersionSummary loadSourceArtifact db namespaceId lineageId currentSourceId row
      expectedVersion = .ok summary) : summary.current = (row.sourceId == currentSourceId) := by
  simp only [loadVersionSummary, SourceVersionSummary.fromSource, Except.bind_eq_ok_iff,
    Except.exists_unit_iff, Except.mapError_eq_ok_iff, Except.pure_eq_ok_iff] at h
  obtain ⟨-, -, -, source, -, -, -, rfl⟩ := h
  rfl

namespace CapturedTip

variable {s : SourceRow}

theorem summary (h : CapturedTip db s) (hlib : FileLineages db)
    (hverified : verifyOriginBindings db = .ok ()) :
    ∃ summary, lineageSummary db s.namespaceId (TipRow.ofSource s) = .ok summary ∧
      summary.lineageId = s.lineageId ∧ summary.versionCount = s.version.get := by
  obtain ⟨source, hload, rfl⟩ := loads_of_verified hlib.library.constraints.sourceIds hverified
    h.mem h.captured h.active
  have hcount : (activeVersions db source.params.namespaceId source.params.lineageId).length =
      source.params.version.get := by
    have hlength := (h.versions hlib).length_eq
    rw [List.length_map, List.length_range'] at hlength
    exact hlength
  simp only [lineageSummary, SourceLineageSummary.fromCurrentSource, Except.bind_eq_ok_iff,
    Except.exists_unit_iff, Except.mapError_eq_ok_iff, Option.orError_eq_ok_iff,
    require_eq_ok_iff, Except.pure_eq_ok_iff]
  exact ⟨_, ⟨some source, hload, source, rfl, ⟨h.captured, h.active, hcount⟩, rfl⟩, rfl, hcount⟩

/-- The other query finds the same versions. -/
theorem listed_versions (h : CapturedTip db s) (hlib : FileLineages db)
    (hverified : verifyOriginBindings db = .ok ())
    (htip : lineageTip db s.namespaceId s.lineageId = some (TipRow.ofSource s)) :
    ∃ versions, listSourceVersions db s.namespaceId s.lineageId = .ok versions ∧
      versions.length = s.version.get := by
  have hids := hlib.library.constraints.sourceIds
  simp only [listSourceVersions, listSourceVersionsWith, htip, hverified, Except.bind_eq_ok_iff,
    Except.exists_unit_iff, Except.pure_eq_ok_iff, require_eq_ok_iff, true_and]
  obtain ⟨rows, hrows⟩ : ∃ rows, (activeVersions db s.namespaceId s.lineageId).insertionSort
      (fun a b => a.version.get < b.version.get ∨
        (a.version.get = b.version.get ∧ a.sourceId.asStr ≤ b.sourceId.asStr)) = rows := ⟨_, rfl⟩
  rw [hrows]
  have hperm : rows.Perm (activeVersions db s.namespaceId s.lineageId) := by
    rw [← hrows]
    exact List.perm_insertionSort _ _
  have hsorted : (rows.map fun t => t.version.get).Pairwise (· ≤ ·) := by
    rw [List.pairwise_map, ← hrows]
    exact versions_sorted _
  have hnumbers : (rows.map fun t => t.version.get) = List.range' 1 s.version.get :=
    List.Perm.eq_of_pairwise (fun _ _ _ _ => le_antisymm) hsorted
      ((List.pairwise_lt_range').imp fun h => h.le)
      ((hperm.map _).trans (h.versions hlib))
  have hlength : rows.length = s.version.get := by
    simpa using congrArg List.length hnumbers
  -- Every row is an active captured file with the expected number.
  have hload : ∀ x ∈ rows.zipIdx, ∃ summary, loadVersionSummary loadSourceArtifact db
      s.namespaceId s.lineageId s.sourceId x.1 (x.2 + 1) = .ok summary := by
    rintro ⟨t, i⟩ hx
    have hget : rows[i]? = some t := List.mem_zipIdx_iff_getElem?.1 hx
    have hmem : t ∈ rows := List.mem_of_getElem? hget
    obtain ⟨ht, hsame, hactive⟩ := mem_activeVersions.1 (hperm.mem_iff.1 hmem)
    have hversion : t.version.get = i + 1 := by
      have hat := congrArg (·[i]?) hnumbers
      have hlt : i < s.version.get := by
        rw [← hlength]
        exact (List.getElem?_eq_some_iff.1 hget).1
      simp only [List.getElem?_map, hget, Option.map_some, List.getElem?_range' hlt,
        Option.some.injEq] at hat
      omega
    obtain ⟨source, hsource, rfl⟩ := loads_of_verified hids hverified ht
      (h.open_version hlib ht hsame).1 hactive
    have hns : source.params.namespaceId = s.namespaceId := hsame.1
    rw [show (SourceRow.ofArtifact source.params).namespaceId = s.namespaceId from hns] at hsource
    simp only [loadVersionSummary, SourceVersionSummary.fromSource, Except.bind_eq_ok_iff,
      Except.exists_unit_iff, Except.mapError_eq_ok_iff, Option.orError_eq_ok_iff,
      require_eq_ok_iff, Except.pure_eq_ok_iff]
    exact ⟨_, hversion, some source, hsource, source, rfl, ⟨hsame.2, hversion⟩,
      ⟨(h.open_version hlib ht hsame).1, hactive⟩, rfl⟩
  obtain ⟨versions, hversions⟩ := List.exists_mapM_eq_ok hload
  have hcurrent : versions.map (·.current) = rows.map fun t => t.sourceId == s.sourceId := by
    rw [List.map_eq_of_mapM hversions fun x _ b hb => loadVersionSummary_current hb]
    conv_rhs => rw [← List.zipIdx_map_fst 0 rows, List.map_map]
    rfl
  have hlengths : versions.length = s.version.get := by
    rw [← hlength]
    simpa using congrArg List.length hcurrent
  have hone : versions.countP (·.current) = 1 := by
    have hcount := congrArg (List.countP id) hcurrent
    rw [List.countP_map, List.countP_map] at hcount
    change versions.countP (·.current) = rows.countP (fun t => t.sourceId == s.sourceId) at hcount
    have hmem : s ∈ activeVersions db s.namespaceId s.lineageId :=
      mem_activeVersions.2 ⟨h.mem, ⟨rfl, rfl⟩, h.active⟩
    have hkept : UniqueBy SourceRow.sourceId (activeVersions db s.namespaceId s.lineageId) :=
      UniqueBy.filter hids
    rw [hcount, hperm.countP_eq, List.countP_eq_length_filter, hkept.filter_eq_singleton hmem]
    rfl
  refine ⟨versions, ⟨versions, hversions, ⟨?_, hone⟩, rfl⟩, hlengths⟩
  rintro rfl
  have hpos := s.version.positive
  rw [← hlengths] at hpos
  exact absurd hpos (by simp)

end CapturedTip

/-! ## Pages -/

omit [Platform] in
/-- The current version of every lineage of the namespace is a captured file. -/
def CapturedTips (db : Database) (namespaceId : Identifier) : Prop :=
  ∀ s ∈ db.sources, TipRow.ofSource s ∈ db.tips → s.namespaceId = namespaceId →
    s.originKind = .explicitUserInput

/-- The pages of a namespace are the slices of one sorted list of its lineages. -/
structure CatalogPages (db : Database) (namespaceId : Identifier)
    (all : List SourceLineageSummary) : Prop where
  slices : ∀ (request : SourceCatalogRequest) usizeMax, request.namespaceId = namespaceId →
    all.length ≤ usizeMax →
    listSourceLineages db request =
        .ok (pageSlice usizeMax all request.offset request.limit) ∧
      pageSlice usizeMax all request.offset request.limit =
        (all.drop request.offset).take request.limit ∧
      pageStart usizeMax request.offset all.length ≤ pageEnd usizeMax
        (pageStart usizeMax request.offset all.length) request.limit all.length ∧
      pageEnd usizeMax (pageStart usizeMax request.offset all.length) request.limit
        all.length ≤ all.length
  concatenation : ∀ limit (hlimit : limit ≠ 0) k, all.length ≤ k * limit →
    ∃ pages, (List.range k).mapM (fun page => listSourceLineages db
        { namespaceId, offset := page * limit, limit, limitPositive := hlimit }) = .ok pages ∧
      pages.flatten = all
  sorted : all.Pairwise SourceLineageSummary.Precedes
  once : (all.map SourceLineageSummary.lineageId).Nodup
  lineages : ∀ lineageId, lineageId ∈ all.map SourceLineageSummary.lineageId ↔
    ∃ s ∈ db.sources, s.governance.deletionState = .active ∧ TipRow.ofSource s ∈ db.tips ∧
      s.namespaceId = namespaceId ∧ s.lineageId = lineageId
  anyRowOrder : ∀ tips, tips.Perm db.tips → ∀ request : SourceCatalogRequest,
    request.namespaceId = namespaceId →
    listSourceLineages { db with tips } request = listSourceLineages db request
  versions : ∀ summary ∈ all, ∃ versions,
    listSourceVersions db namespaceId summary.lineageId = .ok versions ∧
      versions.length = summary.versionCount

/-- The summaries of a namespace, in the order of its tips. -/
structure TipSummaries (db : Database) (namespaceId : Identifier)
    (summaries : List SourceLineageSummary) : Prop where
  read : (db.tips.filter (·.namespaceId == namespaceId)).mapM (lineageSummary db namespaceId) =
    .ok summaries
  lineages : summaries.map SourceLineageSummary.lineageId =
    (db.tips.filter (·.namespaceId == namespaceId)).map TipRow.lineageId
  once : (summaries.map SourceLineageSummary.lineageId).Nodup
  tip : ∀ summary ∈ summaries, ∃ s, CapturedTip db s ∧ TipRow.ofSource s ∈ db.tips ∧
    s.namespaceId = namespaceId ∧ s.lineageId = summary.lineageId ∧
    s.version.get = summary.versionCount

namespace TipSummaries

variable {namespaceId : Identifier} {summaries : List SourceLineageSummary}

theorem of_captured (h : VerifiedLibrary db) (hcaptured : CapturedTips db namespaceId) :
    ∃ summaries, TipSummaries db namespaceId summaries := by
  have hlib := h.lineages
  have hrow : ∀ tip ∈ db.tips.filter (·.namespaceId == namespaceId), ∃ s, CapturedTip db s ∧
      TipRow.ofSource s = tip ∧ tip ∈ db.tips ∧ s.namespaceId = namespaceId := by
    intro tip htip
    obtain ⟨hmem, hns⟩ := List.mem_filter.1 htip
    obtain ⟨s, hs, hactive, hnewest, rfl⟩ := (verifyDerivedIndex_tips h.derived tip).1 hmem
    have hns' : s.namespaceId = namespaceId := beq_iff_eq.1 hns
    exact ⟨s, ⟨hs, hcaptured s hs hmem hns', hactive, hnewest⟩, rfl, hmem, hns'⟩
  have hsummary : ∀ tip ∈ db.tips.filter (·.namespaceId == namespaceId), ∃ summary,
      lineageSummary db namespaceId tip = .ok summary ∧ summary.lineageId = tip.lineageId ∧
        summary.versionCount = tip.version := by
    intro tip htip
    obtain ⟨s, hs, rfl, -, rfl⟩ := hrow tip htip
    exact hs.summary hlib h.bindings
  obtain ⟨summaries, hread⟩ := List.exists_mapM_eq_ok fun tip htip =>
    (hsummary tip htip).imp fun _ hok => hok.1
  have hlineages : summaries.map SourceLineageSummary.lineageId =
      (db.tips.filter (·.namespaceId == namespaceId)).map TipRow.lineageId := by
    refine List.map_eq_of_mapM hread fun tip htip b hb => ?_
    obtain ⟨summary, hok, hlineage, -⟩ := hsummary tip htip
    rw [hok] at hb
    cases hb
    exact hlineage
  refine ⟨summaries, hread, hlineages, ?_, ?_⟩
  · rw [hlineages]
    refine List.Nodup.of_map (fun lineageId => (namespaceId, lineageId)) ?_
    have hkeys : (db.tips.filter (·.namespaceId == namespaceId)).map TipRow.key =
        ((db.tips.filter (·.namespaceId == namespaceId)).map TipRow.lineageId).map
          fun lineageId => (namespaceId, lineageId) := by
      rw [List.map_map]
      refine List.map_congr_left fun tip htip => ?_
      exact Prod.ext (beq_iff_eq.1 (List.mem_filter.1 htip).2) rfl
    rw [← hkeys]
    exact UniqueBy.filter hlib.library.constraints.tipKeys
  · intro summary hmem
    obtain ⟨tip, htip, hok⟩ := (List.mapM_eq_ok_iff.1 hread).exists_of_mem_right hmem
    obtain ⟨summary', hok', hlineage, hversion⟩ := hsummary tip htip
    rw [hok] at hok'
    cases hok'
    obtain ⟨s, hs, rfl, hmem', hns⟩ := hrow tip htip
    exact ⟨s, hs, hmem', hns, hlineage.symm, hversion.symm⟩

/-- Every page is a slice of the sorted summaries. -/
theorem page (h : TipSummaries db namespaceId summaries)
    (hverified : verifyOriginBindings db = .ok ()) (request : SourceCatalogRequest)
    (hns : request.namespaceId = namespaceId) : listSourceLineages db request =
      .ok (((summaries.insertionSort summaryBefore).drop request.offset).take request.limit) := by
  subst hns
  rw [listSourceLineages_eq, hverified, h.read]
  rfl

/-- Another order of the tips gives the same pages. -/
theorem page_of_perm (h : TipSummaries db namespaceId summaries)
    (hverified : verifyOriginBindings db = .ok ()) {tips : List TipRow}
    (hperm : tips.Perm db.tips) (request : SourceCatalogRequest)
    (hns : request.namespaceId = namespaceId) :
    listSourceLineages { db with tips } request = listSourceLineages db request := by
  rw [h.page hverified request hns]
  subst hns
  obtain ⟨summaries', hread, hperm'⟩ := List.perm_comp_forall₂
    (hperm.filter (·.namespaceId == request.namespaceId)) (List.mapM_eq_ok_iff.1 h.read)
  have hsame : summaries'.insertionSort summaryBefore = summaries.insertionSort summaryBefore := by
    have hsorted : (summaries'.insertionSort summaryBefore).Perm
        (summaries.insertionSort summaryBefore) :=
      (List.perm_insertionSort _ _).trans (hperm'.trans (List.perm_insertionSort _ _).symm)
    refine eq_of_perm_of_sorted ?_ hsorted (List.pairwise_insertionSort _ _)
      (List.pairwise_insertionSort _ _)
    exact ((((List.perm_insertionSort _ _).trans hperm').map _).nodup_iff).2 h.once
  rw [listSourceLineages_eq]
  rw [show verifyOriginBindings { db with tips } = .ok () from hverified]
  rw [show (({ db with tips } : Database).tips.filter
      (·.namespaceId == request.namespaceId)).mapM
      (lineageSummary { db with tips } request.namespaceId) = .ok summaries' from
    List.mapM_eq_ok_iff.2 hread]
  rw [← hsame]
  rfl

theorem pages (h : TipSummaries db namespaceId summaries) (hlibrary : VerifiedLibrary db) :
    CatalogPages db namespaceId (summaries.insertionSort summaryBefore) := by
  have hpage := h.page hlibrary.bindings
  have hperm := List.perm_insertionSort summaryBefore summaries
  have honce := ((hperm.map SourceLineageSummary.lineageId).nodup_iff).2 h.once
  refine ⟨?_, ?_, ?_, honce, ?_, fun tips => h.page_of_perm hlibrary.bindings, ?_⟩
  · intro request usizeMax hns hfits
    have hslice := pageSlice_eq hfits request.offset request.limit
    exact ⟨by rw [hslice, hpage request hns], hslice, pageStart_le_pageEnd hfits _ _,
      pageEnd_le _ _ _ _⟩
  · intro limit hlimit k hk
    refine ⟨_, List.mapM_ok_of_forall fun page _ => hpage _ rfl, ?_⟩
    rw [← List.flatMap_def, flatMap_pages, List.take_of_length_le hk]
  · have hlineages : (summaries.insertionSort summaryBefore).Pairwise
        fun a b => a.lineageId ≠ b.lineageId := List.pairwise_map.1 honce
    exact ((List.pairwise_insertionSort summaryBefore summaries).and hlineages).imp
      fun hab => precedes_of_summaryBefore hab.1 hab.2
  · intro lineageId
    rw [(hperm.map SourceLineageSummary.lineageId).mem_iff, h.lineages]
    simp only [List.mem_map, List.mem_filter, beq_iff_eq]
    constructor
    · rintro ⟨tip, ⟨hmem, hns⟩, rfl⟩
      obtain ⟨s, hs, hactive, -, rfl⟩ :=
        (verifyDerivedIndex_tips hlibrary.derived tip).1 hmem
      exact ⟨s, hs, hactive, hmem, hns, rfl⟩
    · rintro ⟨s, -, -, htip, hns, rfl⟩
      exact ⟨_, ⟨htip, hns⟩, rfl⟩
  · intro summary hmem
    obtain ⟨s, hs, htip, rfl, hlineage, hversion⟩ := h.tip summary (hperm.mem_iff.1 hmem)
    rw [← hlineage, ← hversion]
    refine hs.listed_versions hlibrary.lineages hlibrary.bindings ?_
    exact lookup_of_mem hlibrary.lineages.library.constraints.tipKeys htip

end TipSummaries

/-- A page that is given shows that every tip was captured. -/
theorem capturedTips_of_page (h : VerifiedLibrary db) {request : SourceCatalogRequest}
    {page : List SourceLineageSummary} (hpage : listSourceLineages db request = .ok page) :
    CapturedTips db request.namespaceId := by
  intro s hs htip hns
  rw [listSourceLineages_eq] at hpage
  simp only [Except.bind_eq_ok_iff, Except.exists_unit_iff] at hpage
  obtain ⟨-, summaries, hread, -⟩ := hpage
  have hmem : TipRow.ofSource s ∈
      db.tips.filter (·.namespaceId == request.namespaceId) :=
    List.mem_filter.2 ⟨htip, beq_iff_eq.2 hns⟩
  obtain ⟨summary, -, hok⟩ := (List.mapM_eq_ok_iff.1 hread).exists_of_mem_left hmem
  obtain ⟨source, hload, hcaptured⟩ := lineageSummary_eq_ok hok
  obtain ⟨row, hlookup, -, -, rfl⟩ := loadSourceArtifact_eq_ok hload
  rw [UniqueBy.eq_of_mem h.lineages.library.constraints.sourceIds hs (lookup_mem hlookup)
    (lookup_key hlookup).symm]
  exact hcaptured

/-- A namespace of captured files is paged; with any other tip every page is refused. -/
theorem captured_lineages_are_paged (db : Database) (h : VerifiedLibrary db)
    (namespaceId : Identifier) :
    (CapturedTips db namespaceId → ∃ all, CatalogPages db namespaceId all) ∧
      (¬ CapturedTips db namespaceId → ∀ request : SourceCatalogRequest,
        request.namespaceId = namespaceId → ∃ e, listSourceLineages db request = .error e) := by
  constructor
  · intro hcaptured
    obtain ⟨summaries, hsummaries⟩ := TipSummaries.of_captured h hcaptured
    exact ⟨_, hsummaries.pages h⟩
  · rintro hother request rfl
    cases hpage : listSourceLineages db request with
    | error e => exact ⟨e, rfl⟩
    | ok page => exact absurd (capturedTips_of_page h hpage) hother

end RadishMemory

namespace RadishMemory

open Sample

/-- A library of one captured file. -/
theorem captured_lineages_are_paged_of_one_file :
    ∃ all, CatalogPages (runOps .empty [captureFirst]) namespaceId all := by
  have hverified : verifyRecallDerivations (runOps .empty [captureFirst]) = .ok () := by
    decide +kernel
  have hcaptured : CapturedTips (runOps .empty [captureFirst]) namespaceId := by
    unfold CapturedTips
    decide +kernel
  exact (captured_lineages_are_paged _ ⟨⟨_, rfl⟩, hverified⟩ namespaceId).1 hcaptured

/-- A verified library with one lineage, whose source is synthetic, has no pages. -/
theorem synthetic_source_is_not_paged :
    VerifiedLibrary (runOps .empty [storeFirst]) ∧
      (∃ s ∈ (runOps .empty [storeFirst]).sources, s.governance.deletionState = .active ∧
        TipRow.ofSource s ∈ (runOps .empty [storeFirst]).tips ∧ s.namespaceId = namespaceId) ∧
      ∀ all, ¬ CatalogPages (runOps .empty [storeFirst]) namespaceId all := by
  have hverified : verifyRecallDerivations (runOps .empty [storeFirst]) = .ok () := by
    decide +kernel
  have hsource : ∃ s ∈ (runOps .empty [storeFirst]).sources,
      s.governance.deletionState = .active ∧
        TipRow.ofSource s ∈ (runOps .empty [storeFirst]).tips ∧ s.namespaceId = namespaceId ∧
          s.originKind ≠ .explicitUserInput := by
    decide +kernel
  obtain ⟨s, hs, hactive, htip, hns, hsynthetic⟩ := hsource
  have hlibrary : VerifiedLibrary (runOps .empty [storeFirst]) := ⟨⟨_, rfl⟩, hverified⟩
  refine ⟨hlibrary, ⟨s, hs, hactive, htip, hns⟩, fun all hpages => hsynthetic ?_⟩
  obtain ⟨hpage, -⟩ := hpages.slices { namespaceId, offset := 0, limit := 1, limitPositive := by simp }
    all.length rfl le_rfl
  exact capturedTips_of_page hlibrary hpage s hs htip hns

end RadishMemory
