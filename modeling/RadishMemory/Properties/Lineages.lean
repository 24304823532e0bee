import RadishMemory.Properties.Effects
import Mathlib.Data.List.MinMax

/-!
# Captured lineages

Captures extend a lineage one version at a time.  The numbering and the supersedes relation of the
sources are facts about the columns of a source that no deletion rewrites (`Numbered`).  Tips and
bindings are compared with the rows by the verification at the end of each transaction, and the
components of an execution keep what it found.
-/

namespace RadishMemory

variable [Platform] {db db' : Database}

section Rows

omit [Platform]

/-- The lineage and the number of a source are never rewritten. -/
def SourceRow.position (row : SourceRow) : Identifier × Identifier × Identifier × Nat :=
  (row.sourceId, row.versionKey)

def SameLineage (s t : SourceRow) : Prop :=
  t.namespaceId = s.namespaceId ∧ t.lineageId = s.lineageId

theorem position_eq_iff {s t : SourceRow} : s.position = t.position ↔
    s.sourceId = t.sourceId ∧ SameLineage t s ∧ s.version.get = t.version.get := by
  simp [SourceRow.position, SourceRow.versionKey, SameLineage, and_assoc]

theorem isNewestVersion_iff {s : SourceRow} :
    isNewestVersion db s = true ↔
      ∀ t ∈ db.sources, SameLineage s t → t.version.get ≤ s.version.get := by
  unfold isNewestVersion SameLineage
  rw [List.all_eq_true]
  refine forall₂_congr fun t _ => ?_
  rw [Bool.not_eq_true', Bool.and_eq_false_iff, Bool.and_eq_false_iff, beq_eq_false_iff_ne,
    beq_eq_false_iff_ne, decide_eq_false_iff_not, not_lt]
  constructor
  · rintro ((hns | hlineage) | hle) ⟨hns', hlineage'⟩
    · exact absurd hns' hns
    · exact absurd hlineage' hlineage
    · exact hle
  · intro h
    by_cases hns : t.namespaceId = s.namespaceId
    · by_cases hlineage : t.lineageId = s.lineageId
      · exact .inr (h ⟨hns, hlineage⟩)
      · exact .inl (.inr hlineage)
    · exact .inl (.inl hns)

theorem isNewestVersion_relabel {f : SourceRow → SourceRow}
    (hsources : db'.sources = db.sources.map f) (hf : ∀ s, (f s).position = s.position)
    (s : SourceRow) : isNewestVersion db' (f s) = true ↔ isNewestVersion db s = true := by
  rw [isNewestVersion_iff, isNewestVersion_iff, hsources, List.forall_mem_map]
  refine forall₂_congr fun t _ => ?_
  obtain ⟨-, ⟨hns, hlineage⟩, hversion⟩ := position_eq_iff.1 (hf s)
  obtain ⟨-, ⟨hns', hlineage'⟩, hversion'⟩ := position_eq_iff.1 (hf t)
  unfold SameLineage
  rw [hns, hlineage, hversion, hns', hlineage', hversion']

/-- A lineage with a source has a newest one. -/
theorem exists_newest {s : SourceRow} (hs : s ∈ db.sources) :
    ∃ t ∈ db.sources, SameLineage s t ∧ isNewestVersion db t = true := by
  classical
  have hmem : s ∈ db.sources.filter fun t => decide (SameLineage s t) :=
    List.mem_filter.2 ⟨hs, decide_eq_true ⟨rfl, rfl⟩⟩
  obtain ⟨t, ht⟩ : ∃ t, (db.sources.filter fun t => decide (SameLineage s t)).argmax
      (fun t => t.version.get) = some t := by
    rw [← Option.isSome_iff_exists, Option.isSome_iff_ne_none, Ne, List.argmax_eq_none]
    exact List.ne_nil_of_mem hmem
  obtain ⟨htmem, hlineage⟩ := List.mem_filter.1 (List.argmax_mem ht)
  have hlineage' : SameLineage s t := of_decide_eq_true hlineage
  refine ⟨t, htmem, hlineage', isNewestVersion_iff.2 fun u hu hsame => ?_⟩
  have humem : u ∈ db.sources.filter fun t => decide (SameLineage s t) :=
    List.mem_filter.2 ⟨hu, decide_eq_true
      ⟨hsame.1.trans hlineage'.1, hsame.2.trans hlineage'.2⟩⟩
  exact List.le_of_mem_argmax (f := fun t : SourceRow => t.version.get) humem ht

/-! ## The numbering of a lineage -/

/-- Every version has its predecessors, and supersedes the one before. -/
structure Numbered (db : Database) : Prop where
  below : ∀ s ∈ db.sources, ∀ k, 1 ≤ k → k ≤ s.version.get →
    ∃ p ∈ db.sources, SameLineage s p ∧ p.version.get = k
  first : ∀ s ∈ db.sources, s.version.get = 1 → loadSupersededIds db s.sourceId = .ok []
  supersedes : ∀ s ∈ db.sources, ∀ p ∈ db.sources, SameLineage s p →
    s.version.get = p.version.get + 1 → loadSupersededIds db s.sourceId = .ok [p.sourceId]

theorem Numbered.empty : Numbered Database.empty where
  below _ h := absurd h List.not_mem_nil
  first _ h := absurd h List.not_mem_nil
  supersedes _ h := absurd h List.not_mem_nil

/-- The other columns do not matter. -/
theorem Numbered.relabel (h : Numbered db) {f : SourceRow → SourceRow}
    (hsources : db'.sources = db.sources.map f) (hf : ∀ s, (f s).position = s.position)
    (hsupersedes : db'.sourceSupersedes = db.sourceSupersedes) : Numbered db' := by
  have hmem : ∀ s, s ∈ db'.sources ↔ ∃ old ∈ db.sources, f old = s := by
    intro s
    rw [hsources, List.mem_map]
  have hby : ∀ id, loadSupersededIds db' id = loadSupersededIds db id := by
    intro id
    unfold loadSupersededIds
    rw [hsupersedes]
  refine ⟨?_, ?_, ?_⟩
  · intro s hs k hone hk
    obtain ⟨old, hold, rfl⟩ := (hmem s).1 hs
    obtain ⟨-, ⟨hns, hlineage⟩, hversion⟩ := position_eq_iff.1 (hf old)
    rw [hversion] at hk
    obtain ⟨p, hp, ⟨hpns, hplineage⟩, hpversion⟩ := h.below old hold k hone hk
    obtain ⟨-, ⟨hpns', hplineage'⟩, hpversion'⟩ := position_eq_iff.1 (hf p)
    refine ⟨f p, (hmem _).2 ⟨p, hp, rfl⟩, ⟨?_, ?_⟩, hpversion'.trans hpversion⟩
    · rw [hpns', hpns, hns]
    · rw [hplineage', hplineage, hlineage]
  · intro s hs hone
    obtain ⟨old, hold, rfl⟩ := (hmem s).1 hs
    obtain ⟨hid, -, hversion⟩ := position_eq_iff.1 (hf old)
    rw [hby, hid]
    exact h.first old hold (hversion.symm.trans hone)
  · intro s hs p hp hsame hnext
    obtain ⟨old, hold, rfl⟩ := (hmem s).1 hs
    obtain ⟨q, hq, rfl⟩ := (hmem p).1 hp
    obtain ⟨hid, ⟨hns, hlineage⟩, hversion⟩ := position_eq_iff.1 (hf old)
    obtain ⟨hid', ⟨hns', hlineage'⟩, hversion'⟩ := position_eq_iff.1 (hf q)
    rw [hby, hid, hid']
    refine h.supersedes old hold q hq ⟨?_, ?_⟩ (by omega)
    · rw [← hns', hsame.1, hns]
    · rw [← hlineage', hsame.2, hlineage]

end Rows

/-- The first version supersedes nothing, a later one the tip. -/
theorem insertedSource_supersedes {source : SourceArtifact} {inserted : Database}
    (hinsert : insertSourceArtifact db source = .ok inserted)
    (htip : advanceLineageTip inserted source = .ok db') :
    source.params.supersedesSourceIds = (lineageTip db source.params.namespaceId
      source.params.lineageId).toList.map TipRow.sourceId := by
  obtain ⟨rfl, -, -, -⟩ := insertSourceArtifact_eq_ok hinsert
  unfold advanceLineageTip at htip
  simp only [Except.bind_eq_ok_iff, Except.exists_unit_iff, require_eq_ok_iff] at htip
  obtain ⟨-, htip⟩ := htip
  split at htip
  · rename_i hnone
    have hnone' : lineageTip db source.params.namespaceId source.params.lineageId = none := hnone
    simp only [Except.bind_eq_ok_iff, Except.exists_unit_iff, require_eq_ok_iff] at htip
    rw [hnone']
    exact htip.1.2
  · rename_i current hsome
    have hsome' : lineageTip db source.params.namespaceId source.params.lineageId =
      some current := hsome
    simp only [Except.bind_eq_ok_iff, Except.exists_unit_iff, require_eq_ok_iff] at htip
    rw [hsome']
    exact htip.2.1.2

/-- A new source is the first version of its lineage, or follows the version at the tip. -/
theorem SourceAdded.predecessor (hlib : LibraryInvariant db) {source : SourceArtifact}
    (h : SourceAdded db db' source) :
    (source.params.version.get = 1 ∧
        lineageTip db source.params.namespaceId source.params.lineageId = none) ∨
      ∃ p ∈ db.sources, SameLineage (SourceRow.ofArtifact source.params) p ∧
        source.params.version.get = p.version.get + 1 ∧
        lineageTip db source.params.namespaceId source.params.lineageId =
          some (TipRow.ofSource p) := by
  rcases h.tip with ⟨hnone, hversion, -⟩ | ⟨current, hsome, hversion, -⟩
  · exact .inl ⟨hversion, hnone⟩
  · obtain ⟨p, hp, rfl⟩ := hlib.tipSources current (lookup_mem hsome)
    have hkey := lookup_key hsome
    simp only [TipRow.key, TipRow.ofSource, Prod.mk.injEq] at hkey
    exact .inr ⟨p, hp, hkey, hversion, hsome⟩

theorem Numbered.sourceAdded (h : Numbered db) (hlib : LibraryInvariant db)
    {source : SourceArtifact} {added : Database} (hadded : SourceAdded db added source)
    (hfirst : source.params.supersedesSourceIds = (lineageTip db source.params.namespaceId
      source.params.lineageId).toList.map TipRow.sourceId)
    (hsources : db'.sources = db.sources ++ [SourceRow.ofArtifact source.params])
    (hsupersedes : db'.sourceSupersedes = db.sourceSupersedes ++
      enumerate source.params.sourceId 0 source.params.supersedesSourceIds) : Numbered db' := by
  have hold : ∀ s ∈ db.sources,
      loadSupersededIds db' s.sourceId = loadSupersededIds db s.sourceId := by
    intro s hs
    unfold loadSupersededIds
    rw [hsupersedes]
    apply loadChildren_append_of_ne
    intro c hc
    rw [(mem_enumerate hc).1]
    exact (hadded.fresh s hs).symm
  have hnew : loadSupersededIds db' source.params.sourceId =
      .ok source.params.supersedesSourceIds := by
    unfold loadSupersededIds
    rw [hsupersedes]
    apply loadChildren_append_enumerate
    intro c hc heq
    obtain ⟨s, hs, hid⟩ := hlib.constraints.supersedesSources c hc
    exact hadded.fresh s hs (hid.trans heq)
  have hmem : ∀ s, s ∈ db'.sources ↔ s ∈ db.sources ∨ s = SourceRow.ofArtifact source.params := by
    intro s
    rw [hsources, List.mem_append, List.mem_singleton]
  have hpred := hadded.predecessor hlib
  refine ⟨?_, ?_, ?_⟩
  · intro s hs k hone hk
    rcases (hmem s).1 hs with hs | rfl
    · obtain ⟨p, hp, hsame, hversion⟩ := h.below s hs k hone hk
      exact ⟨p, (hmem p).2 (.inl hp), hsame, hversion⟩
    · change k ≤ source.params.version.get at hk
      by_cases hlast : k = source.params.version.get
      · exact ⟨_, (hmem _).2 (.inr rfl), ⟨rfl, rfl⟩, hlast.symm⟩
      · rcases hpred with ⟨hfirst, -⟩ | ⟨p, hp, hsame, hnext, -⟩
        · omega
        · obtain ⟨q, hq, hqsame, hversion⟩ := h.below p hp k hone (by omega)
          exact ⟨q, (hmem q).2 (.inl hq), ⟨hqsame.1.trans hsame.1, hqsame.2.trans hsame.2⟩,
            hversion⟩
  · intro s hs hone
    rcases (hmem s).1 hs with hs | rfl
    · rw [hold s hs]
      exact h.first s hs hone
    · change source.params.version.get = 1 at hone
      change loadSupersededIds db' source.params.sourceId = _
      rw [hnew, hfirst]
      rcases hpred with ⟨-, hnone⟩ | ⟨p, hp, -, hnext, -⟩
      · rw [hnone]
        rfl
      · have hpositive := p.version.positive
        omega
  · intro s hs p hp hsame hnext
    rcases (hmem s).1 hs with hs | rfl
    · rcases (hmem p).1 hp with hp | rfl
      · rw [hold s hs]
        exact h.supersedes s hs p hp hsame hnext
      · -- The new version would have been there before.
        change s.version.get = source.params.version.get + 1 at hnext
        obtain ⟨q, hq, hqsame, hversion⟩ := h.below s hs source.params.version.get
          source.params.version.positive (by omega)
        refine absurd ?_ (hadded.freshVersion q hq)
        simp only [SourceRow.versionKey, SourceRow.ofArtifact, Prod.mk.injEq]
        exact ⟨hqsame.1.trans hsame.1.symm, hqsame.2.trans hsame.2.symm, hversion⟩
    · change source.params.version.get = p.version.get + 1 at hnext
      change loadSupersededIds db' source.params.sourceId = _
      rcases (hmem p).1 hp with hp | rfl
      · rcases hpred with ⟨hone, -⟩ | ⟨q, hq, hqsame, hqnext, hsome⟩
        · have hpositive := p.version.positive
          omega
        · have hkey : q.versionKey = p.versionKey := by
            simp only [SourceRow.versionKey, Prod.mk.injEq]
            exact ⟨hqsame.1.trans hsame.1.symm, hqsame.2.trans hsame.2.symm, by omega⟩
          rw [hnew, hfirst, hsome, hlib.constraints.sourceVersions.eq_of_mem hq hp hkey]
          rfl
      · change source.params.version.get = source.params.version.get + 1 at hnext
        omega

/-! ## Tips and bindings -/

/-- The tips of a verified library are the newest versions that are active. -/
theorem verifyDerivedIndex_tips (h : verifyDerivedIndex db = .ok ()) (tip : TipRow) :
    tip ∈ db.tips ↔ ∃ s ∈ db.sources, s.governance.deletionState = .active ∧
      isNewestVersion db s = true ∧ tip = TipRow.ofSource s := by
  obtain ⟨resolved, records, hread, -⟩ := verifyDerivedIndex_eq_ok h
  obtain ⟨tips, htips, -, hsame⟩ := hread.expected
  rw [← hsame, htips.rows, List.mem_map]
  constructor
  · rintro ⟨s, hs, rfl⟩
    obtain ⟨hmem, hactive, hnewest⟩ := mem_newestActiveRows.1 hs
    exact ⟨s, hmem, hactive, hnewest, rfl⟩
  · rintro ⟨s, hmem, hactive, hnewest, rfl⟩
    exact ⟨s, mem_newestActiveRows.2 ⟨hmem, hactive, hnewest⟩, rfl⟩

omit [Platform] in
def BindingRow.lineage (row : BindingRow) : Identifier × Identifier :=
  (row.namespaceId, row.lineageId)

omit [Platform] in
def SourceRow.lineage (row : SourceRow) : Identifier × Identifier :=
  (row.namespaceId, row.lineageId)

/-- A library that only captures and deletions have written. -/
structure CapturedLibrary (db : Database) : Prop where
  library : LibraryInvariant db
  numbered : Numbered db
  closed : ∀ s ∈ db.sources, s.governance.deletionState ≠ .active →
    ∃ D, Frozen db D .sourceMetadata s.sourceId
  tips : ∀ tip, tip ∈ db.tips ↔ ∃ s ∈ db.sources, s.governance.deletionState = .active ∧
    isNewestVersion db s = true ∧ tip = TipRow.ofSource s
  bindings : UniqueBy BindingRow.lineage db.bindings
  bound : ∀ b ∈ db.bindings, ∃ s ∈ db.sources, s.lineage = b.lineage
  binds : ∀ s ∈ db.sources, s.governance.deletionState = .active →
    ∃ b ∈ db.bindings, b.lineage = s.lineage

omit [Platform] in
theorem CapturedLibrary.empty : CapturedLibrary Database.empty where
  library := LibraryInvariant.empty
  numbered := Numbered.empty
  closed _ h := absurd h List.not_mem_nil
  tips tip := by
    constructor
    · intro h
      cases h
    · rintro ⟨_, h, _⟩
      cases h
  bindings := UniqueBy.nil
  bound _ h := absurd h List.not_mem_nil
  binds _ h := absurd h List.not_mem_nil

namespace CapturedLibrary

omit [Platform] in
/-- An active lineage has a tip, at its newest version. -/
theorem exists_tip (h : CapturedLibrary db) {s : SourceRow} (hs : s ∈ db.sources)
    (hactive : s.governance.deletionState = .active) :
    ∃ t ∈ db.sources, SameLineage s t ∧ isNewestVersion db t = true ∧
      TipRow.ofSource t ∈ db.tips := by
  obtain ⟨t, ht, hsame, hnewest⟩ := exists_newest hs
  refine ⟨t, ht, hsame, hnewest, (h.tips _).2 ⟨t, ht, ?_, hnewest, rfl⟩⟩
  -- A closed version closes its whole lineage.
  by_contra hclosed
  obtain ⟨D, hfrozen⟩ := h.closed t ht hclosed
  exact (h.library.closedLineages D t ht hfrozen).2 s hs hsame.1.symm hsame.2.symm hactive

end CapturedLibrary

/-- What a capture that wrote something did to the tables of lineages. -/
structure CaptureWritten (db db' : Database) (source : SourceArtifact) : Prop where
  added : ∃ added, SourceAdded db added source
  supersedes : source.params.supersedesSourceIds = (lineageTip db source.params.namespaceId
    source.params.lineageId).toList.map TipRow.sourceId
  sources : db'.sources = db.sources ++ [SourceRow.ofArtifact source.params]
  sourceSupersedes : db'.sourceSupersedes = db.sourceSupersedes ++
    enumerate source.params.sourceId 0 source.params.supersedesSourceIds
  closure : db'.executionClosure = db.executionClosure
  active : source.params.governance.deletionState = .active
  bindings : (∃ b, b.lineage = (source.params.namespaceId, source.params.lineageId) ∧
      (∀ r ∈ db.bindings, r.lineage ≠ b.lineage) ∧ db'.bindings = db.bindings ++ [b]) ∨
    db'.bindings = db.bindings ∧ ∃ b ∈ db.bindings,
      b.lineage = (source.params.namespaceId, source.params.lineageId)

theorem captureSource_written {capture : SourceCapture} {result : SourceCaptureResult}
    (h : captureSource db capture = .ok (db', result)) :
    verifyDerivedIndex db' = .ok () ∧
      (db' = db ∨ CaptureWritten db db' capture.params.source) := by
  obtain ⟨hverify, -, rfl | ⟨current, outcome, hdecide, hfacts⟩⟩ := captureSource_eq_ok h
  · exact ⟨hverify, .inl rfl⟩
  refine ⟨hverify, .inr ?_⟩
  obtain ⟨audit, db₁, db₂, db₃, db₄, h₁, h₂, h₃, h₄, h₅⟩ := insertCaptureFacts_steps hfacts
  have hadded := sourceAdded_of_insert h₁ h₂
  have hsupersedes := insertedSource_supersedes h₁ h₂
  obtain ⟨tip, htip, hkey, htipSource⟩ := hadded.tip_mem
  have hframe := hadded.frame
  obtain ⟨owner, hfragments⟩ := fragmentsAdded_of_insert h₄
  obtain rfl := hfragments.result
  obtain ⟨-, -, rfl⟩ := Database.insertAudit_eq_ok h₅
  have hrelations : db₂.sourceSupersedes = db.sourceSupersedes ++
      enumerate capture.params.source.params.sourceId 0
        capture.params.source.params.supersedesSourceIds := by
    rcases hadded.tip with ⟨-, -, rfl⟩ | ⟨current, -, -, -, -, rfl⟩
    · rfl
    · rfl
  -- What the binding statement does.
  obtain ⟨hsame, hbindings⟩ : (db₃.sources = db₂.sources ∧ db₃.tips = db₂.tips ∧
      db₃.sourceSupersedes = db₂.sourceSupersedes ∧
      db₃.executionClosure = db₂.executionClosure) ∧
      ((∃ b : BindingRow, b.lineage = (capture.params.source.params.namespaceId,
          capture.params.source.params.lineageId) ∧
        (∀ r ∈ db.bindings, r.lineage ≠ b.lineage) ∧ db₃.bindings = db.bindings ++ [b]) ∨
      db₃.bindings = db.bindings ∧ ∃ b ∈ db.bindings, b.lineage =
        (capture.params.source.params.namespaceId, capture.params.source.params.lineageId)) := by
    by_cases hcreated : outcome = .created
    · rw [if_pos hcreated] at h₃
      obtain ⟨hfresh, rfl⟩ := Database.insertBinding_eq_ok h₃
      refine ⟨⟨rfl, rfl, rfl, rfl⟩, .inl ⟨{
        namespaceId := capture.params.source.params.namespaceId
        originBindingId := capture.params.originBindingId
        lineageId := capture.params.source.params.lineageId }, rfl, fun r hr heq => ?_, ?_⟩⟩
      · rw [← hframe.2] at hr
        obtain ⟨hns, hlineage⟩ := Prod.mk.inj heq
        exact (hfresh r hr hns).2 hlineage
      · rw [← hframe.2]
    · rw [if_neg hcreated] at h₃
      cases h₃
      refine ⟨⟨rfl, rfl, rfl, rfl⟩, .inr ⟨hframe.2, ?_⟩⟩
      cases outcome with
      | created => exact absurd rfl hcreated
      | versioned =>
        obtain ⟨b, hb, hns, -, hlineage⟩ := decideCapture_versioned hdecide
        exact ⟨b, hb, Prod.ext hns hlineage⟩
      | idempotent => cases hfacts
  obtain ⟨hsources, htips, hsuper, hclosure⟩ := hsame
  refine ⟨⟨_, hadded⟩, hsupersedes, ?_, ?_, ?_, ?_, hbindings⟩
  · exact hsources.trans hadded.sources
  · exact hsuper.trans hrelations
  · rw [← show db₂.executionClosure = db.executionClosure by rw [hframe.1]]
    exact hclosure
  · -- The verification found the new tip to be active.
    have htip' : tip ∈ db₃.tips := by rwa [htips]
    obtain ⟨s, hs, hactive, -, rfl⟩ := (verifyDerivedIndex_tips hverify tip).1 htip'
    have hs' : s ∈ db.sources ++ [SourceRow.ofArtifact capture.params.source.params] := by
      rw [← hadded.sources, ← hsources]
      exact hs
    rcases List.mem_append.1 hs' with hold | hnew
    · exact absurd htipSource (hadded.fresh s hold)
    · rw [List.mem_singleton.1 hnew] at hactive
      exact hactive

namespace CapturedLibrary

/-! ## Operations -/

theorem capture (h : CapturedLibrary db) (hlib : LibraryInvariant db') {source : SourceArtifact}
    (hverify : verifyDerivedIndex db' = .ok ()) (hw : CaptureWritten db db' source) :
    CapturedLibrary db' := by
  obtain ⟨added, hadded⟩ := hw.added
  have hmem : ∀ s, s ∈ db'.sources ↔ s ∈ db.sources ∨ s = SourceRow.ofArtifact source.params := by
    intro s
    rw [hw.sources, List.mem_append, List.mem_singleton]
  have hkept : ∀ b ∈ db.bindings, b ∈ db'.bindings := by
    intro b hb
    rcases hw.bindings with ⟨_, -, -, heq⟩ | ⟨heq, -⟩
    · rw [heq]
      exact List.mem_append_left _ hb
    · rwa [heq]
  refine ⟨hlib, ?_, ?_, verifyDerivedIndex_tips hverify, ?_, ?_, ?_⟩
  · exact h.numbered.sourceAdded h.library hadded hw.supersedes hw.sources hw.sourceSupersedes
  · intro s hs hclosed
    rcases (hmem s).1 hs with hs | rfl
    · obtain ⟨D, hfrozen⟩ := h.closed s hs hclosed
      refine ⟨D, ?_⟩
      unfold Frozen
      rw [hw.closure]
      exact hfrozen
    · exact absurd hw.active hclosed
  · rcases hw.bindings with ⟨b, -, hfresh, heq⟩ | ⟨heq, -⟩
    · rw [heq]
      exact h.bindings.append_singleton hfresh
    · rw [heq]
      exact h.bindings
  · intro b hb
    have hcases : b ∈ db.bindings ∨ b.lineage = (source.params.namespaceId,
        source.params.lineageId) := by
      rcases hw.bindings with ⟨new, hnew, -, heq⟩ | ⟨heq, -⟩
      · rw [heq] at hb
        rcases List.mem_append.1 hb with hb | hb
        · exact .inl hb
        · rw [List.mem_singleton.1 hb]
          exact .inr hnew
      · rw [heq] at hb
        exact .inl hb
    rcases hcases with hb | hnew
    · obtain ⟨s, hs, hlineage⟩ := h.bound b hb
      exact ⟨s, (hmem s).2 (.inl hs), hlineage⟩
    · exact ⟨_, (hmem _).2 (.inr rfl), hnew.symm⟩
  · intro s hs hactive
    rcases (hmem s).1 hs with hs | rfl
    · obtain ⟨b, hb, hlineage⟩ := h.binds s hs hactive
      exact ⟨b, hkept b hb, hlineage⟩
    · rcases hw.bindings with ⟨b, hb, -, heq⟩ | ⟨-, b, hb, hlineage⟩
      · refine ⟨b, ?_, hb⟩
        rw [heq]
        exact List.mem_append_right _ List.mem_cons_self
      · exact ⟨b, hkept b hb, hlineage⟩

theorem request (h : CapturedLibrary db) {new : DeleteRequest} {closure : ExecutionClosure}
    (hstored : StoredRequest db db' new closure) : CapturedLibrary db' := by
  have hsources : db'.sources = db.sources.map fun old =>
      if sourceIsClosed new.params.namespaceId new.params.sourceTargets old then
        SourceRow.setState .pending old else old := by
    rw [hstored.result]
    rfl
  have htables : db'.sourceSupersedes = db.sourceSupersedes ∧ db'.bindings = db.bindings := by
    rw [hstored.result]
    exact ⟨rfl, rfl⟩
  have hlib : LibraryInvariant db' := h.library.requestStored hstored
  refine ⟨hlib, h.numbered.relabel hsources ?_ htables.1, ?_,
    verifyDerivedIndex_tips hstored.derived, ?_, ?_, ?_⟩
  · intro s
    split
    · rfl
    · rfl
  · intro s hs hclosed
    obtain ⟨old, hold, rfl⟩ := hstored.mem_sources.1 hs
    by_cases hcloses : sourceIsClosed new.params.namespaceId new.params.sourceTargets old = true
    · rw [if_pos hcloses]
      refine ⟨_, hstored.frozen_source_iff.2 (.inr ⟨rfl, ?_⟩)⟩
      unfold sourceIsClosed at hcloses
      simp only [Bool.and_eq_true, List.contains_iff_mem] at hcloses
      exact hcloses.1.1
    · rw [if_neg hcloses] at hclosed ⊢
      obtain ⟨D, hfrozen⟩ := h.closed old hold hclosed
      exact ⟨D, hstored.frozen_source_iff.2 (.inl hfrozen)⟩
  · rw [htables.2]
    exact h.bindings
  · intro b hb
    rw [htables.2] at hb
    obtain ⟨s, hs, hlineage⟩ := h.bound b hb
    refine ⟨_, hstored.mem_sources.2 ⟨s, hs, rfl⟩, ?_⟩
    split
    · exact hlineage
    · exact hlineage
  · intro s hs hactive
    obtain ⟨old, hold, rfl⟩ := hstored.mem_sources.1 hs
    rw [htables.2]
    by_cases hcloses : sourceIsClosed new.params.namespaceId new.params.sourceTargets old = true
    · rw [if_pos hcloses] at hactive
      cases hactive
    · rw [if_neg hcloses] at hactive ⊢
      exact h.binds old hold hactive

/-! ## Components -/

theorem attempt (h : CapturedLibrary db) {deleteRequestId : Identifier}
    (happlies : (Change.attempt deleteRequestId).Applies db db') : CapturedLibrary db' := by
  have hlib : LibraryInvariant db' := h.library.step happlies
  obtain ⟨checkedAt, n, hopen⟩ := happlies
  obtain ⟨-, -, rfl⟩ := insertNextAttempt_eq_ok hopen
  exact ⟨hlib, ⟨h.numbered.below, h.numbered.first, h.numbered.supersedes⟩, h.closed, h.tips,
    h.bindings, h.bound, h.binds⟩

theorem failure (h : CapturedLibrary db) {executed : DeleteRequest} {n : Nat}
    {componentType : DeletionComponentType}
    (happlies : (Change.failure executed n componentType).Applies db db') :
    CapturedLibrary db' := by
  have hlib : LibraryInvariant db' := h.library.step happlies
  obtain ⟨planned, result, hrecorded⟩ := happlies
  obtain ⟨-, -, -, rfl⟩ := Database.insertResult_eq_ok_iff.1 hrecorded.result
  exact ⟨hlib, ⟨h.numbered.below, h.numbered.first, h.numbered.supersedes⟩, h.closed, h.tips,
    h.bindings, h.bound, h.binds⟩

theorem on_position (c : Change) (row : SourceRow) :
    (sourceTable.on db c row).position = row.position :=
  sourceTable.on_column (fun _ _ => rfl) (fun _ => rfl) c row

/-- No component makes a source active. -/
theorem on_closed {executed : DeleteRequest} {n : Nat} {componentType : DeletionComponentType}
    {s : SourceRow} (hclosed : s.governance.deletionState ≠ .active) :
    (sourceTable.on db (.component executed n componentType) s).governance.deletionState ≠
      .active := by
  unfold ClosedTable.on
  dsimp only
  split
  · split
    · exact hclosed
    · split
      · change finalState db _ _ ≠ .active
        unfold finalState
        split
        · decide
        · decide
      · exact hclosed
  · exact hclosed

/-- A component does not touch an active source. -/
theorem on_active (h : CapturedLibrary db) {executed : DeleteRequest} {n : Nat}
    {componentType : DeletionComponentType} {s : SourceRow} (hs : s ∈ db.sources)
    (hactive : s.governance.deletionState = .active) :
    sourceTable.on db (.component executed n componentType) s = s := by
  unfold ClosedTable.on
  exact if_neg (h.library.source_not_frozen hs hactive _)

/-- The last component keeps the bindings of active lineages: these have tips. -/
theorem keepsBinding (h : CapturedLibrary db) {executed : DeleteRequest} {n : Nat}
    {componentType : DeletionComponentType}
    (happlies : (Change.component executed n componentType).Applies db db') {s : SourceRow}
    (hs : s ∈ db.sources) (hactive : s.governance.deletionState = .active) {b : BindingRow}
    (hb : b.lineage = s.lineage) :
    (Change.component executed n componentType).keepsBinding db b = true := by
  obtain ⟨planned, result, acted, hdone⟩ := happlies
  have heffect := hdone.effect
  cases componentType with
  | minimalAudit =>
    obtain ⟨targets, lineages, -, -, -, htargets, hlineages, htips, -⟩ := heffect
    change bindingStays db _ _ b = true
    unfold bindingStays
    rw [Bool.not_eq_true', Bool.and_eq_false_iff, beq_eq_false_iff_ne, decide_eq_false_iff_not,
      ← mem_purgedLineages h.library.constraints.sourceIds htargets hlineages]
    by_cases hns : b.namespaceId = executed.params.namespaceId
    · refine .inr fun hpurged => ?_
      obtain ⟨t, ht, hsame, -, htip⟩ := h.exists_tip hs hactive
      obtain ⟨hbns, hblineage⟩ := Prod.mk.inj hb
      refine htips _ htip ?_ ?_
      · exact hsame.1.trans (hbns.symm.trans hns)
      · change t.lineageId ∈ lineages
        rw [hsame.2, ← hblineage]
        exact hpurged
    · exact .inl hns
  | _ => rfl

theorem component (h : CapturedLibrary db) {executed : DeleteRequest} {n : Nat}
    {componentType : DeletionComponentType}
    (happlies : (Change.component executed n componentType).Applies db db') :
    CapturedLibrary db' := by
  have hc := h.library.constraints
  have hlib : LibraryInvariant db' := h.library.step happlies
  have htables := happlies.tables hc
  have hsources : db'.sources =
      db.sources.map (sourceTable.on db (.component executed n componentType)) := by
    have heffect := sourceTable_effect db (.component executed n componentType)
    unfold ClosedTable.Effect at heffect
    rw [sourceTable.added_component, List.append_nil] at heffect
    rw [show db'.sources = ((Change.component executed n componentType).tables db).sources by
      rw [htables]; rfl]
    exact heffect
  have hsupersedes : db'.sourceSupersedes = db.sourceSupersedes := by
    rw [htables]
    cases componentType with
    | _ => rfl
  have htips : db'.tips = db.tips := by
    obtain ⟨planned, result, acted, hdone⟩ := happlies
    obtain ⟨-, -, -, rfl⟩ := Database.insertResult_eq_ok_iff.1 hdone.result
    exact hdone.effect.derived.1
  have hbindings := happlies.bindings hc
  have hnew : (Change.component executed n componentType).newBindings = [] := rfl
  rw [hnew, List.append_nil] at hbindings
  -- The sources before and after, with their positions.
  have hmem : ∀ s, s ∈ db'.sources ↔
      ∃ old ∈ db.sources, sourceTable.on db (.component executed n componentType) old = s := by
    intro s
    rw [hsources, List.mem_map]
  have hactiveMem : ∀ s, s.governance.deletionState = .active →
      (s ∈ db'.sources ↔ s ∈ db.sources) := by
    intro s hactive
    rw [hmem]
    constructor
    · rintro ⟨old, hold, rfl⟩
      have holdActive : old.governance.deletionState = .active := by
        by_contra hclosed
        exact on_closed hclosed hactive
      rwa [h.on_active hold holdActive]
    · intro hs
      exact ⟨s, hs, h.on_active hs hactive⟩
  refine ⟨hlib, h.numbered.relabel hsources (on_position _) hsupersedes, ?_, ?_, ?_, ?_, ?_⟩
  · intro s hs hclosed
    obtain ⟨old, hold, rfl⟩ := (hmem s).1 hs
    have holdClosed : old.governance.deletionState ≠ .active := by
      intro hactive
      rw [h.on_active hold hactive] at hclosed
      exact hclosed hactive
    obtain ⟨D, hfrozen⟩ := h.closed old hold holdClosed
    rw [(position_eq_iff.1 (on_position _ old)).1]
    exact ⟨D, happlies.frozen hfrozen⟩
  · intro tip
    rw [htips, h.tips]
    refine exists_congr fun s => ?_
    constructor
    · rintro ⟨hs, hactive, hnewest, heq⟩
      have hnewest' := (isNewestVersion_relabel hsources (on_position _) s).2 hnewest
      rw [h.on_active hs hactive] at hnewest'
      exact ⟨(hactiveMem s hactive).2 hs, hactive, hnewest', heq⟩
    · rintro ⟨hs, hactive, hnewest, heq⟩
      have hs' := (hactiveMem s hactive).1 hs
      refine ⟨hs', hactive, ?_, heq⟩
      rw [← isNewestVersion_relabel hsources (on_position _), h.on_active hs' hactive]
      exact hnewest
  · rw [hbindings]
    exact h.bindings.filter
  · intro b hb
    rw [hbindings] at hb
    obtain ⟨s, hs, hlineage⟩ := h.bound b (List.mem_filter.1 hb).1
    obtain ⟨-, ⟨hns, hl⟩, -⟩ := position_eq_iff.1
      (on_position _ s : (sourceTable.on db (.component executed n componentType) s).position = _)
    exact ⟨_, (hmem _).2 ⟨s, hs, rfl⟩, (Prod.ext hns hl).trans hlineage⟩
  · intro s hs hactive
    have hs' := (hactiveMem s hactive).1 hs
    obtain ⟨b, hb, hlineage⟩ := h.binds s hs' hactive
    refine ⟨b, ?_, hlineage⟩
    rw [hbindings, List.mem_filter]
    exact ⟨hb, h.keepsBinding happlies hs' hactive hlineage⟩

end CapturedLibrary

/-! ## Runs -/

omit [Platform] in
/-- The operations on captured files, with the faults they meet. -/
inductive CaptureOp where
  | captureSource (capture : SourceCapture)
  | storeDeleteRequest (request : DeleteRequest)
  | executeDeletion (namespaceId deleteRequestId : Identifier)
      (execution : LocalDeletionExecution) (faulty : DeletionComponentType → Bool)
      (breaksAfter : Option Nat)

omit [Platform] in
def CaptureOp.toOp : CaptureOp → Op
  | .captureSource capture => .captureSource capture
  | .storeDeleteRequest request => .storeDeleteRequest request
  | .executeDeletion namespaceId deleteRequestId execution faulty breaksAfter =>
    .executeDeletion namespaceId deleteRequestId execution faulty breaksAfter

theorem CapturedLibrary.op (h : CapturedLibrary db) (op : CaptureOp) :
    CapturedLibrary (op.toOp.apply db) := by
  cases op with
  | captureSource capture =>
    have hlib : LibraryInvariant (Op.apply db (.captureSource capture)) := h.library.op
    change CapturedLibrary (committed db _)
    change LibraryInvariant (committed db _) at hlib
    cases hcapture : RadishMemory.captureSource db capture with
    | error e => exact h
    | ok captured =>
      obtain ⟨db', result⟩ := captured
      rw [hcapture] at hlib
      obtain ⟨hverify, heq | hw⟩ := captureSource_written hcapture
      · change CapturedLibrary db'
        rw [heq]
        exact h
      · exact h.capture hlib hverify hw
  | storeDeleteRequest request =>
    refine committed_cases h fun db' hstore => ?_
    obtain ⟨closure, hstored⟩ := storeDeleteRequest_eq_ok hstore
    exact h.request hstored
  | executeDeletion namespaceId deleteRequestId execution faulty breaksAfter =>
    refine Op.preserves (fun a b c ha hw happlies => ?_) h.library.constraints.resultAttempts h
    have hother : ¬ (CaptureOp.executeDeletion namespaceId deleteRequestId execution faulty
        breaksAfter).toOp.executes = none := by
      intro hnone
      cases hnone
    cases c with
    | attempt D => exact ha.attempt happlies
    | component executed n componentType => exact ha.component happlies
    | failure executed n componentType => exact ha.failure happlies
    | fragments owner new => exact absurd hw.2.2 hother
    | _ => exact absurd hw hother

theorem capturedLibrary_of_run (ops : List CaptureOp) :
    CapturedLibrary (runOps .empty (ops.map CaptureOp.toOp)) := by
  have hops : Along (fun _ op => ∃ c : CaptureOp, c.toOp = op) .empty
      (ops.map CaptureOp.toOp) := by
    refine .of_forall (fun op hop _ => ?_) _
    obtain ⟨c, -, rfl⟩ := List.mem_map.1 hop
    exact ⟨c, rfl⟩
  refine runOps_preserves (fun db op h hop => ?_) CapturedLibrary.empty hops
  obtain ⟨c, rfl⟩ := hop
  exact h.op c

omit [Platform] in
/-- Each lineage is numbered from one without gaps, its versions form a chain, its tip is the last
of them while it is open, and it has one binding. -/
structure LinearLineages (db : Database) : Prop where
  versions : ∀ namespaceId lineageId, ∃ n, ∀ k,
    (∃ s ∈ db.sources, s.lineage = (namespaceId, lineageId) ∧ s.version.get = k) ↔ 1 ≤ k ∧ k ≤ n
  versionOnce : UniqueBy SourceRow.versionKey db.sources
  first : ∀ s ∈ db.sources, s.version.get = 1 → loadSupersededIds db s.sourceId = .ok []
  supersedes : ∀ s ∈ db.sources, ∀ p ∈ db.sources, p.lineage = s.lineage →
    s.version.get = p.version.get + 1 → loadSupersededIds db s.sourceId = .ok [p.sourceId]
  tips : ∀ tip ∈ db.tips, ∃ s ∈ db.sources, tip = TipRow.ofSource s ∧
    ∀ t ∈ db.sources, t.lineage = s.lineage → t.version.get ≤ s.version.get
  openTips : ∀ s ∈ db.sources, s.governance.deletionState = .active →
    ∃ tip ∈ db.tips, tip.key = s.lineage
  tipOnce : UniqueBy TipRow.key db.tips
  bindingOnce : UniqueBy BindingRow.key db.bindings
  bindingLineage : ∀ b ∈ db.bindings, ∃ s ∈ db.sources, s.lineage = b.lineage
  boundOnce : ∀ s ∈ db.sources, s.governance.deletionState = .active →
    ∃ b, db.bindings.filter (fun row => row.lineage = s.lineage) = [b]

omit [Platform] in
theorem sameLineage_iff {s t : SourceRow} : t.lineage = s.lineage ↔ SameLineage s t := by
  simp [SourceRow.lineage, SameLineage]

omit [Platform] in
theorem CapturedLibrary.linear (h : CapturedLibrary db) : LinearLineages db where
  versions namespaceId lineageId := by
    by_cases hnone : ∃ s ∈ db.sources, s.lineage = (namespaceId, lineageId)
    · obtain ⟨s, hs, hlineage⟩ := hnone
      obtain ⟨t, ht, hsame, hnewest⟩ := exists_newest hs
      have htlineage : t.lineage = (namespaceId, lineageId) :=
        (sameLineage_iff.2 hsame).trans hlineage
      refine ⟨t.version.get, fun k => ⟨?_, ?_⟩⟩
      · rintro ⟨u, hu, hulineage, rfl⟩
        have husame : SameLineage t u := sameLineage_iff.1 (hulineage.trans htlineage.symm)
        exact ⟨u.version.positive, isNewestVersion_iff.1 hnewest u hu husame⟩
      · rintro ⟨hone, hk⟩
        obtain ⟨p, hp, hpsame, hversion⟩ := h.numbered.below t ht k hone hk
        exact ⟨p, hp, (sameLineage_iff.2 hpsame).trans htlineage, hversion⟩
    · refine ⟨0, fun k => ⟨?_, ?_⟩⟩
      · rintro ⟨s, hs, hlineage, -⟩
        exact absurd ⟨s, hs, hlineage⟩ hnone
      · omega
  versionOnce := h.library.constraints.sourceVersions
  first := h.numbered.first
  supersedes s hs p hp hlineage := h.numbered.supersedes s hs p hp (sameLineage_iff.1 hlineage)
  tips tip htip := by
    obtain ⟨s, hs, -, hnewest, rfl⟩ := (h.tips tip).1 htip
    exact ⟨s, hs, rfl, fun t ht hlineage =>
      isNewestVersion_iff.1 hnewest t ht (sameLineage_iff.1 hlineage)⟩
  openTips s hs hactive := by
    obtain ⟨t, -, hsame, -, htip⟩ := h.exists_tip hs hactive
    exact ⟨_, htip, sameLineage_iff.2 hsame⟩
  tipOnce := h.library.constraints.tipKeys
  bindingOnce := h.library.constraints.bindingKeys
  bindingLineage := h.bound
  boundOnce s hs hactive := by
    obtain ⟨b, hb, hlineage⟩ := h.binds s hs hactive
    refine ⟨b, ?_⟩
    rw [← hlineage]
    exact h.bindings.filter_eq_singleton hb

/-! ## Outcomes -/

/-- An idempotent decision found the bytes of the current version. -/
theorem decideCapture_idempotent {capture : SourceCapture} {source : SourceArtifact}
    (h : decideCapture loadSourceArtifact db capture = .ok (source, .idempotent)) :
    ∃ tip, lineageTip db capture.params.source.params.namespaceId
        capture.params.source.params.lineageId = some tip ∧
      loadSourceArtifact db capture.params.source.params.namespaceId tip.sourceId =
        .ok (some source) ∧
      source.params.content = capture.params.source.params.content := by
  unfold decideCapture at h
  dsimp only at h
  split at h
  · simp only [Except.bind_eq_ok_iff, Except.exists_unit_iff, require_eq_ok_iff] at h
    obtain ⟨rfl, current, hcurrent, -, -, h⟩ := h
    split at h
    · rename_i hbytes
      simp only [Except.bind_eq_ok_iff, Except.exists_unit_iff, Except.pure_eq_ok_iff,
        Prod.mk.injEq] at h
      obtain ⟨-, rfl, -⟩ := h
      unfold loadCurrentSourceWith at hcurrent
      simp only [Except.bind_eq_ok_iff, Option.orError_eq_ok_iff] at hcurrent
      obtain ⟨tip, htip, loaded, hload, rfl⟩ := hcurrent
      unfold sameCaptureBytes at hbytes
      simp only [Bool.and_eq_true, beq_iff_eq] at hbytes
      exact ⟨tip, htip, hload, hbytes.2.symm⟩
    · simp only [Except.pure_eq_ok_iff, Prod.mk.injEq] at h
      cases h.2
  · simp only [Except.bind_eq_ok_iff, Except.exists_unit_iff, Except.pure_eq_ok_iff,
      Prod.mk.injEq] at h
    cases h.2.2

/-- A capture that returns the idempotent outcome wrote nothing. -/
theorem captureSource_idempotent {capture : SourceCapture} {result : SourceCaptureResult}
    (h : captureSource db capture = .ok (db', result)) (houtcome : result.outcome = .idempotent) :
    db' = db ∧ ∃ source,
      decideCapture loadSourceArtifact db capture = .ok (source, .idempotent) := by
  simp only [captureSource, Except.bind_eq_ok_iff, Except.exists_unit_iff] at h
  obtain ⟨-, -, ⟨source, outcome⟩, hdecide, h⟩ := h
  dsimp only at h
  by_cases hidempotent : outcome = .idempotent
  · subst hidempotent
    rw [if_neg (not_not.2 rfl)] at h
    simp only [Except.ok_bind, Except.bind_eq_ok_iff, Except.exists_unit_iff,
      Except.pure_eq_ok_iff, Prod.mk.injEq] at h
    obtain ⟨-, -, rfl, -⟩ := h
    exact ⟨rfl, source, hdecide⟩
  · rw [if_pos hidempotent] at h
    simp only [Except.bind_eq_ok_iff, Except.exists_unit_iff, Except.pure_eq_ok_iff,
      Prod.mk.injEq] at h
    obtain ⟨_, -, -, -, -, rfl⟩ := h
    exact absurd houtcome hidempotent

/-- What a capture returns, and what it leaves. -/
structure CaptureOutcomes (db : Database) (capture : SourceCapture) : Prop where
  idempotent : ∀ db' result, captureSource db capture = .ok (db', result) →
    result.outcome = .idempotent → db' = db
  different : ∀ tip current, lineageTip db capture.params.source.params.namespaceId
      capture.params.source.params.lineageId = some tip →
    loadSourceArtifact db capture.params.source.params.namespaceId tip.sourceId =
      .ok (some current) →
    current.params.content ≠ capture.params.source.params.content →
    ∀ db' result, captureSource db capture = .ok (db', result) → result.outcome ≠ .idempotent
  untipped : lineageTip db capture.params.source.params.namespaceId
      capture.params.source.params.lineageId = none →
    ∀ db' result, captureSource db capture = .ok (db', result) → result.outcome ≠ .idempotent
  failed : ∀ e, captureSource db capture = .error e → Op.apply db (.captureSource capture) = db

theorem captureOutcomes (db : Database) (capture : SourceCapture) : CaptureOutcomes db capture where
  idempotent db' result h houtcome := (captureSource_idempotent h houtcome).1
  different tip current htip hload hdifferent db' result h houtcome := by
    obtain ⟨-, source, hdecide⟩ := captureSource_idempotent h houtcome
    obtain ⟨tip', htip', hload', hcontent⟩ := decideCapture_idempotent hdecide
    rw [htip, Option.some.injEq] at htip'
    subst htip'
    rw [hload, Except.ok.injEq, Option.some.injEq] at hload'
    subst hload'
    exact hdifferent hcontent
  untipped hnone db' result h houtcome := by
    obtain ⟨-, source, hdecide⟩ := captureSource_idempotent h houtcome
    obtain ⟨tip, htip, -⟩ := decideCapture_idempotent hdecide
    rw [hnone] at htip
    cases htip
  failed e h := by
    change committed db _ = db
    rw [h]
    rfl

/-- Captures, interleaved with deletions, keep every lineage linear. -/
theorem captures_keep_lineages_linear (ops : List CaptureOp) :
    LinearLineages (runOps .empty (ops.map CaptureOp.toOp)) ∧
      ∀ capture, CaptureOutcomes (runOps .empty (ops.map CaptureOp.toOp)) capture :=
  ⟨(capturedLibrary_of_run ops).linear, captureOutcomes _⟩

end RadishMemory
