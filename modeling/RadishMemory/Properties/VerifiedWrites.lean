import RadishMemory.Properties.DerivedTables
import RadishMemory.Properties.Growth
import RadishMemory.Properties.OriginBindings
import RadishMemory.Construction.Samples

/-!
# Which source writes keep a library verified

A capture verifies the library again before it commits.  The two writes of the source vault do not:
a stored source becomes the tip of its lineage whatever its deletion state and whatever versions
the lineage has, its predecessor may be a captured file whose binding it takes away, and stored
fragments may overlap the fragments of a captured file.  Apart from these cases a verified library
stays verified.
-/

namespace RadishMemory

section Writes

variable [Platform] {db db' : Database} {source : SourceArtifact}

/-! ## Reads of a library that grows -/

theorem Grows.exists_fragment_iff (h : Grows db db') (hread : IndexReadable db) {f : FragmentRow}
    (hf : f ∈ tipFragmentRows db) {p : ResolvedSource → Prop} :
    (∃ resolved, loadResolvedSourceFragment db' f.namespaceId f.fragmentId = .ok (some resolved) ∧
      p resolved) ↔ ∃ resolved, loadResolvedSourceFragment db f.namespaceId f.fragmentId =
        .ok (some resolved) ∧ p resolved := by
  obtain ⟨resolved, hload⟩ := hread.fragments f hf
  have hload' := h.fragment _ _ _ hload
  rw [hload, hload']

theorem Grows.exists_record_iff (h : Grows db db') (hread : IndexReadable db) {r : RecordRow}
    (hr : r ∈ activeRecordRows db) {p : RecordClosure → Prop} :
    (∃ closure, loadMemoryRecordClosureWith loadSourceArtifact db' r.namespaceId r.memoryId =
      .ok (some closure) ∧ p closure) ↔ ∃ closure, loadMemoryRecordClosureWith loadSourceArtifact db
        r.namespaceId r.memoryId = .ok (some closure) ∧ p closure := by
  obtain ⟨closure, hload⟩ := hread.records r hr
  have hload' := h.closure hload
  rw [hload, hload']

omit [Platform] in
theorem SameMemories.activeRecordRows_eq (h : SameMemories db db') :
    activeRecordRows db' = activeRecordRows db := by
  rw [activeRecordRows, activeRecordRows, h.records]

/-- A record asks for the same rows as before. -/
theorem Grows.projectionAsked_iff (h : Grows db db') (hread : IndexReadable db)
    {row : ProjectionRow} : ProjectionAsked db' row ↔ ProjectionAsked db row := by
  rw [ProjectionAsked, ProjectionAsked, h.memories.activeRecordRows_eq]
  exact exists_congr fun r => and_congr_right fun hr => h.exists_record_iff hread hr

/-! ## The index after a stored source -/

omit [Platform] in
theorem isActiveTip_iff {s : SourceRow} : isActiveTip db s = true ↔
    s.governance.deletionState = .active ∧ TipRow.ofSource s ∈ db.tips := by
  simp [isActiveTip]

/-- The stored source is the newest version of its lineage, and active. -/
structure TakesTip (db : Database) (source : SourceArtifact) : Prop where
  active : source.params.governance.deletionState = .active
  newest : ∀ s ∈ db.sources, s.namespaceId = source.params.namespaceId →
    s.lineageId = source.params.lineageId → s.version.get < source.params.version.get

namespace TakesTip

/-- The newest version of another lineage is what it was, and the old tip is none. -/
theorem mem_newestActiveRows_iff (h : TakesTip db source) (hstored : SourceStored db db' source)
    {s : SourceRow} : s ∈ newestActiveRows db' ↔ s = SourceRow.ofArtifact source.params ∨
      (s ∈ newestActiveRows db ∧
        ¬ (s.namespaceId = source.params.namespaceId ∧ s.lineageId = source.params.lineageId)) := by
  simp only [mem_newestActiveRows, isNewestVersion_iff, hstored.mem_sources]
  constructor
  · rintro ⟨hs | rfl, hactive, hnewest⟩
    · refine .inr ⟨⟨hs, hactive, fun t ht => hnewest t (.inl ht)⟩, fun ⟨hns, hlineage⟩ => ?_⟩
      have hle := hnewest _ (.inr rfl) ⟨hns.symm, hlineage.symm⟩
      exact absurd (h.newest s hs hns hlineage) (not_lt.2 hle)
    · exact .inl rfl
  · rintro (rfl | ⟨⟨hs, hactive, hnewest⟩, hother⟩)
    · refine ⟨.inr rfl, h.active, ?_⟩
      rintro t (ht | rfl) ⟨hns, hlineage⟩
      · exact (h.newest t ht hns hlineage).le
      · exact le_refl _
    · refine ⟨.inl hs, hactive, ?_⟩
      rintro t (ht | rfl) hsame
      · exact hnewest t ht hsame
      · exact absurd ⟨hsame.1.symm, hsame.2.symm⟩ hother

theorem tipAsked_iff (h : TakesTip db source) (hstored : SourceStored db db' source)
    {tip : TipRow} : TipAsked db' tip ↔ tip = TipRow.ofSource (SourceRow.ofArtifact source.params) ∨
      (TipAsked db tip ∧ tip.key ≠ (source.params.namespaceId, source.params.lineageId)) := by
  simp only [TipAsked, h.mem_newestActiveRows_iff hstored]
  constructor
  · rintro ⟨s, rfl | ⟨hs, hother⟩, rfl⟩
    · exact .inl rfl
    · refine .inr ⟨⟨s, hs, rfl⟩, fun hkey => hother ?_⟩
      simpa [TipRow.key, TipRow.ofSource] using hkey
  · rintro (rfl | ⟨⟨s, hs, rfl⟩, hother⟩)
    · exact ⟨_, .inl rfl, rfl⟩
    · refine ⟨s, .inr ⟨hs, fun hsame => hother ?_⟩, rfl⟩
      simpa [TipRow.key, TipRow.ofSource] using hsame

/-- The fragments of the old tip are not recalled any more. -/
theorem mem_tipFragmentRows_iff (hc : Constraints db) (hverified : IndexVerified db)
    (hstored : SourceStored db db' source) {f : FragmentRow} :
    f ∈ tipFragmentRows db' ↔ f ∈ tipFragmentRows db ∧ ∀ tip ∈ db.tips,
      tip.key = (source.params.namespaceId, source.params.lineageId) →
        f.sourceId ≠ tip.sourceId := by
  obtain ⟨-, hfragments, -⟩ := hstored.frame
  simp only [mem_tipFragmentRows, isActiveTip_iff, hfragments, hstored.mem_tips hc,
    hstored.mem_sources]
  constructor
  · rintro ⟨hf, hactive, s, hs, hid, hsactive, htip⟩
    obtain ⟨t, ht, htid⟩ := hc.fragmentSources f hf
    have hne : s.sourceId ≠ source.params.sourceId :=
      fun heq => hstored.added.fresh t ht (htid.trans (hid.symm.trans heq))
    have hs : s ∈ db.sources := by
      rcases hs with hs | rfl
      · exact hs
      · exact absurd rfl hne
    obtain ⟨htip, hkey⟩ : TipRow.ofSource s ∈ db.tips ∧ _ := by
      rcases htip with htip | htip
      · exact absurd (congrArg TipRow.sourceId htip) hne
      · exact htip
    refine ⟨⟨hf, hactive, s, hs, hid, hsactive, htip⟩, fun tip hmem hlineage heq => hkey ?_⟩
    obtain ⟨u, hu, rfl⟩ := (hverified.tips tip).1 hmem
    have hsame : s = u :=
      hc.sourceIds.eq_of_mem hs (mem_newestActiveRows.1 hu).1 (hid.trans heq)
    rw [hsame]
    exact hlineage
  · rintro ⟨⟨hf, hactive, s, hs, hid, hsactive, htip⟩, hother⟩
    exact ⟨hf, hactive, s, .inl hs, hid, hsactive, .inr ⟨htip, fun hkey =>
      hother _ htip hkey hid.symm⟩⟩

theorem recallAsked_iff (hc : Constraints db) (hverified : IndexVerified db)
    (hstored : SourceStored db db' source) {row : RecallRow} :
    RecallAsked db' row ↔ row ∈ db'.recallFts := by
  have hgrows := hstored.grows
  rw [hstored.mem_recallFts hc, hverified.recallFts, RecallAsked, RecallAsked,
    hgrows.memories.activeRecordRows_eq]
  constructor
  · rintro (⟨f, hf, hload⟩ | ⟨r, hr, hload⟩)
    · obtain ⟨hf, hother⟩ := (mem_tipFragmentRows_iff hc hverified hstored).1 hf
      obtain ⟨resolved, hloaded, rfl⟩ :=
        (hgrows.exists_fragment_iff hverified.readable hf).1 hload
      refine ⟨.inl ⟨f, hf, resolved, hloaded, rfl⟩, ?_⟩
      rintro tip htip hkey ⟨-, g, hg, hgsource, hgid⟩
      have hid : g.fragmentId = f.fragmentId := hgid.trans (fragmentId_of_load hloaded)
      have hsame := hc.fragmentIds.eq_of_mem hg (mem_tipFragmentRows.1 hf).1 hid
      exact hother tip htip hkey (hsame ▸ hgsource)
    · obtain ⟨closure, hloaded, hrecallable, rfl⟩ :=
        (hgrows.exists_record_iff hverified.readable hr).1 hload
      refine ⟨.inr ⟨r, hr, closure, hloaded, hrecallable, rfl⟩, ?_⟩
      rintro tip htip hkey ⟨hkind, -⟩
      cases hkind
  · rintro ⟨⟨f, hf, resolved, hload, rfl⟩ | ⟨r, hr, hload⟩, hkept⟩
    · have hf' : f ∈ tipFragmentRows db' := by
        refine (mem_tipFragmentRows_iff hc hverified hstored).2 ⟨hf, fun tip htip hkey heq => ?_⟩
        exact hkept tip htip hkey
          ⟨rfl, f, (mem_tipFragmentRows.1 hf).1, heq, (fragmentId_of_load hload).symm⟩
      exact .inl ⟨f, hf', resolved, hgrows.fragment _ _ _ hload, rfl⟩
    · exact .inr ⟨r, hr, (hgrows.exists_record_iff hverified.readable hr).2 hload⟩

/-- The index stays verified when the stored source is the new tip. -/
theorem indexVerified (h : TakesTip db source) (hc : Constraints db)
    (hverified : IndexVerified db) (hstored : SourceStored db db' source) : IndexVerified db' := by
  have hgrows := hstored.grows
  have hread := hverified.readable
  obtain ⟨-, -, -, -, -, hprojection⟩ := hstored.frame
  refine ⟨⟨fun s hs => ?_, fun f hf => ?_, fun r hr => ?_⟩, ?_, ?_, fun tip => ?_, fun row => ?_,
    fun row => (recallAsked_iff hc hverified hstored).symm⟩
  · rcases (h.mem_newestActiveRows_iff hstored).1 hs with rfl | ⟨hs, -⟩
    · exact ⟨source, hstored.loads hc h.active⟩
    · obtain ⟨loaded, hload⟩ := hread.sources s hs
      exact ⟨loaded, hgrows.source _ _ _ hload⟩
  · obtain ⟨resolved, hload⟩ :=
      hread.fragments f ((mem_tipFragmentRows_iff hc hverified hstored).1 hf).1
    exact ⟨resolved, hgrows.fragment _ _ _ hload⟩
  · rw [hgrows.memories.activeRecordRows_eq] at hr
    obtain ⟨closure, hload⟩ := hread.records r hr
    exact ⟨closure, hgrows.closure hload⟩
  · rw [hprojection]
    exact hverified.projectionKeys
  · rcases hstored.added.tip with ⟨-, -, rfl⟩ | ⟨current, -, -, -, -, rfl⟩
    · exact hverified.recallKeys
    · exact hverified.recallKeys.deleteWhere
  · rw [hstored.mem_tips hc, h.tipAsked_iff hstored, hverified.tips]
  · rw [hprojection, hverified.projection, hgrows.projectionAsked_iff hread]

/-- A stored source that is not the new tip leaves a tip that nothing asks for. -/
theorem of_verified (hstored : SourceStored db db' source) (hc : Constraints db)
    (h : verifyDerivedIndex db' = .ok ()) : TakesTip db source := by
  obtain ⟨resolved, records, hread, -⟩ := verifyDerivedIndex_eq_ok h
  obtain ⟨s, hs, hactive, hnewest, heq⟩ := hread.tips_active ((hstored.mem_tips hc).2 (.inl rfl))
  have hid : s.sourceId = source.params.sourceId := (congrArg TipRow.sourceId heq).symm
  have hrow : s = SourceRow.ofArtifact source.params := by
    rcases hstored.mem_sources.1 hs with hs | hs
    · exact absurd hid (hstored.added.fresh s hs)
    · exact hs
  subst hrow
  refine ⟨hactive, fun t ht hns hlineage => lt_of_le_of_ne ?_ fun hversion => ?_⟩
  · exact isNewestVersion_iff.1 hnewest t (hstored.mem_sources.2 (.inl ht)) ⟨hns, hlineage⟩
  · refine hstored.added.freshVersion t ht ?_
    simp [SourceRow.versionKey, SourceRow.ofArtifact, hns, hlineage, hversion]

end TakesTip

/-! ## The bindings after a stored source -/

/-- No binding of the lineage of the source is left without its captured tip. -/
def BindingsClosed (db : Database) (source : SourceArtifact) : Prop :=
  ∀ b ∈ db.bindings, b.namespaceId = source.params.namespaceId →
    b.lineageId = source.params.lineageId →
      belongsToClosedPlan db source.params.namespaceId source.params.lineageId = true

namespace TakesTip

/-- The source takes away the binding that its lineage asked for, and no other. -/
theorem expectedBindingOf_eq (h : TakesTip db source) (hstored : SourceStored db db' source)
    {s : SourceRow} (hs : s ∈ db.sources) : expectedBindingOf db' s =
      (expectedBindingOf db s).filter fun entry =>
        !(entry.1.1 == source.params.namespaceId && entry.2 == source.params.lineageId) := by
  have hnewest : isNewestVersion db' s = true ↔ isNewestVersion db s = true ∧
      ¬ (s.namespaceId = source.params.namespaceId ∧ s.lineageId = source.params.lineageId) := by
    simp only [isNewestVersion_iff, hstored.mem_sources]
    constructor
    · refine fun hall => ⟨fun t ht => hall t (.inl ht), fun ⟨hns, hlineage⟩ => ?_⟩
      have hle := hall _ (.inr rfl) ⟨hns.symm, hlineage.symm⟩
      exact absurd (h.newest s hs hns hlineage) (not_lt.2 hle)
    · rintro ⟨hall, hother⟩ t (ht | rfl) hsame
      · exact hall t ht hsame
      · exact absurd ⟨hsame.1.symm, hsame.2.symm⟩ hother
  unfold expectedBindingOf
  simp only [hnewest]
  by_cases hasked : s.originKind = .explicitUserInput ∧ s.governance.deletionState = .active ∧
      isNewestVersion db s = true
  · rw [if_pos hasked]
    by_cases hother : s.namespaceId = source.params.namespaceId ∧
        s.lineageId = source.params.lineageId
    · rw [if_neg fun hall => hall.2.2.2 hother]
      cases s.originRef <;> simp [hother, Option.filter]
    · rw [if_pos ⟨hasked.1, hasked.2.1, hasked.2.2, hother⟩]
      have hkept : (!(s.namespaceId == source.params.namespaceId &&
          s.lineageId == source.params.lineageId)) = true := by
        rw [Bool.not_eq_true', ← Bool.not_eq_true, Bool.and_eq_true, beq_iff_eq, beq_iff_eq]
        exact hother
      cases s.originRef with
      | none => rfl
      | some originRef => exact (if_pos hkept).symm
  · rw [if_neg hasked, if_neg fun hall => hasked ⟨hall.1, hall.2.1, hall.2.2.1⟩]
    rfl

theorem expectedEntries_eq (h : TakesTip db source) (hstored : SourceStored db db' source) :
    expectedEntries db' = (expectedEntries db).filter fun entry =>
      !(entry.1.1 == source.params.namespaceId && entry.2 == source.params.lineageId) := by
  have hnew : expectedBindingOf db' (SourceRow.ofArtifact source.params) = none :=
    if_neg fun hasked => hstored.origin hasked.1
  rw [expectedEntries, expectedEntries, hstored.added.sources, List.filterMap_append,
    List.filterMap_cons_none hnew, List.filterMap_nil, List.append_nil, List.filter_filterMap]
  exact List.filterMap_congr fun s hs => h.expectedBindingOf_eq hstored hs

theorem mem_expectedEntries_iff (h : TakesTip db source) (hstored : SourceStored db db' source)
    {entry : BindingEntry} : entry ∈ expectedEntries db' ↔ entry ∈ expectedEntries db ∧
      ¬ (entry.1.1 = source.params.namespaceId ∧ entry.2 = source.params.lineageId) := by
  rw [h.expectedEntries_eq hstored, List.mem_filter, Bool.not_eq_true', ← Bool.not_eq_true,
    Bool.and_eq_true, beq_iff_eq, beq_iff_eq]

theorem belongsToClosedPlan_eq (hstored : SourceStored db db' source)
    (namespaceId lineageId : Identifier) : belongsToClosedPlan db' namespaceId lineageId =
      belongsToClosedPlan db namespaceId lineageId := by
  rw [Bool.eq_iff_iff, belongsToClosedPlan_iff, belongsToClosedPlan_iff]
  simp only [hstored.mem_sources]
  constructor
  · rintro ⟨s, hs | rfl, hrest⟩
    · exact ⟨s, hs, hrest⟩
    · exact absurd hrest.2.2.1 hstored.origin
  · rintro ⟨s, hs, hrest⟩
    exact ⟨s, .inl hs, hrest⟩

/-- The bindings stay verified exactly when the source takes none away. -/
theorem bindingsVerified_iff (h : TakesTip db source) (hstored : SourceStored db db' source)
    (hverified : BindingsVerified db) : BindingsVerified db' ↔ BindingsClosed db source := by
  obtain ⟨-, -, -, hbindings, -⟩ := hstored.frame
  constructor
  · intro hverified' b hb hns hlineage
    have hentry : bindingEntry b ∈ db'.bindings.map bindingEntry :=
      List.mem_map_of_mem (hbindings ▸ hb)
    rcases hverified'.asked _ hentry with hasked | hclosed
    · exact absurd ⟨hns, hlineage⟩ ((h.mem_expectedEntries_iff hstored).1 hasked).2
    · rw [belongsToClosedPlan_eq hstored] at hclosed
      rw [← hns, ← hlineage]
      exact hclosed
  · intro hclosed
    refine ⟨?_, fun entry hentry => ?_, ?_, fun entry hentry => ?_, fun entry hentry => ?_⟩
    · rw [h.expectedEntries_eq hstored]
      exact hverified.expectedKeys.filter
    · exact hverified.valid entry ((h.mem_expectedEntries_iff hstored).1 hentry).1
    · rw [hbindings]
      exact hverified.actualKeys
    · rw [hbindings]
      exact hverified.kept entry ((h.mem_expectedEntries_iff hstored).1 hentry).1
    · rw [hbindings] at hentry
      rw [h.mem_expectedEntries_iff hstored, belongsToClosedPlan_eq hstored]
      by_cases hsame : entry.1.1 = source.params.namespaceId ∧
          entry.2 = source.params.lineageId
      · obtain ⟨b, hb, rfl⟩ := List.mem_map.1 hentry
        refine .inr ?_
        rw [hsame.1, hsame.2]
        exact hclosed b hb hsame.1 hsame.2
      · exact (hverified.asked entry hentry).imp_left fun hasked => ⟨hasked, hsame⟩

end TakesTip

/-! ## Captured files after a stored source -/

/-- A captured file that is read with the same fragments and audit is kept. -/
theorem CapturedFile.stays {s : SourceRow} (h : CapturedFile db s) (hgrows : Grows db db')
    (hfragments : ∀ loaded : SourceArtifact, loaded.params.sourceId = s.sourceId →
      loadFragmentsForSource db' loaded = loadFragmentsForSource db loaded)
    (haudit : db'.captureAudit = db.captureAudit) : CapturedFile db' s := by
  obtain ⟨originRef, loaded, pieces, horigin, hvalid, hload, hpieces, hpartition, hmatches⟩ := h
  have hid : loaded.params.sourceId = s.sourceId :=
    (loadSourceArtifact_eq_ok_iff.1 hload).2.2.1
  refine ⟨originRef, loaded, pieces, horigin, hvalid, hgrows.source _ _ _ hload,
    (hfragments loaded hid).trans hpieces, hpartition, ?_⟩
  rw [auditMatches, haudit]
  exact hmatches

theorem SourceStored.capturedFile (hstored : SourceStored db db' source) {s : SourceRow}
    (h : CapturedFile db s) : CapturedFile db' s := by
  obtain ⟨-, hfragments, hheadings, -, haudit, -⟩ := hstored.frame
  refine h.stays hstored.grows (fun loaded _ => ?_) haudit
  have hone : loadStoredFragment db' loaded = loadStoredFragment db loaded := by
    funext row
    rw [loadStoredFragment, loadStoredFragment, loadHeadingPath, loadHeadingPath, hheadings]
  rw [loadFragmentsForSource, loadFragmentsForSource, activeFragmentRows, activeFragmentRows,
    hfragments, hone]

theorem TakesTip.originsKept_iff (h : TakesTip db source) (hstored : SourceStored db db' source)
    (hkept : OriginsKept db) : OriginsKept db' ↔ BindingsClosed db source := by
  rw [← h.bindingsVerified_iff hstored hkept.bindings]
  refine ⟨OriginsKept.bindings, fun hbindings => ⟨hbindings, fun s hs hexplicit hactive => ?_⟩⟩
  rcases hstored.mem_sources.1 hs with hs | rfl
  · exact hstored.capturedFile (hkept.files s hs hexplicit hactive)
  · exact absurd hexplicit hstored.origin

/-! ## The index after stored fragments -/

namespace FragmentsAdded

variable {fragments : List SourceFragment}


/-! ## The index after stored fragments -/

theorem isTip_iff : db.isTip source = true ↔
    TipRow.ofSource (SourceRow.ofArtifact source.params) ∈ db.tips := by
  simp only [Database.isTip, List.any_eq_true, Bool.and_eq_true, beq_iff_eq]
  constructor
  · rintro ⟨tip, htip, ⟨⟨hns, hlineage⟩, hid⟩, hversion⟩
    have heq : TipRow.ofSource (SourceRow.ofArtifact source.params) = tip := by
      simp [TipRow.ofSource, SourceRow.ofArtifact, ← hns, ← hlineage, ← hid, ← hversion]
    rw [heq]
    exact htip
  · intro htip
    exact ⟨_, htip, ⟨⟨rfl, rfl⟩, rfl⟩, rfl⟩

/-- The stored fragments that are recalled. -/
theorem recallsFragment_iff (h : FragmentsAdded db db' source fragments) {f : SourceFragment} :
    db.recallsFragment source f = true ↔ f.params.governance.deletionState = .active ∧
      TipRow.ofSource (SourceRow.ofArtifact source.params) ∈ db.tips := by
  simp only [Database.recallsFragment, Bool.and_eq_true, beq_iff_eq, h.active, and_true, isTip_iff]

theorem mem_tipFragmentRows_iff (hc : Constraints db)
    (h : FragmentsAdded db db' source fragments) {row : FragmentRow} :
    row ∈ tipFragmentRows db' ↔ row ∈ tipFragmentRows db ∨ ∃ f ∈ fragments,
      db.recallsFragment source f = true ∧ FragmentRow.ofFragment f.params = row := by
  have hsources : db'.sources = db.sources := by rw [h.result]; rfl
  have htips : db'.tips = db.tips := by rw [h.result]; rfl
  simp only [mem_tipFragmentRows, isActiveTip_iff, h.mem_fragments, hsources, htips,
    h.recallsFragment_iff]
  constructor
  · rintro ⟨hrow | ⟨f, hf, rfl⟩, hactive, s, hs, hid, hsactive, htip⟩
    · exact .inl ⟨hrow, hactive, s, hs, hid, hsactive, htip⟩
    · have hsame : s = SourceRow.ofArtifact source.params :=
        hc.sourceIds.eq_of_mem hs h.stored (hid.trans (h.source_of_mem hf).1)
      subst hsame
      exact .inr ⟨f, hf, ⟨hactive, htip⟩, rfl⟩
  · rintro (⟨hrow, hrest⟩ | ⟨f, hf, ⟨hactive, htip⟩, rfl⟩)
    · exact ⟨.inl hrow, hrest⟩
    · exact ⟨.inr ⟨f, hf, rfl⟩, hactive, _, h.stored, (h.source_of_mem hf).1.symm, h.active, htip⟩

theorem mem_recallFts (h : FragmentsAdded db db' source fragments) {row : RecallRow} :
    row ∈ db'.recallFts ↔ row ∈ db.recallFts ∨ ∃ f ∈ fragments,
      db.recallsFragment source f = true ∧ RecallRow.ofFragment f = row := by
  rw [h.result, Database.addFragments, List.mem_append, List.mem_map]
  simp only [List.mem_filter, and_assoc]

theorem recallAsked_iff (h : FragmentsAdded db db' source fragments) (hc : Constraints db)
    (hverified : IndexVerified db) {row : RecallRow} :
    RecallAsked db' row ↔ row ∈ db'.recallFts := by
  have hgrows := h.grows
  have hload := fun f (hf : f ∈ fragments) (hrecalled : db.recallsFragment source f = true) =>
    h.loads_fragment hc hf (h.recallsFragment_iff.1 hrecalled).1
  rw [h.mem_recallFts, hverified.recallFts, RecallAsked, RecallAsked,
    hgrows.memories.activeRecordRows_eq]
  constructor
  · rintro (⟨row, hrow, resolved, hresolved, rfl⟩ | ⟨r, hr, hrecord⟩)
    · rcases (h.mem_tipFragmentRows_iff hc).1 hrow with hrow | ⟨f, hf, hrecalled, rfl⟩
      · exact .inl (.inl ⟨row, hrow,
          (hgrows.exists_fragment_iff hverified.readable hrow).1 ⟨resolved, hresolved, rfl⟩⟩)
      · have hsame := hresolved.symm.trans (hload f hf hrecalled)
        rw [Except.ok.injEq, Option.some.injEq] at hsame
        exact .inr ⟨f, hf, hrecalled, by rw [hsame]⟩
    · exact .inl (.inr ⟨r, hr, (hgrows.exists_record_iff hverified.readable hr).1 hrecord⟩)
  · rintro ((⟨row, hrow, hfragment⟩ | ⟨r, hr, hrecord⟩) | ⟨f, hf, hrecalled, rfl⟩)
    · exact .inl ⟨row, (h.mem_tipFragmentRows_iff hc).2 (.inl hrow),
        (hgrows.exists_fragment_iff hverified.readable hrow).2 hfragment⟩
    · exact .inr ⟨r, hr, (hgrows.exists_record_iff hverified.readable hr).2 hrecord⟩
    · exact .inl ⟨_, (h.mem_tipFragmentRows_iff hc).2 (.inr ⟨f, hf, hrecalled, rfl⟩), _,
        hload f hf hrecalled, rfl⟩

/-- The key of a stored fragment is new to the full-text table. -/
theorem recallKeys (h : FragmentsAdded db db' source fragments) (hverified : IndexVerified db) :
    UniqueBy RecallRow.key db'.recallFts := by
  rw [h.result, Database.addFragments]
  refine hverified.recallKeys.append ?_ fun new hnew row hrow heq => ?_
  · rw [UniqueBy, List.map_map]
    exact UniqueBy.map_comp (UniqueBy.filter h.fresh.distinct)
      fun f g => by simp [RecallRow.ofFragment, RecallKey.source]
  · obtain ⟨f, hf, rfl⟩ := List.mem_map.1 hnew
    rcases (hverified.recallFts row).1 hrow with ⟨g, hg, resolved, hload, rfl⟩ |
      ⟨r, -, closure, -, -, rfl⟩
    · refine h.fresh.ids f (List.mem_filter.1 hf).1 g (mem_tipFragmentRows.1 hg).1 ?_
      rw [← fragmentId_of_load hload]
      exact congrArg RecallKey.objectId heq
    · cases congrArg RecallKey.objectKind heq

/-- The index stays verified whatever fragments are stored. -/
theorem indexVerified (h : FragmentsAdded db db' source fragments) (hc : Constraints db)
    (hverified : IndexVerified db) : IndexVerified db' := by
  have hgrows := h.grows
  have hread := hverified.readable
  have hsources : db'.sources = db.sources := by rw [h.result]; rfl
  have htips : db'.tips = db.tips := by rw [h.result]; rfl
  have hprojection : db'.projection = db.projection := by rw [h.result]; rfl
  have hnewest : newestActiveRows db' = newestActiveRows db := by rw [h.result]; rfl
  refine ⟨⟨fun s hs => ?_, fun row hrow => ?_, fun r hr => ?_⟩, ?_, h.recallKeys hverified,
    fun tip => ?_, fun row => ?_, fun row => (h.recallAsked_iff hc hverified).symm⟩
  · rw [hnewest] at hs
    obtain ⟨loaded, hload⟩ := hread.sources s hs
    exact ⟨loaded, hgrows.source _ _ _ hload⟩
  · rcases (h.mem_tipFragmentRows_iff hc).1 hrow with hrow | ⟨f, hf, hrecalled, rfl⟩
    · obtain ⟨resolved, hload⟩ := hread.fragments row hrow
      exact ⟨resolved, hgrows.fragment _ _ _ hload⟩
    · exact ⟨_, h.loads_fragment hc hf (h.recallsFragment_iff.1 hrecalled).1⟩
  · rw [hgrows.memories.activeRecordRows_eq] at hr
    obtain ⟨closure, hload⟩ := hread.records r hr
    exact ⟨closure, hgrows.closure hload⟩
  · rw [hprojection]
    exact hverified.projectionKeys
  · rw [htips, hverified.tips, TipAsked, TipAsked, hnewest]
  · rw [hprojection, hverified.projection, hgrows.projectionAsked_iff hread]

/-! ## Captured files after stored fragments -/

theorem activeFragmentRows_eq (h : FragmentsAdded db db' source fragments) {sourceId : Identifier}
    (hnone : ∀ f ∈ fragments, f.params.sourceId = sourceId →
      f.params.governance.deletionState ≠ .active) :
    activeFragmentRows db' sourceId = activeFragmentRows db sourceId := by
  have hnew : (fragments.map fun f => FragmentRow.ofFragment f.params).filter (fun row =>
      row.sourceId == sourceId && row.governance.deletionState == .active) = [] := by
    refine List.filter_eq_nil_iff.2 fun row hrow => ?_
    obtain ⟨f, hf, rfl⟩ := List.mem_map.1 hrow
    rw [Bool.and_eq_true, beq_iff_eq, beq_iff_eq]
    rintro ⟨hsource, hactive⟩
    exact hnone f hf hsource hactive
  rw [activeFragmentRows, activeFragmentRows, h.result, Database.addFragments,
    List.filter_append, hnew, List.append_nil]

theorem loadFragments_stay (h : FragmentsAdded db db' source fragments) {loaded : SourceArtifact}
    (hnone : ∀ f ∈ fragments, f.params.sourceId = loaded.params.sourceId →
      f.params.governance.deletionState ≠ .active) :
    loadFragmentsForSource db' loaded = loadFragmentsForSource db loaded := by
  rw [loadFragmentsForSource, loadFragmentsForSource, h.activeFragmentRows_eq hnone]
  refine List.mapM_congr_of_mem fun row hrow => ?_
  rw [loadStoredFragment, loadStoredFragment, h.headings_of_old (mem_activeFragmentRows.1 hrow).1]

theorem byteStart_lt_contentLength {f : SourceFragment}
    (h : sliceBytes source.params.content.asStr f.params.byteStart f.params.byteEnd =
      some f.params.content.asStr) : f.params.byteStart < source.params.contentLength := by
  obtain ⟨-, front, back, hcontent, hfront, hslice⟩ := sliceBytes_eq_some_iff.1 h
  have hrange := f.range.1
  rw [source.contentLength_eq, hcontent, byteLength_append, byteLength_append, hfront, hslice]
  omega

/-- The fragments of a captured file have no room for another. -/
theorem not_active (h : FragmentsAdded db db' source fragments)
    (hbefore : CapturedFile db (SourceRow.ofArtifact source.params))
    (hafter : CapturedFile db' (SourceRow.ofArtifact source.params)) {f : SourceFragment}
    (hf : f ∈ fragments) : f.params.governance.deletionState ≠ .active := by
  intro hactive
  have hloaded' : loadSourceArtifact db' source.params.namespaceId source.params.sourceId =
      .ok (some source) := by
    rw [h.loadSource_eq]
    exact h.loaded
  obtain ⟨pieces, hpieces, hpartition⟩ := hbefore.pieces h.loaded
  obtain ⟨pieces', hpieces', hpartition'⟩ := hafter.pieces hloaded'
  -- the place of the new fragment is taken by an old one, and both are pieces now
  have hslice := (validateSourceFragmentResolution_eq_ok_iff.1 (h.resolved f hf)).2.2.2.2
  obtain ⟨g, hg, hstart, hend⟩ :=
    hpartition.abut.covers (Nat.zero_le _) (byteStart_lt_contentLength hslice)
  have hgrow : FragmentRow.ofFragment g.params ∈ activeFragmentRows db source.params.sourceId := by
    rw [hpieces]
    exact List.mem_map_of_mem hg
  obtain ⟨hgmem, hgsource, hgactive⟩ := mem_activeFragmentRows.1 hgrow
  obtain ⟨g', hg', hgeq⟩ : ∃ g' ∈ pieces', FragmentRow.ofFragment g'.params =
      FragmentRow.ofFragment g.params := by
    rw [← List.mem_map, ← hpieces', mem_activeFragmentRows, h.mem_fragments]
    exact ⟨.inl hgmem, hgsource, hgactive⟩
  obtain ⟨f', hf', hfeq⟩ : ∃ f' ∈ pieces', FragmentRow.ofFragment f'.params =
      FragmentRow.ofFragment f.params := by
    rw [← List.mem_map, ← hpieces', mem_activeFragmentRows, h.mem_fragments]
    exact ⟨.inr ⟨f, hf, rfl⟩, (h.source_of_mem hf).1, hactive⟩
  have hne : g' ≠ f' := by
    rintro rfl
    exact h.fresh.ids f hf _ hgmem (congrArg FragmentRow.fragmentId (hgeq.symm.trans hfeq))
  have hapart := hpartition'.abut.apart hg' hf' hne
  have hgstart : g'.params.byteStart = g.params.byteStart := congrArg FragmentRow.byteStart hgeq
  have hgend : g'.params.byteEnd = g.params.byteEnd := congrArg FragmentRow.byteEnd hgeq
  have hfstart : f'.params.byteStart = f.params.byteStart := congrArg FragmentRow.byteStart hfeq
  have hfrange := f'.range.1
  omega

end FragmentsAdded

/-! ## The three writes -/

/-- Exactly when a stored source keeps a verified library verified. -/
structure KeepsVerified (db : Database) (source : SourceArtifact) : Prop where
  tip : TakesTip db source
  bindings : BindingsClosed db source

/-- No active fragment is stored for a captured file. -/
def SparesCapturedFiles (db : Database) (fragments : List SourceFragment) : Prop :=
  ∀ f ∈ fragments, f.params.governance.deletionState = .active →
    ∀ s ∈ db.sources, s.sourceId = f.params.sourceId → s.originKind ≠ .explicitUserInput

theorem verifyRecallDerivations_eq_ok_iff (hc : Constraints db) :
    verifyRecallDerivations db = .ok () ↔ OriginsKept db ∧ IndexVerified db := by
  simp only [verifyRecallDerivations, Except.bind_eq_ok_iff, Except.exists_unit_iff,
    verifyOriginBindings_eq_ok_iff hc.sourceIds, verifyDerivedIndex_eq_ok_iff hc]

theorem storeSourceArtifact_verified_iff (hc : Constraints db)
    (hverified : verifyRecallDerivations db = .ok ())
    (h : storeSourceArtifact db source = .ok db') :
    verifyRecallDerivations db' = .ok () ↔ KeepsVerified db source := by
  have hstored := storeSourceArtifact_stored h
  have hc' := hc.sourceAdded hstored.added
  obtain ⟨hkept, hindex⟩ := (verifyRecallDerivations_eq_ok_iff hc).1 hverified
  rw [verifyRecallDerivations_eq_ok_iff hc']
  constructor
  · rintro ⟨hkept', hindex'⟩
    have htip := TakesTip.of_verified hstored hc ((verifyDerivedIndex_eq_ok_iff hc').2 hindex')
    exact ⟨htip, (htip.originsKept_iff hstored hkept).1 hkept'⟩
  · rintro ⟨htip, hclosed⟩
    exact ⟨(htip.originsKept_iff hstored hkept).2 hclosed, htip.indexVerified hc hindex hstored⟩

theorem storeSourceFragments_verified_iff {fragments : List SourceFragment} (hc : Constraints db)
    (hverified : verifyRecallDerivations db = .ok ())
    (h : storeSourceFragments db fragments = .ok db') :
    verifyRecallDerivations db' = .ok () ↔ SparesCapturedFiles db fragments := by
  obtain ⟨source, hadded⟩ := fragmentsAdded_of_insert h
  have hc' := hc.fragmentsAdded hadded
  have hsources : db'.sources = db.sources := by rw [hadded.result]; rfl
  obtain ⟨hkept, hindex⟩ := (verifyRecallDerivations_eq_ok_iff hc).1 hverified
  rw [verifyRecallDerivations_eq_ok_iff hc']
  constructor
  · rintro ⟨hkept', -⟩ f hf hactive s hs hid hexplicit
    have hsame : s = SourceRow.ofArtifact source.params :=
      hc.sourceIds.eq_of_mem hs hadded.stored (hid.trans (hadded.source_of_mem hf).1)
    subst hsame
    exact hadded.not_active (hkept.files _ hs hexplicit hadded.active)
      (hkept'.files _ (hsources ▸ hs) hexplicit hadded.active) hf hactive
  · intro hspares
    have hbindings : BindingsVerified db' := by
      rw [hadded.result]
      exact ⟨hkept.bindings.expectedKeys, hkept.bindings.valid, hkept.bindings.actualKeys,
        hkept.bindings.kept, hkept.bindings.asked⟩
    refine ⟨⟨hbindings, fun s hs hexplicit hactive => ?_⟩, hadded.indexVerified hc hindex⟩
    rw [hsources] at hs
    refine (hkept.files s hs hexplicit hactive).stays hadded.grows (fun loaded hloaded => ?_) ?_
    · refine hadded.loadFragments_stay fun f hf hid hfactive => ?_
      exact hspares f hf hfactive s hs (hloaded.symm.trans hid.symm) hexplicit
    · rw [hadded.result]
      rfl

/-- Which writes of sources keep a verified library verified. -/
structure VerifiedWrites (db : Database) : Prop where
  capture : ∀ capture db' result, captureSource db capture = .ok (db', result) →
    verifyRecallDerivations db' = .ok ()
  source : Constraints db → verifyRecallDerivations db = .ok () → ∀ source db',
    storeSourceArtifact db source = .ok db' →
      (verifyRecallDerivations db' = .ok () ↔ KeepsVerified db source)
  fragments : Constraints db → verifyRecallDerivations db = .ok () → ∀ fragments db',
    storeSourceFragments db fragments = .ok db' →
      (verifyRecallDerivations db' = .ok () ↔ SparesCapturedFiles db fragments)

/-- A capture keeps the library verified; a stored source does when it becomes the newest version
and leaves no binding behind, and stored fragments do when none is added to a captured file. -/
theorem writes_verified (db : Database) : VerifiedWrites db where
  capture capture db' result h := by
    obtain ⟨hindex, hbindings, -⟩ := captureSource_eq_ok h
    rw [verifyRecallDerivations, hbindings]
    exact hindex
  source hc hverified _ _ h := storeSourceArtifact_verified_iff hc hverified h
  fragments hc hverified _ _ h := storeSourceFragments_verified_iff hc hverified h

end Writes

section Run

open Sample

/-- A captured file gets a second fragment over its bytes, and is not verified any more. -/
theorem overlapping_fragment_unverified :
    ∃ db db', verifyRecallDerivations db = .ok () ∧
      storeSourceFragments db [overlapping] = .ok db' ∧ verifyRecallDerivations db' ≠ .ok () := by
  have hbefore : verifyRecallDerivations (runOps .empty [captureFirst]) = .ok () := by
    decide +kernel
  have hafter : (storeSourceFragments (runOps .empty [captureFirst]) [overlapping]).toOption.map
      (fun db => (verifyRecallDerivations db).toOption) = some none := by
    decide +kernel
  cases h : storeSourceFragments (runOps .empty [captureFirst]) [overlapping] with
  | error e =>
    rw [h] at hafter
    cases hafter
  | ok db' =>
    refine ⟨_, db', hbefore, h, fun hverified => ?_⟩
    rw [h] at hafter
    have hnone : (verifyRecallDerivations db').toOption = none := Option.some.inj hafter
    rw [hverified] at hnone
    cases hnone

end Run

end RadishMemory
