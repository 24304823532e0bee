import RadishMemory.Properties.Growth

/-!
# What is active can be read

What an operation stores is readable at once, and `Properties.ReadBack` keeps it readable.
-/

namespace RadishMemory

variable [Platform] {db db' : Database}

/-! ## What was just stored -/

/-- A stored active source loads. -/
theorem SourceAdded.loads (h : LibraryInvariant db)
    (hbodies : References BodyRow.sourceId db.bodies SourceRow.sourceId db.sources)
    {source : SourceArtifact} (hadded : SourceAdded db db' source)
    (hactive : source.params.governance.deletionState = .active) :
    loadSourceArtifact db' source.params.namespaceId source.params.sourceId =
      .ok (some source) := by
  have hc := h.constraints
  have happlies : (Change.source source).Applies db db' := hadded
  have hfresh : ∀ {α : Type} {fk : α → Identifier} {rows : List α},
      References fk rows SourceRow.sourceId db.sources →
        ∀ r ∈ rows, fk r ≠ source.params.sourceId := by
    intro α fk rows hrefs r hr heq
    obtain ⟨s, hs, hid⟩ := hrefs r hr
    exact hadded.fresh s hs (hid.trans heq)
  refine loadSourceArtifact_eq_ok_iff.2 ⟨⟨?_, ?_, ?_, ?_⟩, rfl, rfl, hactive⟩
  · rw [hadded.sources]
    exact lookup_append_singleton hadded.fresh
  · rw [happlies.bodies hc]
    refine lookup_append_singleton fun r hr => ?_
    exact hfresh hbodies r (List.mem_filter.1 hr).1
  · rw [loadSupersededIds, happlies.sourceSupersedes hc]
    exact loadChildren_append_enumerate (hfresh hc.supersedesSources)
  · intro id hid
    rcases hadded.tip with ⟨-, hfirst, -⟩ | ⟨current, hcurrent, hnext, hids, -⟩
    · have hnone : source.params.supersedesSourceIds = [] := by
        have hvalid := source.valid
        simp only [SourceArtifactParams.check, Except.bind_eq_ok_iff, Except.exists_unit_iff,
          require_eq_ok_iff] at hvalid
        exact hvalid.2.2.2.2.2.1 hfirst
      rw [hnone] at hid
      cases hid
    · obtain ⟨s, hs, rfl⟩ := h.tipSources current (lookup_mem hcurrent)
      have hkey := lookup_key hcurrent
      simp only [TipRow.key, TipRow.ofSource, Prod.mk.injEq] at hkey
      rw [hids, List.mem_singleton] at hid
      refine ⟨s, ?_, ?_⟩
      · rw [hadded.sources, hid]
        exact lookup_append_of_some (lookup_of_mem hc.sourceIds hs)
      · simp only [supersededSourceMatches, Bool.and_eq_true, beq_iff_eq, decide_eq_true_eq]
        refine ⟨hkey, ?_⟩
        rw [hnext]
        exact Nat.lt_succ_self _

/-! ## Libraries that can be read -/

/-- Every active source and fragment can be read. -/
structure ReadableLibrary (db : Database) : Prop extends PlannedLibrary db where
  bodies : References BodyRow.sourceId db.bodies SourceRow.sourceId db.sources
  sources : ∀ s ∈ db.sources, s.governance.deletionState = .active →
    ∃ source, loadSourceArtifact db s.namespaceId s.sourceId = .ok (some source)
  fragments : ∀ f ∈ db.fragments, f.governance.deletionState = .active →
    ∃ resolved, loadResolvedSourceFragment db f.namespaceId f.fragmentId = .ok (some resolved)

namespace ReadableLibrary

theorem bodies_step (h : ReadableLibrary db) {c : Change} (happlies : c.Applies db db') :
    References BodyRow.sourceId db'.bodies SourceRow.sourceId db'.sources := by
  have hc := h.library.constraints
  intro b hb
  rcases (happlies.mem_bodies hc).1 hb with ⟨hb, -⟩ | hb
  · obtain ⟨s, hs, hid⟩ := h.bodies b hb
    exact ⟨_, (sourceTable_sound.mem_rows hc happlies).2 (.inl ⟨s, hs, rfl⟩),
      (sourceTable.on_id c s).trans hid⟩
  · cases c with
    | source new =>
      rw [List.mem_singleton.1 hb]
      exact ⟨_, (sourceTable_sound.mem_rows hc happlies).2 (.inr List.mem_cons_self), rfl⟩
    | _ => cases hb

theorem sources_step (h : ReadableLibrary db) {c : Change} (happlies : c.Applies db db') :
    ∀ s ∈ db'.sources, s.governance.deletionState = .active →
      ∃ source, loadSourceArtifact db' s.namespaceId s.sourceId = .ok (some source) := by
  have hc := h.library.constraints
  intro s hs hactive
  rcases (sourceTable_sound.mem_rows hc happlies).1 hs with ⟨old, hold, rfl⟩ | hnew
  · have hsame : sourceTable.on db c old = old := ClosedTable.on_eq_of_active
      (fun hopen => h.library.source_not_frozen hold hopen) hactive
    rw [hsame] at hs hactive ⊢
    obtain ⟨source, hload⟩ := h.sources old hold hactive
    exact ⟨source, loadSourceArtifact_stays h.toPlannedLibrary happlies hload
      ⟨old, hs, rfl, hactive⟩⟩
  · cases c with
    | source new =>
      rw [List.mem_singleton.1 hnew] at hactive ⊢
      exact ⟨new, SourceAdded.loads h.library h.bodies happlies hactive⟩
    | _ => cases hnew

theorem fragments_step (h : ReadableLibrary db) {c : Change} (happlies : c.Applies db db') :
    ∀ f ∈ db'.fragments, f.governance.deletionState = .active → ∃ resolved,
      loadResolvedSourceFragment db' f.namespaceId f.fragmentId = .ok (some resolved) := by
  have hc := h.library.constraints
  intro f hf hactive
  rcases (happlies.mem_fragments hc).1 hf with ⟨old, hold, -, rfl⟩ | hnew
  · have hid : (c.onFragment old).fragmentId = old.fragmentId := (c.onFragment_key old).1
    obtain ⟨-, -, hsame⟩ := happlies.fragment_row_stays hc hold ⟨_, hf, hid, hactive⟩
    rw [hsame] at hf hactive ⊢
    obtain ⟨resolved, hload⟩ := h.fragments old hold hactive
    exact ⟨resolved, loadResolvedSourceFragment_stays h.toPlannedLibrary happlies hload
      ⟨old, hf, rfl, hactive⟩⟩
  · cases c with
    | fragments source new =>
      obtain ⟨piece, hpiece, rfl⟩ := List.mem_map.1 hnew
      exact ⟨_, FragmentsAdded.loads_fragment happlies hc hpiece hactive⟩
    | _ => cases hnew

theorem step (h : ReadableLibrary db) {c : Change} (happlies : c.Applies db db') :
    ReadableLibrary db' :=
  ⟨h.toPlannedLibrary.step happlies, h.bodies_step happlies, h.sources_step happlies,
    h.fragments_step happlies⟩

/-- Every active source and fragment of a library that operations can produce can be read. -/
theorem of_run (ops : List Op) : ReadableLibrary (runOps .empty ops) := by
  refine runOps_invariant (fun _ _ h => Op.preserves (fun _ _ _ hP _ happlies => hP.step happlies)
    h.library.constraints.resultAttempts h) ?_ ops
  exact ⟨⟨LibraryInvariant.empty, fun _ hr => absurd hr List.not_mem_nil⟩,
    fun _ hb => absurd hb List.not_mem_nil, fun _ hs => absurd hs List.not_mem_nil,
    fun _ hf => absurd hf List.not_mem_nil⟩

end ReadableLibrary

end RadishMemory
