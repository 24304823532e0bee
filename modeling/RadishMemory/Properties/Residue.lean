import RadishMemory.Properties.Scope

/-!
# What a completed deletion leaves behind

For each component, what its success says about the library (`ResidueFree`): the rows it removes
are gone and the rows it redacts are redacted, and they stay so whatever happens later.  With
completed evidence every component has succeeded, so nothing of the deleted objects is left
(`completed_leaves_no_residue`).

Fragments need one condition.  A request freezes the *active* fragments of its sources, and
`store_source_fragments` also accepts fragments that are not active; these are in no closure and
survive the deletion of their source.
-/

namespace RadishMemory

section Library

variable [Platform] {db db' : Database}

/-! ## Redaction -/

namespace ClosedTable

variable {α : Type} {T : ClosedTable α}

/-- Every row that the request froze is redacted. -/
def AllRedacted (T : ClosedTable α) (Redacted : α → Prop) (db : Database) (D : Identifier) :
    Prop :=
  ∀ row ∈ T.rows db.toDataTables, Frozen db D T.component (T.id row) → Redacted row

variable {Redacted : α → Prop} (hredact : ∀ row, Redacted (T.redact row))
  (hstate : ∀ deletionState row, Redacted row → Redacted (T.setState deletionState row))

include hredact hstate

theorem redacted_on (c : Change) {row : α} (h : Redacted row) : Redacted (T.on db c row) := by
  unfold on
  split
  · split
    · exact hstate _ _ h
    · exact h
  · rename_i executed n componentType
    by_cases hfrozen : Frozen db executed.params.deleteRequestId T.component (T.id row)
    · rw [if_pos hfrozen]
      split
      · exact hredact row
      · split
        · exact hstate _ _ h
        · exact h
    · rw [if_neg hfrozen]
      exact h
  · exact h

theorem AllRedacted.step (hT : T.Sound) (hkept : T.Kept db) (hc : Constraints db) {c : Change}
    (happlies : c.Applies db db') {D : Identifier}
    (hD : ∃ r ∈ db.requests, r.deleteRequestId = D) (h : T.AllRedacted Redacted db D) :
    T.AllRedacted Redacted db' D := by
  intro row hrow hfrozen
  rw [happlies.frozen_iff hD] at hfrozen
  rcases (hT.mem_rows hc happlies).1 hrow with ⟨old, hold, rfl⟩ | hnew
  · rw [T.on_id] at hfrozen
    exact redacted_on hredact hstate c (h old hold hfrozen)
  · obtain ⟨old, hold, hid⟩ := hkept.stored _ _ hfrozen
    exact absurd hid (hT.fresh db db' c happlies row hnew old hold)

omit hstate in
theorem AllRedacted.of_component (hT : T.Sound) (hc : Constraints db) {executed : DeleteRequest}
    {n : Nat} (happlies : (Change.component executed n T.component).Applies db db')
    (hD : ∃ r ∈ db.requests, r.deleteRequestId = executed.params.deleteRequestId) :
    T.AllRedacted Redacted db' executed.params.deleteRequestId := by
  intro row hrow hfrozen
  rw [happlies.frozen_iff hD] at hfrozen
  rcases (hT.mem_rows hc happlies).1 hrow with ⟨old, hold, rfl⟩ | hnew
  · rw [T.on_id] at hfrozen
    have hon : T.on db (.component executed n T.component) old = T.redact old := by
      unfold on
      dsimp only
      rw [if_pos hfrozen, if_pos rfl]
    rw [hon]
    exact hredact old
  · rw [T.added_component] at hnew
    cases hnew

end ClosedTable

/-! ## What a component achieves -/

/-- The title and the origin are gone. -/
def SourceRow.IsRedacted (row : SourceRow) : Prop :=
  row.title = none ∧ row.originRef = none

/-- The text is the marker. -/
def contentIsRedacted (content : MemoryValueParams) : Prop :=
  content.text = redactionMarker ∧
    content.contentDigest.value = (computeNfcTextDigest redactionMarker.asStr).value

/-- What the success of a component says about the library, once and for all. -/
def ResidueFree (db : Database) (D : Identifier) : DeletionComponentType → Prop
  | .sourceBody => ∀ b ∈ db.bodies, ¬ Frozen db D .sourceMetadata b.sourceId
  | .sourceMetadata => sourceTable.AllRedacted SourceRow.IsRedacted db D
  | .sourceFragment => ∀ f ∈ db.fragments, Frozen db D .sourceFragment f.fragmentId →
      ¬ Frozen db D .sourceMetadata f.sourceId
  | .memoryProposal =>
      proposalTable.AllRedacted (fun row => contentIsRedacted row.content) db D ∧
      ∀ link ∈ db.proposalFragments, ¬ Frozen db D .memoryProposal link.owner
  | .memoryDecision => ∀ d ∈ db.decisions, Frozen db D .memoryDecision d.decisionId →
      d.reasonText = none
  | .memoryRecord =>
      recordTable.AllRedacted (fun row => contentIsRedacted row.content) db D ∧
      ∀ link ∈ db.recordFragments, ¬ Frozen db D .memoryRecord link.owner
  | .minimalAudit => ∀ s ∈ db.sources, Frozen db D .sourceMetadata s.sourceId →
      (∀ b ∈ db.bindings, b.namespaceId = s.namespaceId → b.lineageId ≠ s.lineageId) ∧
      ∀ a ∈ db.captureAudit, a.sourceId ≠ s.sourceId
  | .memoryStateEvent | .fullTextIndex | .contextCache => True

omit [Platform] in
theorem SourceRow.isRedacted_redact (row : SourceRow) : row.redact.IsRedacted := ⟨rfl, rfl⟩

theorem contentIsRedacted_redact (content : MemoryValueParams) :
    contentIsRedacted (redactContent content) := ⟨rfl, rfl⟩

/-- The id of a row that is being added is not frozen. -/
theorem ClosedTable.Kept.not_frozen {α : Type} {T : ClosedTable α} (hkept : T.Kept db)
    (hT : T.Sound) {c : Change} (happlies : c.Applies db db') {row : α} (hrow : row ∈ T.added c)
    (D : Identifier) : ¬ Frozen db D T.component (T.id row) := by
  intro hfrozen
  obtain ⟨old, hold, hid⟩ := hkept.stored _ _ hfrozen
  exact hT.fresh db db' c happlies row hrow old hold hid

/-- The fragments a change writes belong to a source that is not frozen. -/
theorem LibraryInvariant.new_fragment_not_frozen (h : LibraryInvariant db) {c : Change}
    (happlies : c.Applies db db') {f : FragmentRow} (hf : f ∈ c.newFragments) (D : Identifier) :
    ¬ Frozen db D .sourceMetadata f.sourceId := by
  cases c with
  | fragments owner new =>
    obtain ⟨g, hg, rfl⟩ := List.mem_map.1 hf
    have hadded : FragmentsAdded db db' owner new := happlies
    have hsource : g.params.sourceId = owner.params.sourceId :=
      (validateSourceFragmentResolution_eq_ok_iff.1 (hadded.resolved g hg)).1
    change ¬ Frozen db D .sourceMetadata g.params.sourceId
    rw [hsource]
    exact h.source_not_frozen hadded.stored hadded.active D
  | _ => cases hf

/-- A cleared reason stays cleared. -/
theorem Change.onDecision_reason (c : Change) {d : DecisionRow} (h : d.reasonText = none) :
    (c.onDecision db d).reasonText = none := by
  cases c with
  | component executed n componentType =>
    cases componentType with
    | memoryDecision =>
      simp only [Change.onDecision, onFrozen]
      split
      · rfl
      · exact h
    | _ => exact h
  | _ => exact h

/-- What a component achieved is never undone. -/
theorem ResidueFree.step (h : LibraryInvariant db) {c : Change} (happlies : c.Applies db db')
    {D : Identifier} (hD : ∃ r ∈ db.requests, r.deleteRequestId = D)
    {componentType : DeletionComponentType} (hfree : ResidueFree db D componentType) :
    ResidueFree db' D componentType := by
  have hc := h.constraints
  have hfrozen : ∀ {componentType id}, Frozen db' D componentType id ↔
      Frozen db D componentType id := happlies.frozen_iff hD
  cases componentType with
  | sourceBody =>
    intro b hb
    rw [hfrozen]
    rcases (happlies.mem_bodies hc).1 hb with ⟨hold, -⟩ | hnew
    · exact hfree b hold
    · cases c with
      | source new =>
        rw [List.mem_singleton.1 hnew]
        exact h.sourceKept.not_frozen sourceTable_sound happlies List.mem_cons_self D
      | _ => cases hnew
  | sourceMetadata =>
    exact ClosedTable.AllRedacted.step SourceRow.isRedacted_redact (fun _ _ hrow => hrow)
      sourceTable_sound h.sourceKept hc happlies hD hfree
  | sourceFragment =>
    intro f hf hid
    rw [hfrozen] at hid ⊢
    rcases (happlies.mem_fragments hc).1 hf with ⟨old, hold, -, rfl⟩ | hnew
    · obtain ⟨hfragment, hsource, -⟩ := c.onFragment_key old
      rw [hfragment] at hid
      rw [hsource]
      exact hfree old hold hid
    · exact h.new_fragment_not_frozen happlies hnew D
  | memoryProposal =>
    refine ⟨ClosedTable.AllRedacted.step (fun row => contentIsRedacted_redact row.content)
      (fun _ _ hrow => hrow) proposalTable_sound h.proposalKept hc happlies hD hfree.1, ?_⟩
    intro link hlink
    rw [hfrozen]
    rcases (happlies.mem_proposalFragments hc).1 hlink with ⟨hold, -⟩ | hnew
    · exact hfree.2 link hold
    · cases c with
      | proposal new =>
        rw [(mem_enumerate hnew).1]
        exact h.proposalKept.not_frozen proposalTable_sound happlies List.mem_cons_self D
      | _ => cases hnew
  | memoryDecision =>
    intro d hd hid
    rw [hfrozen] at hid
    rcases (happlies.mem_decisions hc).1 hd with ⟨old, hold, rfl⟩ | hnew
    · rw [(c.onDecision_key db old).1] at hid
      exact c.onDecision_reason (hfree old hold hid)
    · obtain ⟨old, hold, heq⟩ := h.closedDecisions D _ hid
      exact absurd heq (happlies.newDecisions_fresh d hnew old hold)
  | memoryRecord =>
    refine ⟨ClosedTable.AllRedacted.step (fun row => contentIsRedacted_redact row.content)
      (fun _ _ hrow => hrow) recordTable_sound h.recordKept hc happlies hD hfree.1, ?_⟩
    intro link hlink
    rw [hfrozen]
    rcases (happlies.mem_recordFragments hc).1 hlink with ⟨hold, -⟩ | hnew
    · exact hfree.2 link hold
    · cases c with
      | memory record initialEvent supersededEvents =>
        rw [(mem_enumerate hnew).1]
        exact h.recordKept.not_frozen recordTable_sound happlies List.mem_cons_self D
      | _ => cases hnew
  | minimalAudit =>
    intro s hs hid
    rw [hfrozen] at hid
    rcases (sourceTable_sound.mem_rows hc happlies).1 hs with ⟨old, hold, hon⟩ | hnew
    · have hplace : s.place = old.place := by
        rw [← hon]
        exact sourceTable_on_place c old
      simp only [SourceRow.place, Prod.mk.injEq] at hplace
      rw [hplace.1] at hid
      rw [hplace.1, hplace.2.1, hplace.2.2]
      obtain ⟨hbindings, haudits⟩ := hfree old hold hid
      refine ⟨fun b hb hns => ?_, fun a ha => ?_⟩
      · rcases (happlies.mem_bindings hc).1 hb with ⟨hb, -⟩ | hnew
        · exact hbindings b hb hns
        · cases c with
          | binding row =>
            -- A lineage with a tip has not been closed.
            obtain ⟨⟨tip, htip, hkey⟩, -⟩ := happlies
            obtain rfl := List.mem_singleton.1 hnew
            intro hlineage
            refine (h.closedLineages D old hold hid).1 tip htip ?_
            rw [hkey, hns, hlineage]
          | _ => cases hnew
      · rcases (happlies.mem_captureAudit hc).1 ha with ⟨ha, -⟩ | hnew
        · exact haudits a ha
        · cases c with
          | audit row =>
            obtain ⟨t, ht, htid, -, hactive, -⟩ := AuditAdded.source happlies
            obtain rfl := List.mem_singleton.1 hnew
            intro heq
            rw [← heq, ← htid] at hid
            exact h.source_not_frozen ht hactive D hid
          | _ => cases hnew
    · exact absurd hid (h.sourceKept.not_frozen sourceTable_sound happlies hnew D)
  | memoryStateEvent => trivial
  | fullTextIndex => trivial
  | contextCache => trivial

/-- The sources that the last component purges are the ones that the request froze. -/
theorem StoredPlan.frozen_audited {request : DeleteRequest} {closure : ExecutionClosure}
    (h : StoredPlan db request closure) {id : Identifier}
    (hfrozen : Frozen db request.params.deleteRequestId .sourceMetadata id) :
    ∃ c ∈ db.executionClosure, c.owner = (request.params.deleteRequestId, .minimalAudit) ∧
      c.value = ⟨.sourceArtifact, id⟩ := by
  rw [h.frozen_iff, ExecutionClosure.refs, mem_refSet_ids] at hfrozen
  refine (mem_of_loadChildren (h.loadExecutionClosure .minimalAudit)).1 ?_
  simp only [ExecutionClosure.refs, mem_refSet, List.mem_append, mem_refsOf]
  exact .inl ⟨trivial, hfrozen⟩

/-- Nothing is left of the entry state of a frozen source after the last component. -/
theorem ResidueFree.of_audit (h : PlannedLibrary db) {request : DeleteRequest}
    {closure : ExecutionClosure} (hplan : StoredPlan db request closure) {n : Nat}
    (happlies : (Change.component request n .minimalAudit).Applies db db')
    (hD : ∃ r ∈ db.requests, r.deleteRequestId = request.params.deleteRequestId) :
    ResidueFree db' request.params.deleteRequestId .minimalAudit := by
  have hc := h.library.constraints
  intro s hs hfrozen
  rw [happlies.frozen_iff hD] at hfrozen
  have hadded : sourceTable.added (.component request n .minimalAudit) = [] := rfl
  rcases (sourceTable_sound.mem_rows hc happlies).1 hs with ⟨old, hold, hon⟩ | hnew
  · have hplace : s.place = old.place := by
      rw [← hon]
      exact sourceTable_on_place _ old
    simp only [SourceRow.place, Prod.mk.injEq] at hplace
    rw [hplace.1] at hfrozen
    rw [hplace.1, hplace.2.1, hplace.2.2]
    have hns : old.namespaceId = request.params.namespaceId :=
      h.library.requestNamespaces _ (lookup_mem hplan.row) old hold hfrozen
    have hpurged : Purged db request.params.namespaceId request.params.deleteRequestId
        old.lineageId := ⟨old, hold, ⟨hns, rfl⟩, hplan.frozen_audited hfrozen⟩
    refine ⟨fun b hb hbns hlineage => ?_, fun a ha hid => ?_⟩
    · rcases (happlies.mem_bindings hc).1 hb with ⟨-, hstays⟩ | hnew
      · have hgone : bindingStays db request.params.namespaceId request.params.deleteRequestId
            b = false := by
          rw [bindingStays, hlineage]
          simp [hbns, hns, hpurged]
        rw [show (Change.component request n .minimalAudit).keepsBinding db b =
          bindingStays db request.params.namespaceId request.params.deleteRequestId b from rfl,
          hgone] at hstays
        cases hstays
      · cases hnew
    · rcases (happlies.mem_captureAudit hc).1 ha with ⟨ha, hstays⟩ | hnew
      · obtain ⟨t, ht, htid, htns, -⟩ := h.library.audits a ha
        obtain rfl := hc.sourceIds.eq_of_mem ht hold (htid.trans hid)
        have hgone : auditStays db request.params.namespaceId request.params.deleteRequestId
            a = false := by
          rw [auditStays, Bool.not_eq_false', Bool.or_eq_true]
          refine .inl ?_
          rw [Bool.and_eq_true, beq_iff_eq, List.any_eq_true]
          exact ⟨htns.symm.trans hns, t, ht, by simp [htid, hns, hpurged]⟩
        rw [show (Change.component request n .minimalAudit).keepsAudit db a =
          auditStays db request.params.namespaceId request.params.deleteRequestId a from rfl,
          hgone] at hstays
        cases hstays
      · cases hnew
  · rw [hadded] at hnew
    cases hnew

/-- A component that has just succeeded achieved what it is for. -/
theorem ResidueFree.of_component (h : PlannedLibrary db) {request : DeleteRequest} {n : Nat}
    {componentType : DeletionComponentType}
    (happlies : (Change.component request n componentType).Applies db db') :
    ResidueFree db' request.params.deleteRequestId componentType := by
  have hc := h.library.constraints
  obtain ⟨planned, result, acted, hdone⟩ := id happlies
  obtain ⟨closure, hplan⟩ := h.plans.of_loaded hdone.loaded
  obtain ⟨r, hr, hid, -⟩ := hdone.stored
  have hD : ∃ r ∈ db.requests, r.deleteRequestId = request.params.deleteRequestId := ⟨r, hr, hid⟩
  have hfrozen : ∀ {componentType id},
      Frozen db' request.params.deleteRequestId componentType id ↔
        Frozen db request.params.deleteRequestId componentType id := happlies.frozen_iff hD
  cases componentType with
  | sourceBody =>
    intro b hb
    rw [hfrozen, ← hplan.frozen_body_iff]
    rcases (happlies.mem_bodies hc).1 hb with ⟨-, hstays⟩ | hnew
    · exact notFrozen_iff.1 hstays
    · cases hnew
  | sourceMetadata =>
    exact ClosedTable.AllRedacted.of_component SourceRow.isRedacted_redact sourceTable_sound hc happlies hD
  | sourceFragment =>
    intro f hf hfragment
    rw [hfrozen] at hfragment
    rcases (happlies.mem_fragments hc).1 hf with ⟨old, -, hstays, hon⟩ | hnew
    · have hold : old = f := hon
      rw [hold] at hstays
      exact absurd hfragment (notFrozen_iff.1 hstays)
    · cases hnew
  | memoryProposal =>
    refine ⟨ClosedTable.AllRedacted.of_component
      (fun row => contentIsRedacted_redact row.content) proposalTable_sound hc happlies hD, fun link hlink => ?_⟩
    rw [hfrozen]
    rcases (happlies.mem_proposalFragments hc).1 hlink with ⟨-, hstays⟩ | hnew
    · exact notFrozen_iff.1 hstays
    · cases hnew
  | memoryDecision =>
    intro d hd hdecision
    rw [hfrozen] at hdecision
    rcases (happlies.mem_decisions hc).1 hd with ⟨old, -, hon⟩ | hnew
    · rw [← hon] at hdecision ⊢
      rw [(Change.onDecision_key db _ old).1] at hdecision
      change (onFrozen _ _ _ _ _ old).reasonText = none
      rw [onFrozen, if_pos hdecision]
      rfl
    · cases hnew
  | memoryRecord =>
    refine ⟨ClosedTable.AllRedacted.of_component
      (fun row => contentIsRedacted_redact row.content) recordTable_sound hc happlies hD, fun link hlink => ?_⟩
    rw [hfrozen]
    rcases (happlies.mem_recordFragments hc).1 hlink with ⟨-, hstays⟩ | hnew
    · exact notFrozen_iff.1 hstays
    · cases hnew
  | minimalAudit => exact ResidueFree.of_audit h hplan happlies hD
  | memoryStateEvent => trivial
  | fullTextIndex => trivial
  | contextCache => trivial

/-! ## Fragments -/

/-- Every fragment of a frozen source was frozen with it. -/
def FragmentsCovered (db : Database) (D : Identifier) : Prop :=
  ∀ f ∈ db.fragments, Frozen db D .sourceMetadata f.sourceId →
    Frozen db D .sourceFragment f.fragmentId

theorem FragmentsCovered.step (h : LibraryInvariant db) {c : Change} (happlies : c.Applies db db')
    {D : Identifier} (hD : ∃ r ∈ db.requests, r.deleteRequestId = D)
    (hcovered : FragmentsCovered db D) : FragmentsCovered db' D := by
  intro f hf hsource
  rw [happlies.frozen_iff hD] at hsource ⊢
  rcases (happlies.mem_fragments h.constraints).1 hf with ⟨old, hold, -, rfl⟩ | hnew
  · obtain ⟨hid, hsourceId, -⟩ := c.onFragment_key old
    rw [hsourceId] at hsource
    rw [hid]
    exact hcovered old hold hsource
  · exact absurd hsource (h.new_fragment_not_frozen happlies hnew D)

/-- A request freezes the active fragments of its sources. -/
theorem FragmentsCovered.of_stored (h : LibraryInvariant db) {request : DeleteRequest}
    {closure : ExecutionClosure} (hstored : StoredRequest db db' request closure)
    (hactive : ∀ f ∈ db.fragments, f.sourceId ∈ request.params.sourceTargets →
      f.governance.deletionState = .active) :
    FragmentsCovered db' request.params.deleteRequestId := by
  have hbuilt := buildExecutionClosure_eq_ok hstored.built
  have hchecked := validateSemanticTargets_eq_ok hstored.semantic
  intro f hf hsource
  obtain ⟨old, hold, heq⟩ := hstored.mem_fragments.1 hf
  have hkey : f.fragmentId = old.fragmentId ∧ f.sourceId = old.sourceId := by
    rw [← heq]
    split <;> exact ⟨rfl, rfl⟩
  rw [hkey.2, hstored.frozen_source_iff] at hsource
  rw [hkey.1, hstored.frozen_iff, ExecutionClosure.refs, mem_refSet_ids]
  rcases hsource with hsource | ⟨-, htarget⟩
  · exact absurd hsource (hstored.not_frozen h.constraints _ _)
  · obtain ⟨s, hs, hsid, hsns, -⟩ := hchecked.sources _ htarget
    obtain ⟨t, ht, htid, htns⟩ := h.fragmentNamespaces old hold
    obtain rfl := h.constraints.sourceIds.eq_of_mem hs ht (hsid.trans htid.symm)
    exact .inr ⟨rfl, (hbuilt.fragmentIds _).2
      ⟨old, hold, rfl, htarget, htns.symm.trans hsns, hactive old hold htarget⟩⟩

theorem FragmentsCovered.run {D : Identifier} (h : ExecutedLibrary db)
    (hD : ∃ r ∈ db.requests, r.deleteRequestId = D) (hcovered : FragmentsCovered db D)
    (ops : List Op) : FragmentsCovered (runOps db ops) D := by
  have hrun := runOps_invariant (P := fun db => ExecutedLibrary db ∧
    (∃ r ∈ db.requests, r.deleteRequestId = D) ∧ FragmentsCovered db D)
    (fun db op hP => ?_) ⟨h, hD, hcovered⟩ ops
  · exact hrun.2.2
  · exact Op.preserves (P := fun db => ExecutedLibrary db ∧
      (∃ r ∈ db.requests, r.deleteRequestId = D) ∧ FragmentsCovered db D)
      (fun _ _ _ hold hwithin happlies => ⟨hold.1.step hwithin happlies,
        happlies.request_stays hold.2.1, hold.2.2.step hold.1.library happlies hold.2.1⟩)
      hP.1.library.constraints.resultAttempts hP

/-- What is left under the id of a frozen fragment that nothing has written again: rows of the
fragment itself until its component succeeds, and never a row of the full-text table. -/
structure Unwritten (db : Database) (D fragmentId : Identifier) : Prop where
  fragments : ∀ f ∈ db.fragments, f.fragmentId = fragmentId →
    Frozen db D .sourceMetadata f.sourceId
  recalled : ∀ row ∈ db.recallFts, row.key ≠ ⟨.sourceFragment, fragmentId⟩
  headings : ∀ n, Succeeded db D n .sourceFragment → ∀ row ∈ db.headings, row.owner ≠ fragmentId

/-- The full-text rows after a change: rows that were there, rows of memories, rows of the
fragments that the change writes, and rows of active fragments after a rebuild. -/
theorem Change.Applies.recalled (h : PlannedLibrary db) {c : Change} (happlies : c.Applies db db')
    {row : RecallRow} (hrow : row ∈ db'.recallFts) :
    row ∈ db.recallFts ∨ row.key.objectKind = .memoryRecord ∨
      (∃ f ∈ c.newFragments, row.key = ⟨.sourceFragment, f.fragmentId⟩) ∨
      row.key.IsActive db' := by
  cases c with
  | source new =>
    obtain ⟨tips, recallFts, rfl, -, hrecall⟩ := LibraryInvariant.sourceAdded_shape happlies
    exact .inl (hrecall row hrow)
  | binding new =>
    obtain ⟨-, rfl⟩ := Database.insertBinding_eq_ok happlies.2
    exact .inl hrow
  | fragments owner new =>
    obtain rfl := FragmentsAdded.result happlies
    rcases List.mem_append.1 hrow with hold | hnew
    · exact .inl hold
    · obtain ⟨f, hf, rfl⟩ := List.mem_map.1 hnew
      exact .inr (.inr (.inl ⟨_, List.mem_map_of_mem (List.mem_filter.1 hf).1, rfl⟩))
  | audit new =>
    obtain rfl := AuditAdded.result happlies
    exact .inl hrow
  | proposal new =>
    obtain ⟨-, rfl, -, -⟩ := storeMemoryProposal_eq_ok happlies
    exact .inl hrow
  | decision new =>
    obtain ⟨-, -, -, -, -, -, rfl⟩ := storeMemoryDecision_eq_ok happlies
    exact .inl hrow
  | memory record initialEvent supersededEvents =>
    obtain ⟨proposal, superseded, hm⟩ := materializeAcceptedMemory_eq_ok happlies
    rcases hm.derived.recallFts row hrow with hold | ⟨hkind, -⟩
    · exact .inl hold
    · exact .inr (.inl hkind)
  | event new =>
    obtain ⟨closure, projected, -, -, -, -, -, hderived⟩ := appendMemoryStateEvent_eq_ok happlies
    rcases hderived.recallFts row hrow with hold | ⟨hkind, -⟩
    · exact .inl hold
    · exact .inr (.inl hkind)
  | derived =>
    obtain ⟨tips, projection, recallFts, -, hsound⟩ := happlies
    exact .inr (.inr (.inr (hsound.recallFts row hrow)))
  | request new closure =>
    obtain rfl := StoredRequest.result happlies
    exact .inl (mem_deleteWhere.1 hrow).1
  | attempt D =>
    obtain ⟨checkedAt, n, hopen⟩ := happlies
    obtain ⟨rfl, -, rfl⟩ := insertNextAttempt_eq_ok hopen
    exact .inl hrow
  | component executed n componentType =>
    obtain ⟨planned, result, acted, hdone⟩ := happlies
    obtain ⟨closure, hplan⟩ := h.plans.of_loaded hdone.loaded
    obtain ⟨-, -, -, rfl⟩ := Database.insertResult_eq_ok_iff.1 hdone.result
    have heffect := hdone.effect.recallFts hplan
    have hacted : row ∈ acted.recallFts := hrow
    rw [heffect] at hacted
    by_cases hindex : componentType = .fullTextIndex
    · rw [if_pos hindex] at hacted
      exact .inl (mem_deleteWhere.1 hacted).1
    · rw [if_neg hindex] at hacted
      exact .inl hacted
  | failure executed n componentType =>
    obtain ⟨planned, result, hrecorded⟩ := happlies
    obtain ⟨-, -, -, rfl⟩ := Database.insertResult_eq_ok_iff.1 hrecorded.result
    exact .inl hrow
  | evidence new executionOrdinal =>
    obtain ⟨-, rfl⟩ := Database.insertEvidenceRow_eq_ok happlies.2
    exact .inl hrow

theorem Unwritten.step (h : PlannedLibrary db) {c : Change} (happlies : c.Applies db db')
    {D fragmentId : Identifier} (hD : ∃ r ∈ db.requests, r.deleteRequestId = D)
    (hfrozen : Frozen db D .sourceFragment fragmentId)
    (hnot : ∀ f ∈ c.newFragments, f.fragmentId ≠ fragmentId)
    (hunwritten : Unwritten db D fragmentId) : Unwritten db' D fragmentId := by
  have hc := h.library.constraints
  have hfragments : ∀ f ∈ db'.fragments, f.fragmentId = fragmentId →
      Frozen db' D .sourceMetadata f.sourceId := by
    intro f hf hid
    rw [happlies.frozen_iff hD]
    rcases (happlies.mem_fragments hc).1 hf with ⟨old, hold, -, rfl⟩ | hnew
    · obtain ⟨hkey, hsource, -⟩ := c.onFragment_key old
      rw [hkey] at hid
      rw [hsource]
      exact hunwritten.fragments old hold hid
    · exact absurd hid (hnot f hnew)
  refine ⟨hfragments, fun row hrow hkey => ?_, fun n hsucceeded row hrow howner => ?_⟩
  · rcases happlies.recalled h hrow with hold | hkind | ⟨f, hf, heq⟩ | hactive
    · exact hunwritten.recalled row hold hkey
    · rw [hkey] at hkind
      cases hkind
    · rw [hkey, RecallKey.mk.injEq] at heq
      exact hnot f hf heq.2.symm
    · rw [hkey] at hactive
      obtain ⟨f, hf, hid, hstate⟩ := hactive
      exact (h.library.step happlies).closedFragments D f hf (hfragments f hf hid) hstate
  · rcases (happlies.mem_headings hc).1 hrow with ⟨hold, hstays⟩ | hnew
    · rcases happlies.succeeded h hsucceeded with hbefore | ⟨executed, rfl, rfl⟩
      · exact hunwritten.headings n hbefore row hold howner
      · have hkept : ¬ Frozen db executed.params.deleteRequestId .sourceFragment row.owner :=
          notFrozen_iff.1 hstays
        rw [howner] at hkept
        exact hkept hfrozen
    · cases c with
      | fragments owner new =>
        obtain ⟨f, hf, hheading⟩ := List.mem_flatMap.1 hnew
        rw [(mem_enumerate hheading).1] at howner
        exact hnot _ (List.mem_map_of_mem hf) howner
      | _ => cases hnew

/-! ## Runs -/

/-- The request after it was stored, with the ids that were written again since. -/
structure Executing (db : Database) (D : Identifier) (written : Identifier → Prop) : Prop extends
    ExecutedLibrary db where
  stored : ∃ r ∈ db.requests, r.deleteRequestId = D
  free : ∀ n componentType, Succeeded db D n componentType → ResidueFree db D componentType
  unwritten : ∀ id, Frozen db D .sourceFragment id → ¬ written id → Unwritten db D id

theorem Executing.step {D : Identifier} {written : Identifier → Prop} (h : Executing db D written)
    {c : Change} {op : Op} {start : Database} (hwithin : c.Within op start db)
    (hwritten : ∀ f ∈ op.fragments, written f.params.fragmentId) (happlies : c.Applies db db') :
    Executing db' D written where
  toExecutedLibrary := h.toExecutedLibrary.step hwithin happlies
  stored := happlies.request_stays h.stored
  free n componentType hsucceeded := by
    rcases happlies.succeeded h.toPlannedLibrary hsucceeded with hbefore | ⟨executed, rfl, rfl⟩
    · exact (h.free n componentType hbefore).step h.library happlies h.stored
    · exact .of_component h.toPlannedLibrary happlies
  unwritten id hfrozen hnot := by
    rw [happlies.frozen_iff h.stored] at hfrozen
    refine (h.unwritten id hfrozen hnot).step h.toPlannedLibrary happlies h.stored hfrozen ?_
    intro f hf heq
    cases c with
    | fragments owner new =>
      obtain ⟨g, hg, rfl⟩ := List.mem_map.1 hf
      rw [hwithin.1] at hg
      exact hnot (heq ▸ hwritten g hg)
    | _ => cases hf

/-- A request that has just been stored. -/
theorem Executing.of_stored (h : ExecutedLibrary db) {request : DeleteRequest}
    (hstored : storeDeleteRequest db request = .ok db') (written : Identifier → Prop) :
    Executing db' request.params.deleteRequestId written := by
  obtain ⟨closure, hclosed⟩ := storeDeleteRequest_eq_ok hstored
  have happlies : (Change.request request closure).Applies db db' := hclosed
  have hwithin : (Change.request request closure).Within (.storeDeleteRequest request) db db := rfl
  have hc := h.library.constraints
  have hbuilt := buildExecutionClosure_eq_ok hclosed.built
  -- Nothing of the request has been executed.
  have hnone : ∀ n componentType,
      ¬ Succeeded db' request.params.deleteRequestId n componentType := by
    intro n componentType hsucceeded
    rcases happlies.succeeded h.toPlannedLibrary hsucceeded with hbefore | ⟨executed, -, heq⟩
    · obtain ⟨r, hr, hid⟩ := hbefore.request hc
      exact hclosed.fresh r hr hid
    · cases heq
  have hrow : RequestRow.ofRequest request.params ∈ db'.requests := by
    rw [hclosed.result]
    exact List.mem_append_right _ List.mem_cons_self
  refine ⟨h.step hwithin happlies, ⟨_, hrow, rfl⟩,
    fun n componentType hsucceeded => absurd hsucceeded (hnone n componentType),
    fun id hfrozen _ => ?_⟩
  rw [hclosed.frozen_iff, ExecutionClosure.refs, mem_refSet_ids] at hfrozen
  rcases hfrozen with hfrozen | ⟨-, hmem⟩
  · exact absurd hfrozen (hclosed.not_frozen hc _ _)
  refine ⟨fun f hf hid => ?_, fun row hrow hkey => ?_, fun n hsucceeded => absurd hsucceeded (hnone n _)⟩
  · obtain ⟨old, hold, heq⟩ := hclosed.mem_fragments.1 hf
    have hsame : f.fragmentId = old.fragmentId ∧ f.sourceId = old.sourceId := by
      rw [← heq]
      split <;> exact ⟨rfl, rfl⟩
    obtain ⟨g, hg, hgid, hsource, -⟩ := (hbuilt.fragmentIds id).1 hmem
    have hsame' : g = old := hc.fragmentIds.eq_of_mem hg hold (by rw [hgid, ← hid, hsame.1])
    rw [hclosed.frozen_source_iff, hsame.2, ← hsame']
    exact .inr ⟨rfl, hsource⟩
  · rw [hclosed.result] at hrow
    have hopen : recallIsClosed closure row = false := by
      simpa using (mem_deleteWhere.1 hrow).2
    rw [recallIsClosed, hkey] at hopen
    simp [hmem] at hopen

theorem Executing.run {D : Identifier} {written : Identifier → Prop} (h : Executing db D written)
    {ops : List Op} (hwritten : ∀ op ∈ ops, ∀ f ∈ op.fragments, written f.params.fragmentId) :
    Executing (runOps db ops) D written := by
  have halong : Along (fun _ op => ∀ f ∈ op.fragments, written f.params.fragmentId) db ops :=
    Along.of_forall (fun op hop _ => hwritten op hop) db
  refine runOps_preserves (P := fun db => Executing db D written) (fun db op hP hcond => ?_) h halong
  exact Op.preserves (P := fun db => Executing db D written)
    (fun _ _ _ hold hwithin happlies => hold.step hwithin hcond happlies)
    hP.library.constraints.resultAttempts hP

/-- The source is a target of the request. -/
def IsSourceTarget (db : Database) (D sourceId : Identifier) : Prop :=
  ⟨.sourceArtifact, sourceId⟩ ∈ targetsOf db D

/-- The content is the marker with the digest of the marker. -/
def IsMarker (content : MemoryValueParams) : Prop :=
  content.text = redactionMarker ∧
    content.contentDigest = computeNfcTextDigest redactionMarker.asStr

/-- Nothing of what the request names or froze is left.  A fragment id may be in use again:
`written` says which ones were written since the request was stored. -/
structure NoResidue (db : Database) (D : Identifier) (written : Identifier → Prop) :
    Prop where
  bodies : ∀ b ∈ db.bodies, ¬ IsSourceTarget db D b.sourceId
  fragments : ∀ f ∈ db.fragments, ¬ IsSourceTarget db D f.sourceId
  headings : ∀ row ∈ db.headings, Frozen db D .sourceFragment row.owner → written row.owner
  recalledFragments : ∀ row ∈ db.recallFts, row.key.objectKind = .sourceFragment →
    Frozen db D .sourceFragment row.key.objectId → written row.key.objectId
  recalledRecords : ∀ row ∈ db.recallFts, row.key.objectKind = .memoryRecord →
    ¬ Frozen db D .memoryRecord row.key.objectId
  projection : ∀ row ∈ db.projection, ¬ Frozen db D .memoryRecord row.memoryId
  proposals : ∀ p ∈ db.proposals, Frozen db D .memoryProposal p.proposalId → IsMarker p.content
  proposalLinks : ∀ link ∈ db.proposalFragments, ¬ Frozen db D .memoryProposal link.owner
  records : ∀ r ∈ db.records, Frozen db D .memoryRecord r.memoryId → IsMarker r.content
  recordLinks : ∀ link ∈ db.recordFragments, ¬ Frozen db D .memoryRecord link.owner
  sources : ∀ s ∈ db.sources, IsSourceTarget db D s.sourceId →
    s.title = none ∧ s.originRef = none
  decisions : ∀ d ∈ db.decisions, Frozen db D .memoryDecision d.decisionId → d.reasonText = none
  bindings : ∀ s ∈ db.sources, IsSourceTarget db D s.sourceId → ∀ b ∈ db.bindings,
    (b.namespaceId, b.lineageId) ≠ (s.namespaceId, s.lineageId)
  audits : ∀ s ∈ db.sources, IsSourceTarget db D s.sourceId → ∀ a ∈ db.captureAudit,
    ∀ t ∈ db.sources, t.sourceId = a.sourceId →
      (t.namespaceId, t.lineageId) ≠ (s.namespaceId, s.lineageId)

/-- Every source and record that the request names and every proposal that it froze is
`deleted`. -/
structure AllDeleted (db : Database) (D : Identifier) : Prop where
  targets : ∀ ref ∈ targetsOf db D, TargetHas db .deleted ref
  proposals : ∀ p ∈ db.proposals, Frozen db D .memoryProposal p.proposalId →
    p.governance.deletionState = .deleted

/-- A redacted value keeps the profile of its digest. -/
theorem contentIsRedacted.isMarker {content : MemoryValueParams} (h : contentIsRedacted content)
    (hprofile : content.contentDigest.profile = .utf8NfcTextV1) : IsMarker content := by
  refine ⟨h.1, ?_⟩
  obtain ⟨text, profile, value⟩ := content
  dsimp only at hprofile
  rw [hprofile, show value = _ from h.2]
  rfl

/-- When all components have succeeded, nothing is left. -/
theorem Executing.noResidue {D : Identifier} {written : Identifier → Prop}
    (h : Executing db D written) (hcovered : FragmentsCovered db D) {n : Nat}
    (hall : ∀ componentType, Succeeded db D n componentType) : NoResidue db D written := by
  have hc := h.library.constraints
  have hfree := fun componentType => h.free n componentType (hall componentType)
  obtain ⟨q, hq, hD⟩ := h.stored
  obtain ⟨request, closure, rfl, hplan⟩ := h.plans q hq
  have hid : request.params.deleteRequestId = D := hD
  have htarget : ∀ {id}, IsSourceTarget db D id → Frozen db D .sourceMetadata id := by
    intro id hmem
    rw [IsSourceTarget, ← hid] at hmem
    rcases hplan.target_frozen hmem with ⟨-, hfrozen⟩ | ⟨htype, -⟩
    · exact hid ▸ hfrozen
    · cases htype
  have hbody := hfree .sourceBody
  have hfragment := hfree .sourceFragment
  obtain ⟨hproposal, hproposalLinks⟩ := hfree .memoryProposal
  obtain ⟨hrecord, hrecordLinks⟩ := hfree .memoryRecord
  have haudit := hfree .minimalAudit
  exact
    { bodies := fun b hb hmem => hbody b hb (htarget hmem)
      fragments := fun f hf hmem =>
        hfragment f hf (hcovered f hf (htarget hmem)) (htarget hmem)
      headings := fun row hrow hfrozen => by
        by_contra hnot
        exact (h.unwritten _ hfrozen hnot).headings n (hall _) row hrow rfl
      recalledFragments := fun row hrow hkind hfrozen => by
        by_contra hnot
        exact (h.unwritten _ hfrozen hnot).recalled row hrow (by rw [← hkind])
      recalledRecords := fun row hrow hkind => h.library.recalledRecords row hrow hkind D
      projection := fun row hrow => h.library.projectedRecords row hrow D
      proposals := fun p hp hfrozen =>
        (hproposal p hp hfrozen).isMarker (hc.proposalProfiles p hp)
      proposalLinks := hproposalLinks
      records := fun r hr hfrozen => (hrecord r hr hfrozen).isMarker (hc.recordProfiles r hr)
      recordLinks := hrecordLinks
      sources := fun s hs hmem => hfree .sourceMetadata s hs (htarget hmem)
      decisions := hfree .memoryDecision
      bindings := fun s hs hmem b hb heq => by
        rw [Prod.mk.injEq] at heq
        exact (haudit s hs (htarget hmem)).1 b hb heq.1 heq.2
      audits := fun s hs hmem a ha t ht hsource heq => by
        rw [Prod.mk.injEq] at heq
        have hs' := htarget hmem
        -- The audited source is of the closed lineage, so the same request froze it.
        obtain ⟨t', ht', htid, -, hstate, -⟩ := h.library.audits a ha
        obtain rfl := hc.sourceIds.eq_of_mem ht' ht (htid.trans hsource.symm)
        rcases hstate with hactive | ⟨D', hD'⟩
        · exact (h.library.closedLineages D s hs hs').2 t' ht heq.1 heq.2 hactive
        · rw [h.library.oneLineage D' D t' ht s hs hD' hs' heq.1 heq.2] at hD'
          exact (haudit t' ht hD').2 a ha hsource.symm }

/-- Completed evidence says that nothing is left, if every fragment of the deleted sources was
active when the request was stored.  The final state of what was deleted stays until an execution
of the request after the completed one records a failure. -/
theorem completed_leaves_no_residue (before after : List Op) (request : DeleteRequest)
    (stored : Database) (hstored : storeDeleteRequest (runOps .empty before) request = .ok stored)
    (hactive : ∀ f ∈ (runOps .empty before).fragments,
      f.sourceId ∈ request.params.sourceTargets → f.governance.deletionState = .active)
    (e : EvidenceRow) (he : e ∈ (runOps stored after).evidence)
    (hD : e.deleteRequestId = request.params.deleteRequestId)
    (hcompleted : e.overallStatus = .completed) :
    NoResidue (runOps stored after) request.params.deleteRequestId
        (fun id => ∃ op ∈ after, ∃ f ∈ op.fragments, f.params.fragmentId = id) ∧
      ((∀ r ∈ (runOps stored after).results,
          r.deleteRequestId = request.params.deleteRequestId → r.status = .failed →
            r.attemptOrdinal ≤ e.executionOrdinal) →
        AllDeleted (runOps stored after) request.params.deleteRequestId) := by
  have hstart : Executing stored request.params.deleteRequestId
      (fun id => ∃ op ∈ after, ∃ f ∈ op.fragments, f.params.fragmentId = id) :=
    .of_stored (executedLibrary_of_run before) hstored _
  have hrun := hstart.run fun op hop f hf => ⟨op, hop, f, hf, rfl⟩
  have hcovered : FragmentsCovered (runOps stored after) request.params.deleteRequestId := by
    obtain ⟨closure, hclosed⟩ := storeDeleteRequest_eq_ok hstored
    refine FragmentsCovered.run hstart.toExecutedLibrary hstart.stored ?_ after
    exact .of_stored (executedLibrary_of_run before).library hclosed hactive
  obtain ⟨-, hall⟩ := hrun.backed e he
  obtain ⟨q, hq, hqD⟩ := hrun.stored
  obtain ⟨loaded, closure, rfl, hplan⟩ := hrun.plans q hq
  have hid : loaded.params.deleteRequestId = request.params.deleteRequestId := hqD
  constructor
  · have hsucceeded := hall hcompleted
    rw [hD, ← hid] at hsucceeded
    have htypes := hplan.succeeded hsucceeded
    rw [hid] at htypes
    exact hrun.noResidue hcovered htypes
  · intro hlater
    have hclosed := hrun.toExecutedLibrary.closedAs he hcompleted (by rwa [hD])
    rw [hD] at hclosed
    refine ⟨fun ref href => ?_, fun p hp hfrozen => hclosed.proposals p hp hfrozen⟩
    rw [← hid] at href hclosed
    exact hclosed.targetHas hrun.library hplan href

end Library

section Run

open Sample

/-- Storing a request as the last operation of a run. -/
theorem runOps_stored [Platform] {ops : List Op} {request : DeleteRequest}
    (h : (storeDeleteRequest (runOps .empty ops) request).toOption.isSome = true) :
    storeDeleteRequest (runOps .empty ops) request =
      .ok (runOps .empty (ops ++ [.storeDeleteRequest request])) := by
  have hlast : runOps .empty (ops ++ [.storeDeleteRequest request]) =
      committed (runOps .empty ops) (storeDeleteRequest (runOps .empty ops) request) := by
    rw [runOps_append]
    rfl
  rw [hlast]
  cases hresult : storeDeleteRequest (runOps .empty ops) request with
  | ok stored => rfl
  | error e =>
    rw [hresult] at h
    cases h

/-- What happens to the fragment that was not active, evaluated. -/
theorem pendingWritten_evaluated :
    (storeDeleteRequest (runOps .empty pendingWritten) deleteFirst).toOption.isSome = true ∧
      ((runOps (runOps .empty (pendingWritten ++ [.storeDeleteRequest deleteFirst]))
        [executeFirst, .storeDeletionEvidence completedPending none]).evidence.any fun e =>
          e.deleteRequestId == identifier "delete-1" && e.overallStatus == .completed) = true ∧
      targetsOf (runOps (runOps .empty (pendingWritten ++ [.storeDeleteRequest deleteFirst]))
        [executeFirst, .storeDeletionEvidence completedPending none]) (identifier "delete-1") =
          [⟨.sourceArtifact, identifier "source-1"⟩] ∧
      ((runOps (runOps .empty (pendingWritten ++ [.storeDeleteRequest deleteFirst]))
        [executeFirst, .storeDeletionEvidence completedPending none]).fragments.any fun f =>
          f.sourceId == identifier "source-1") = true := by
  decide +kernel

/-- A fragment that was not active survives the completed deletion of its source. -/
theorem completed_leaves_fragment :
    ∃ before after request stored e,
      storeDeleteRequest (runOps .empty before) request = .ok stored ∧
      e ∈ (runOps stored after).evidence ∧
      e.deleteRequestId = request.params.deleteRequestId ∧ e.overallStatus = .completed ∧
      ¬ NoResidue (runOps stored after) request.params.deleteRequestId
        (fun id => ∃ op ∈ after, ∃ f ∈ op.fragments, f.params.fragmentId = id) := by
  obtain ⟨hok, hevidence, htargets, hfragment⟩ := pendingWritten_evaluated
  obtain ⟨e, he, hkey⟩ := List.any_eq_true.1 hevidence
  rw [Bool.and_eq_true, beq_iff_eq, beq_iff_eq] at hkey
  refine ⟨pendingWritten, [executeFirst, .storeDeletionEvidence completedPending none], deleteFirst,
    _, e, runOps_stored hok, he, hkey.1, hkey.2, fun hnone => ?_⟩
  obtain ⟨f, hf, hsource⟩ := List.any_eq_true.1 hfragment
  refine hnone.fragments f hf ?_
  rw [beq_iff_eq] at hsource
  rw [IsSourceTarget, hsource]
  change _ ∈ targetsOf _ (identifier "delete-1")
  rw [htargets]
  exact List.mem_cons_self

/-- What happens in the run of the first file, evaluated. -/
theorem firstRequested_evaluated :
    (storeDeleteRequest (runOps .empty [captureFirst]) deleteFirst).toOption.isSome = true ∧
      ((runOps .empty [captureFirst]).fragments.all fun f =>
        f.governance.deletionState == .active) = true ∧
      ((runOps (runOps .empty ([captureFirst] ++ [.storeDeleteRequest deleteFirst]))
        [executeFirst, .storeDeletionEvidence completedFirst none, captureSecond]).evidence.any
          fun e => e.deleteRequestId == identifier "delete-1" &&
            e.overallStatus == .completed) = true ∧
      ((runOps (runOps .empty ([captureFirst] ++ [.storeDeleteRequest deleteFirst]))
        [executeFirst, .storeDeletionEvidence completedFirst none, captureSecond]).results.all
          fun r => r.status != .failed) = true := by
  decide +kernel

/-- The first file is captured and deleted, and another file is captured. -/
theorem completed_leaves_no_residue_of_one_file :
    NoResidue (runOps (runOps .empty ([captureFirst] ++ [.storeDeleteRequest deleteFirst]))
        [executeFirst, .storeDeletionEvidence completedFirst none, captureSecond])
        deleteFirst.params.deleteRequestId
        (fun id => ∃ op ∈ [executeFirst, .storeDeletionEvidence completedFirst none,
          captureSecond], ∃ f ∈ op.fragments, f.params.fragmentId = id) ∧
      AllDeleted (runOps (runOps .empty ([captureFirst] ++ [.storeDeleteRequest deleteFirst]))
        [executeFirst, .storeDeletionEvidence completedFirst none, captureSecond])
        deleteFirst.params.deleteRequestId := by
  obtain ⟨hok, hactive, hevidence, hresults⟩ := firstRequested_evaluated
  obtain ⟨e, he, hkey⟩ := List.any_eq_true.1 hevidence
  rw [Bool.and_eq_true, beq_iff_eq, beq_iff_eq] at hkey
  obtain ⟨hfree, hdeleted⟩ := completed_leaves_no_residue [captureFirst]
    [executeFirst, .storeDeletionEvidence completedFirst none, captureSecond] deleteFirst _
    (runOps_stored hok) (fun f hf _ => by simpa using List.all_eq_true.1 hactive f hf) e he hkey.1
    hkey.2
  refine ⟨hfree, hdeleted fun r hr _ hfailed => ?_⟩
  have hnone := List.all_eq_true.1 hresults r hr
  rw [hfailed] at hnone
  cases hnone

end Run

end RadishMemory
