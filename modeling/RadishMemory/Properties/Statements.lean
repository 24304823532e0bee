import RadishMemory.Construction.Sqlite.RecallRows

/-!
# What an insert statement does

One lemma for each insert statement of the schema: when it succeeds, and the database it leaves.
Every later proof about an operation starts from these and never unfolds a statement again.
-/

namespace RadishMemory

/-- Insert a row and put the table back. -/
theorem insertInto_eq_ok_iff {α β : Type} {rows : List α} {row : α} {checks references : Bool}
    {clashes : α → Bool} {put : List α → β} {b : β} :
    (statement (insertRow rows row checks clashes references) >>= fun rows =>
      (pure (put rows) : Except SqliteError β)) = .ok b ↔
      checks = true ∧ (∀ r ∈ rows, clashes r = false) ∧ references = true ∧
        b = put (rows ++ [row]) := by
  simp only [Except.bind_eq_ok_iff, statement_eq_ok_iff, insertRow_eq_ok_iff,
    Except.pure_eq_ok_iff]
  constructor
  · rintro ⟨rows', ⟨hc, hu, hr, rfl⟩, rfl⟩
    exact ⟨hc, hu, hr, rfl⟩
  · rintro ⟨hc, hu, hr, rfl⟩
    exact ⟨_, ⟨hc, hu, hr, rfl⟩, rfl⟩

namespace Database

variable {db db' : Database}

/-! ## Single rows -/

theorem insertSource_eq_ok_iff {row : SourceRow} :
    db.insertSource row = .ok db' ↔ row.check = true ∧
      (∀ r ∈ db.sources, r.sourceId ≠ row.sourceId ∧ r.versionKey ≠ row.versionKey) ∧
      db' = { db with sources := db.sources ++ [row] } := by
  rw [insertSource, insertInto_eq_ok_iff]
  simp

theorem insertBody_eq_ok_iff {row : BodyRow} :
    db.insertBody row = .ok db' ↔ row.content ≠ "" ∧
      (∀ r ∈ db.bodies, r.sourceId ≠ row.sourceId) ∧ db.hasSource row.sourceId = true ∧
      db' = { db with bodies := db.bodies ++ [row] } := by
  rw [insertBody, insertInto_eq_ok_iff]
  simp

theorem insertFragment_eq_ok_iff {row : FragmentRow} :
    db.insertFragment row = .ok db' ↔ row.check = true ∧
      (∀ r ∈ db.fragments, r.fragmentId ≠ row.fragmentId ∧
        (r.sourceId = row.sourceId → r.ordinal ≠ row.ordinal)) ∧
      db.hasSource row.sourceId = true ∧
      db' = { db with fragments := db.fragments ++ [row] } := by
  rw [insertFragment, insertInto_eq_ok_iff]
  simp

theorem insertTip_eq_ok_iff {row : TipRow} :
    db.insertTip row = .ok db' ↔
      (idOk row.namespaceId = true ∧ idOk row.lineageId = true ∧ idOk row.sourceId = true ∧
        0 < row.version) ∧
      (∀ r ∈ db.tips, (r.namespaceId = row.namespaceId → r.lineageId ≠ row.lineageId) ∧
        r.sourceId ≠ row.sourceId) ∧
      db.hasSource row.sourceId = true ∧ db' = { db with tips := db.tips ++ [row] } := by
  rw [insertTip, insertInto_eq_ok_iff]
  simp [and_assoc]

theorem insertBinding_eq_ok {row : BindingRow} (h : db.insertBinding row = .ok db') :
    (∀ r ∈ db.bindings, r.namespaceId = row.namespaceId →
      r.originBindingId ≠ row.originBindingId ∧ r.lineageId ≠ row.lineageId) ∧
      db' = { db with bindings := db.bindings ++ [row] } := by
  rw [insertBinding, insertInto_eq_ok_iff] at h
  obtain ⟨-, hfresh, -, rfl⟩ := h
  refine ⟨fun r hr hns => ?_, rfl⟩
  simpa [hns] using hfresh r hr

theorem insertAudit_eq_ok {row : AuditRow} (h : db.insertAudit row = .ok db') :
    (∀ r ∈ db.captureAudit, r.sourceId ≠ row.sourceId) ∧ db.hasSource row.sourceId = true ∧
      db' = { db with captureAudit := db.captureAudit ++ [row] } := by
  rw [insertAudit, insertInto_eq_ok_iff] at h
  simp only [Bool.and_eq_true] at h
  obtain ⟨-, hfresh, ⟨hsource, -⟩, rfl⟩ := h
  exact ⟨fun r hr => by simpa using hfresh r hr, hsource, rfl⟩

theorem insertProposalRow_eq_ok_iff {row : ProposalRow} :
    db.insertProposalRow row = .ok db' ↔ row.check = true ∧
      (∀ r ∈ db.proposals, r.proposalId ≠ row.proposalId) ∧
      db' = { db with proposals := db.proposals ++ [row] } := by
  rw [insertProposalRow, insertInto_eq_ok_iff]
  simp

theorem insertDecisionRow_eq_ok {row : DecisionRow} (h : db.insertDecisionRow row = .ok db') :
    (∀ r ∈ db.decisions, r.decisionId ≠ row.decisionId) ∧ db.hasProposal row.proposalId = true ∧
      db' = { db with decisions := db.decisions ++ [row] } := by
  rw [insertDecisionRow, insertInto_eq_ok_iff] at h
  simp only [Bool.and_eq_true] at h
  obtain ⟨-, hfresh, ⟨hproposal, -⟩, rfl⟩ := h
  refine ⟨fun r hr => ?_, hproposal, rfl⟩
  have := hfresh r hr
  simp only [Bool.or_eq_false_iff, beq_eq_false_iff_ne] at this
  exact this.1.1

theorem insertRecordRow_eq_ok {row : RecordRow} (h : db.insertRecordRow row = .ok db') :
    (∀ r ∈ db.records, r.memoryId ≠ row.memoryId ∧
      r.acceptedByDecisionId ≠ row.acceptedByDecisionId) ∧
      db.hasProposal row.originProposalId = true ∧
      db' = { db with records := db.records ++ [row] } := by
  rw [insertRecordRow, insertInto_eq_ok_iff] at h
  simp only [Bool.and_eq_true] at h
  obtain ⟨-, hfresh, ⟨hproposal, -⟩, rfl⟩ := h
  refine ⟨fun r hr => ?_, hproposal, rfl⟩
  have := hfresh r hr
  simp only [Bool.or_eq_false_iff, beq_eq_false_iff_ne] at this
  exact this.1

theorem insertEventRow_eq_ok {row : EventRow} (h : db.insertEventRow row = .ok db') :
    (∀ r ∈ db.events, r.eventId ≠ row.eventId) ∧ db.hasRecord row.memoryId = true ∧
      db' = { db with events := db.events ++ [row] } := by
  rw [insertEventRow, insertInto_eq_ok_iff] at h
  simp only [Bool.and_eq_true] at h
  obtain ⟨-, hfresh, ⟨hrecord, -⟩, rfl⟩ := h
  refine ⟨fun r hr => ?_, hrecord, rfl⟩
  have := hfresh r hr
  simp only [Bool.or_eq_false_iff, beq_eq_false_iff_ne] at this
  exact this.1

theorem insertProjection_eq_ok {row : ProjectionRow} (h : db.insertProjection row = .ok db') :
    (∀ r ∈ db.projection, r.memoryId ≠ row.memoryId) ∧
      db' = { db with projection := db.projection ++ [row] } := by
  rw [insertProjection, insertInto_eq_ok_iff] at h
  obtain ⟨-, hfresh, -, rfl⟩ := h
  refine ⟨fun r hr => ?_, rfl⟩
  have := hfresh r hr
  simp only [Bool.or_eq_false_iff, beq_eq_false_iff_ne] at this
  exact this.1

theorem insertRequestRow_eq_ok {row : RequestRow} (h : db.insertRequestRow row = .ok db') :
    (∀ r ∈ db.requests, r.deleteRequestId ≠ row.deleteRequestId) ∧
      db' = { db with requests := db.requests ++ [row] } := by
  rw [insertRequestRow, insertInto_eq_ok_iff] at h
  obtain ⟨-, hfresh, -, rfl⟩ := h
  exact ⟨fun r hr => by simpa using hfresh r hr, rfl⟩

theorem insertComponentRow_eq_ok {row : ComponentRow} (h : db.insertComponentRow row = .ok db') :
    db.hasRequest row.deleteRequestId = true ∧
      db' = { db with requestComponents := db.requestComponents ++ [row] } := by
  rw [insertComponentRow, insertInto_eq_ok_iff] at h
  obtain ⟨-, -, hrequest, rfl⟩ := h
  exact ⟨hrequest, rfl⟩

theorem insertAttempt_eq_ok_iff {row : AttemptRow} :
    db.insertAttempt row = .ok db' ↔ 0 < row.attemptOrdinal ∧
      (∀ r ∈ db.attempts, r.deleteRequestId = row.deleteRequestId →
        r.attemptOrdinal ≠ row.attemptOrdinal) ∧
      db.hasRequest row.deleteRequestId = true ∧
      db' = { db with attempts := db.attempts ++ [row] } := by
  rw [insertAttempt, insertInto_eq_ok_iff]
  simp

theorem insertResult_eq_ok_iff {row : ResultRow} :
    db.insertResult row = .ok db' ↔ row.check = true ∧
      (∀ r ∈ db.results, ¬ (r.deleteRequestId = row.deleteRequestId ∧
        r.attemptOrdinal = row.attemptOrdinal ∧ r.componentKey = row.componentKey)) ∧
      ((∃ a ∈ db.attempts, a.deleteRequestId = row.deleteRequestId ∧
          a.attemptOrdinal = row.attemptOrdinal) ∧
        ∃ c ∈ db.requestComponents, c.deleteRequestId = row.deleteRequestId ∧
          c.componentKey = row.componentKey) ∧
      db' = { db with results := db.results ++ [row] } := by
  rw [insertResult, insertInto_eq_ok_iff]
  simp [and_assoc]

theorem insertEvidenceRow_eq_ok {row : EvidenceRow} (h : db.insertEvidenceRow row = .ok db') :
    (∀ r ∈ db.evidence, r.deletionEvidenceId ≠ row.deletionEvidenceId ∧
      (r.deleteRequestId = row.deleteRequestId → r.executionOrdinal ≠ row.executionOrdinal ∧
        (row.previousEvidenceId.isSome = true →
          row.previousEvidenceId ≠ r.previousEvidenceId))) ∧
      db' = { db with evidence := db.evidence ++ [row] } := by
  rw [insertEvidenceRow, insertInto_eq_ok_iff] at h
  obtain ⟨-, hfresh, -, rfl⟩ := h
  refine ⟨fun r hr => ?_, rfl⟩
  have := hfresh r hr
  simp only [Bool.or_eq_false_iff, beq_eq_false_iff_ne, Bool.and_eq_false_imp, beq_iff_eq,
    nullableClashes] at this
  exact this

/-- Evidence is about an attempt of its request. -/
theorem insertEvidenceRow_attempt {row : EvidenceRow} (h : db.insertEvidenceRow row = .ok db') :
    ∃ a ∈ db'.attempts, a.deleteRequestId = row.deleteRequestId ∧
      a.attemptOrdinal = row.executionOrdinal := by
  rw [insertEvidenceRow, insertInto_eq_ok_iff] at h
  obtain ⟨-, -, hreferences, rfl⟩ := h
  simp only [Bool.and_eq_true, List.any_eq_true, beq_iff_eq] at hreferences
  exact hreferences.1.2

/-! ## Ordered lists -/

section Children

variable {rows : List (Child Identifier Identifier)}

theorem insertSourceSupersedes_eq_ok (h : db.insertSourceSupersedes rows = .ok db') :
    db' = { db with sourceSupersedes := db.sourceSupersedes ++ rows } ∧
      ∀ c ∈ rows, db.hasSource c.owner = true ∧ db.hasSource c.value = true := by
  simp only [insertSourceSupersedes, Except.bind_eq_ok_iff, statement_eq_ok_iff,
    Except.pure_eq_ok_iff] at h
  obtain ⟨new, hnew, rfl⟩ := h
  obtain ⟨rfl, hrefs⟩ := insertChildren_eq_ok hnew
  exact ⟨rfl, fun c hc => by simpa using hrefs c hc⟩

theorem insertHeadings_eq_ok {rows : List (Child Identifier NonEmptyText)}
    (h : db.insertHeadings rows = .ok db') :
    db' = { db with headings := db.headings ++ rows } ∧
      ∀ c ∈ rows, db.hasFragment c.owner = true := by
  simp only [insertHeadings, Except.bind_eq_ok_iff, statement_eq_ok_iff,
    Except.pure_eq_ok_iff] at h
  obtain ⟨new, hnew, rfl⟩ := h
  obtain ⟨rfl, hrefs⟩ := insertChildren_eq_ok hnew
  exact ⟨rfl, hrefs⟩

theorem insertProposalFragments_eq_ok (h : db.insertProposalFragments rows = .ok db') :
    db' = { db with proposalFragments := db.proposalFragments ++ rows } ∧
      ∀ c ∈ rows, db.hasProposal c.owner = true ∧ db.hasFragment c.value = true := by
  simp only [insertProposalFragments, Except.bind_eq_ok_iff, statement_eq_ok_iff,
    Except.pure_eq_ok_iff] at h
  obtain ⟨new, hnew, rfl⟩ := h
  obtain ⟨rfl, hrefs⟩ := insertChildren_eq_ok hnew
  exact ⟨rfl, fun c hc => by simpa using hrefs c hc⟩

theorem insertProposalTargets_eq_ok (h : db.insertProposalTargets rows = .ok db') :
    db' = { db with proposalTargets := db.proposalTargets ++ rows } ∧
      ∀ c ∈ rows, db.hasProposal c.owner = true ∧ db.hasRecord c.value = true := by
  simp only [insertProposalTargets, Except.bind_eq_ok_iff, statement_eq_ok_iff,
    Except.pure_eq_ok_iff] at h
  obtain ⟨new, hnew, rfl⟩ := h
  obtain ⟨rfl, hrefs⟩ := insertChildren_eq_ok hnew
  exact ⟨rfl, fun c hc => by simpa using hrefs c hc⟩

theorem insertRecordFragments_eq_ok (h : db.insertRecordFragments rows = .ok db') :
    db' = { db with recordFragments := db.recordFragments ++ rows } ∧
      ∀ c ∈ rows, db.hasRecord c.owner = true ∧ db.hasFragment c.value = true := by
  simp only [insertRecordFragments, Except.bind_eq_ok_iff, statement_eq_ok_iff,
    Except.pure_eq_ok_iff] at h
  obtain ⟨new, hnew, rfl⟩ := h
  obtain ⟨rfl, hrefs⟩ := insertChildren_eq_ok hnew
  exact ⟨rfl, fun c hc => by simpa using hrefs c hc⟩

theorem insertRecordSupersedes_eq_ok (h : db.insertRecordSupersedes rows = .ok db') :
    db' = { db with recordSupersedes := db.recordSupersedes ++ rows } ∧
      ∀ c ∈ rows, db.hasRecord c.owner = true ∧ db.hasRecord c.value = true := by
  simp only [insertRecordSupersedes, Except.bind_eq_ok_iff, statement_eq_ok_iff,
    Except.pure_eq_ok_iff] at h
  obtain ⟨new, hnew, rfl⟩ := h
  obtain ⟨rfl, hrefs⟩ := insertChildren_eq_ok hnew
  exact ⟨rfl, fun c hc => by simpa using hrefs c hc⟩

theorem insertRecordContradicts_eq_ok (h : db.insertRecordContradicts rows = .ok db') :
    db' = { db with recordContradicts := db.recordContradicts ++ rows } ∧
      ∀ c ∈ rows, db.hasRecord c.owner = true ∧ db.hasRecord c.value = true := by
  simp only [insertRecordContradicts, Except.bind_eq_ok_iff, statement_eq_ok_iff,
    Except.pure_eq_ok_iff] at h
  obtain ⟨new, hnew, rfl⟩ := h
  obtain ⟨rfl, hrefs⟩ := insertChildren_eq_ok hnew
  exact ⟨rfl, fun c hc => by simpa using hrefs c hc⟩

theorem insertEventRelated_eq_ok (h : db.insertEventRelated rows = .ok db') :
    db' = { db with eventRelated := db.eventRelated ++ rows } ∧
      ∀ c ∈ rows, db.hasEvent c.owner = true := by
  simp only [insertEventRelated, Except.bind_eq_ok_iff, statement_eq_ok_iff,
    Except.pure_eq_ok_iff] at h
  obtain ⟨new, hnew, rfl⟩ := h
  obtain ⟨rfl, hrefs⟩ := insertChildren_eq_ok hnew
  refine ⟨rfl, fun c hc => ?_⟩
  have := hrefs c hc
  simp only [Bool.and_eq_true] at this
  exact this.1

end Children

theorem insertRequestTargets_eq_ok {rows : List (Child Identifier ObjectRef)}
    (h : db.insertRequestTargets rows = .ok db') :
    db' = { db with requestTargets := db.requestTargets ++ rows } := by
  simp only [insertRequestTargets, Except.bind_eq_ok_iff, statement_eq_ok_iff,
    Except.pure_eq_ok_iff] at h
  obtain ⟨new, hnew, rfl⟩ := h
  rw [(insertChildren_eq_ok hnew).1]

theorem insertComponentTargets_eq_ok
    {rows : List (Child (Identifier × Identifier) ObjectRef)}
    (h : db.insertComponentTargets rows = .ok db') :
    db' = { db with componentTargets := db.componentTargets ++ rows } := by
  simp only [insertComponentTargets, Except.bind_eq_ok_iff, statement_eq_ok_iff,
    Except.pure_eq_ok_iff] at h
  obtain ⟨new, hnew, rfl⟩ := h
  rw [(insertChildren_eq_ok hnew).1]

theorem insertExecutionClosure_eq_ok
    {rows : List (Child (Identifier × DeletionComponentType) ObjectRef)}
    (h : db.insertExecutionClosure rows = .ok db') :
    db' = { db with executionClosure := db.executionClosure ++ rows } := by
  simp only [insertExecutionClosure, Except.bind_eq_ok_iff, statement_eq_ok_iff,
    Except.pure_eq_ok_iff] at h
  obtain ⟨new, hnew, rfl⟩ := h
  rw [(insertChildren_eq_ok hnew).1]

/-! ## Existence -/

@[simp] theorem hasSource_iff {id : Identifier} :
    db.hasSource id = true ↔ ∃ r ∈ db.sources, r.sourceId = id := by
  simp [hasSource]

@[simp] theorem hasFragment_iff {id : Identifier} :
    db.hasFragment id = true ↔ ∃ r ∈ db.fragments, r.fragmentId = id := by
  simp [hasFragment]

@[simp] theorem hasProposal_iff {id : Identifier} :
    db.hasProposal id = true ↔ ∃ r ∈ db.proposals, r.proposalId = id := by
  simp [hasProposal]

@[simp] theorem hasRecord_iff {id : Identifier} :
    db.hasRecord id = true ↔ ∃ r ∈ db.records, r.memoryId = id := by
  simp [hasRecord]

@[simp] theorem hasEvent_iff {id : Identifier} :
    db.hasEvent id = true ↔ ∃ r ∈ db.events, r.eventId = id := by
  simp [hasEvent]

@[simp] theorem hasRequest_iff {id : Identifier} :
    db.hasRequest id = true ↔ ∃ r ∈ db.requests, r.deleteRequestId = id := by
  simp [hasRequest]

end Database

end RadishMemory
