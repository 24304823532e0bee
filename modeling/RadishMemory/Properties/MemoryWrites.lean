import RadishMemory.Properties.Statements
import RadishMemory.Construction.Sqlite.MemoryStore

/-!
# What a memory write does

For each memory write: the database it leaves, as an explicit update of the database it was
given, and the facts its checks established.
-/

namespace RadishMemory

variable [Platform] {db db' : Database}

/-! ## Proposals -/

/-- The tables after a proposal has been inserted. -/
def Database.addProposal (db : Database) (proposal : MemoryProposal) : Database :=
  { db with
    proposals := db.proposals ++ [ProposalRow.ofProposal proposal.params]
    proposalFragments := db.proposalFragments ++
      enumerate proposal.params.proposalId 0 proposal.params.sourceFragmentRefs
    proposalTargets := db.proposalTargets ++
      enumerate proposal.params.proposalId 0 proposal.params.targetMemoryIds }

theorem storeMemoryProposal_eq_ok {proposal : MemoryProposal}
    (h : storeMemoryProposal db proposal = .ok db') :
    validateProposalForStore db proposal = .ok () ∧ db' = db.addProposal proposal ∧
      (∀ r ∈ db.proposals, r.proposalId ≠ proposal.params.proposalId) ∧
      ∀ fragmentId ∈ proposal.params.sourceFragmentRefs,
        db.hasFragment fragmentId = true := by
  simp only [storeMemoryProposal, insertProposal, Except.bind_eq_ok_iff,
    Except.exists_unit_iff] at h
  obtain ⟨hvalid, -, db₁, h₁, db₂, h₂, h₃⟩ := h
  obtain ⟨-, hfresh, rfl⟩ := Database.insertProposalRow_eq_ok_iff.1 h₁
  obtain ⟨rfl, hrefs⟩ := Database.insertProposalFragments_eq_ok h₂
  obtain ⟨rfl, -⟩ := Database.insertProposalTargets_eq_ok h₃
  refine ⟨hvalid, rfl, hfresh, fun fragmentId hmem => ?_⟩
  obtain ⟨c, hc, rfl⟩ := exists_mem_enumerate proposal.params.proposalId 0 hmem
  exact (hrefs c hc).2

/-! ## Decisions -/

def Database.addDecision (db : Database) (decision : MemoryDecision) : Database :=
  { db with decisions := db.decisions ++ [decision.params] }

theorem storeMemoryDecision_eq_ok {decision : MemoryDecision}
    (h : storeMemoryDecision db decision = .ok db') :
    ∃ proposal decisions,
      loadMemoryProposal db decision.params.namespaceId decision.params.proposalId =
        .ok (some proposal) ∧
      loadDecisionChain db proposal = .ok decisions ∧
      validateDecisionExtension proposal decisions decision = .ok () ∧
      (∀ r ∈ db.decisions, r.decisionId ≠ decision.params.decisionId) ∧
      db' = db.addDecision decision := by
  simp only [storeMemoryDecision, Except.bind_eq_ok_iff, Except.exists_unit_iff,
    Option.orError_eq_ok_iff] at h
  obtain ⟨_, hload, proposal, rfl, decisions, hchain, hextension, -, h⟩ := h
  obtain ⟨hfresh, -, rfl⟩ := Database.insertDecisionRow_eq_ok h
  exact ⟨proposal, decisions, hload, hchain, hextension, hfresh, rfl⟩

/-! ## Records and events -/

/-- The tables after a record has been inserted. -/
def Database.addRecord (db : Database) (record : MemoryRecord) : Database :=
  { db with
    records := db.records ++ [RecordRow.ofRecord record.params]
    recordFragments := db.recordFragments ++
      enumerate record.params.memoryId 0 record.params.sourceFragmentRefs
    recordSupersedes := db.recordSupersedes ++
      enumerate record.params.memoryId 0 record.params.supersedesMemoryIds
    recordContradicts := db.recordContradicts ++
      enumerate record.params.memoryId 0 record.params.contradictsMemoryIds }

theorem insertRecord_eq_ok {record : MemoryRecord} (h : insertRecord db record = .ok db') :
    db' = db.addRecord record ∧
      (∀ r ∈ db.records, r.memoryId ≠ record.params.memoryId) ∧
      ∀ fragmentId ∈ record.params.sourceFragmentRefs, db.hasFragment fragmentId = true := by
  simp only [insertRecord, Except.bind_eq_ok_iff] at h
  obtain ⟨-, -, db₁, h₁, db₂, h₂, db₃, h₃, h₄⟩ := h
  obtain ⟨hfresh, -, rfl⟩ := Database.insertRecordRow_eq_ok h₁
  obtain ⟨rfl, hrefs⟩ := Database.insertRecordFragments_eq_ok h₂
  obtain ⟨rfl, -⟩ := Database.insertRecordSupersedes_eq_ok h₃
  obtain ⟨rfl, -⟩ := Database.insertRecordContradicts_eq_ok h₄
  refine ⟨rfl, fun r hr => (hfresh r hr).1, fun fragmentId hmem => ?_⟩
  obtain ⟨c, hc, rfl⟩ := exists_mem_enumerate record.params.memoryId 0 hmem
  exact (hrefs c hc).2

omit [Platform] in
/-- The related memories of an event. -/
def relatedRows (event : MemoryStateEvent) : List (Child Identifier Identifier) :=
  enumerate event.params.eventId 0 event.params.relatedMemoryIds

omit [Platform] in
/-- The tables after events have been inserted. -/
def Database.addEvents (db : Database) (events : List MemoryStateEvent) : Database :=
  { db with
    events := db.events ++ events.map fun event => EventRow.ofEvent event.params
    eventRelated := db.eventRelated ++ events.flatMap relatedRows }

section Events

omit [Platform]

theorem insertEvent_eq_ok {event : MemoryStateEvent} (h : insertEvent db event = .ok db') :
    db' = db.addEvents [event] ∧ (∀ r ∈ db.events, r.eventId ≠ event.params.eventId) ∧
      db.hasRecord event.params.memoryId = true := by
  simp only [insertEvent, Except.bind_eq_ok_iff] at h
  obtain ⟨db₁, h₁, h₂⟩ := h
  obtain ⟨hfresh, hrecord, rfl⟩ := Database.insertEventRow_eq_ok h₁
  obtain ⟨rfl, -⟩ := Database.insertEventRelated_eq_ok h₂
  exact ⟨by simp [Database.addEvents, relatedRows], hfresh, hrecord⟩

theorem Database.addEvents_addEvents (events events' : List MemoryStateEvent) :
    (db.addEvents events).addEvents events' = db.addEvents (events ++ events') := by
  simp [Database.addEvents]

/-- The ids of the new events are new and distinct. -/
structure FreshEvents (db : Database) (events : List MemoryStateEvent) : Prop where
  ids : ∀ e ∈ events, ∀ r ∈ db.events, r.eventId ≠ e.params.eventId
  distinct : (events.map fun e => e.params.eventId).Nodup
  records : ∀ e ∈ events, db.hasRecord e.params.memoryId = true

theorem foldlM_insertEvent_eq_ok {events : List MemoryStateEvent}
    (h : events.foldlM insertEvent db = .ok db') :
    db' = db.addEvents events ∧ FreshEvents db events := by
  induction events generalizing db with
  | nil =>
    rw [List.foldlM_nil, Except.pure_eq_ok_iff] at h
    subst h
    exact ⟨by simp [Database.addEvents], by simp, by simp, by simp⟩
  | cons event rest ih =>
    rw [List.foldlM_cons, Except.bind_eq_ok_iff] at h
    obtain ⟨db₁, h₁, h₂⟩ := h
    obtain ⟨rfl, hfresh, hrecord⟩ := insertEvent_eq_ok h₁
    obtain ⟨rfl, hrest⟩ := ih h₂
    refine ⟨by rw [Database.addEvents_addEvents, List.singleton_append], ?_, ?_, ?_⟩
    · rintro e he r hr
      rcases List.mem_cons.1 he with rfl | he
      · exact hfresh r hr
      · exact hrest.ids e he r (List.mem_append_left _ hr)
    · rw [List.map_cons, List.nodup_cons]
      refine ⟨fun hmem => ?_, hrest.distinct⟩
      obtain ⟨e, he, heq⟩ := List.mem_map.1 hmem
      exact hrest.ids e he (EventRow.ofEvent event.params)
        (by simp [Database.addEvents]) heq.symm
    · rintro e he
      rcases List.mem_cons.1 he with rfl | he
      · exact hrecord
      · exact hrest.records e he

end Events

/-! ## Derived rows -/

/-- The rows of a memory write in the derived tables: a projection row never appears for a
record that had none, except for the record being written, and the same for full-text rows. -/
structure DerivedUpdate (db db' : Database) (written : Identifier → Prop) : Prop where
  tables : db' = { db with projection := db'.projection, recallFts := db'.recallFts }
  projection : ∀ row ∈ db'.projection,
    written row.memoryId ∨ ∃ old ∈ db.projection, old.memoryId = row.memoryId
  recallFts : ∀ row ∈ db'.recallFts,
    row ∈ db.recallFts ∨ (row.key.objectKind = .memoryRecord ∧ written row.key.objectId)

omit [Platform] in
theorem DerivedUpdate.refl (written : Identifier → Prop) : DerivedUpdate db db written where
  tables := rfl
  projection row hrow := .inr ⟨row, hrow, rfl⟩
  recallFts _ hrow := .inl hrow

omit [Platform] in
theorem DerivedUpdate.trans {db₁ db₂ db₃ : Database} {written : Identifier → Prop}
    (h₁ : DerivedUpdate db₁ db₂ written) (h₂ : DerivedUpdate db₂ db₃ written) :
    DerivedUpdate db₁ db₃ written where
  tables := by
    rw [h₂.tables, h₁.tables]
  projection row hrow := by
    rcases h₂.projection row hrow with hw | ⟨old, hold, heq⟩
    · exact .inl hw
    · rw [← heq]
      exact h₁.projection old hold
  recallFts row hrow := by
    rcases h₂.recallFts row hrow with hold | hw
    · exact h₁.recallFts row hold
    · exact .inr hw

theorem insertMemoryRecord_eq_ok {record : MemoryRecord}
    (h : db.insertMemoryRecord record = .ok db') :
    DerivedUpdate db db' (· = record.params.memoryId) := by
  have hproj : ∀ row ∈ db.projection ++ [ProjectionRow.ofRecord record],
      row.memoryId = record.params.memoryId ∨
        ∃ old ∈ db.projection, old.memoryId = row.memoryId := by
    intro row hrow
    rcases List.mem_append.1 hrow with hold | hnew
    · exact .inr ⟨row, hold, rfl⟩
    · rw [List.mem_singleton] at hnew
      subst hnew
      exact .inl rfl
  simp only [Database.insertMemoryRecord, Except.bind_eq_ok_iff] at h
  obtain ⟨db₁, h₁, h⟩ := h
  obtain ⟨-, rfl⟩ := Database.insertProjection_eq_ok h₁
  split at h
  · simp only [Except.bind_eq_ok_iff, Except.exists_unit_iff, Except.pure_eq_ok_iff,
      Database.insertRecallRow] at h
    obtain ⟨-, rfl⟩ := h
    refine ⟨rfl, hproj, fun row hrow => ?_⟩
    rcases List.mem_append.1 hrow with hold | hnew
    · exact .inl hold
    · rw [List.mem_singleton] at hnew
      subst hnew
      exact .inr ⟨rfl, rfl⟩
  · rw [Except.pure_eq_ok_iff] at h
    subst h
    exact ⟨rfl, hproj, fun row hrow => .inl hrow⟩

theorem updateMemoryRecord_eq_ok {record : MemoryRecord} {written : Identifier → Prop}
    (h : db.updateMemoryRecord record = .ok db') : DerivedUpdate db db' written := by
  simp only [Database.updateMemoryRecord, Except.bind_eq_ok_iff, Except.exists_unit_iff,
    Except.pure_eq_ok_iff] at h
  obtain ⟨-, -, -, -, rfl⟩ := h
  refine ⟨rfl, fun row hrow => ?_, fun row hrow => .inl (mem_deleteWhere.1 hrow).1⟩
  obtain ⟨old, hold, heq⟩ := mem_updateWhere.1 hrow
  refine .inr ⟨old, hold, ?_⟩
  rw [← heq]
  split <;> rfl

theorem foldlM_updateMemoryRecord_eq_ok {targets : List SupersededTarget}
    {written : Identifier → Prop}
    (h : targets.foldlM (fun db target => db.updateMemoryRecord target.record) db = .ok db') :
    DerivedUpdate db db' written := by
  induction targets generalizing db with
  | nil =>
    rw [List.foldlM_nil, Except.pure_eq_ok_iff] at h
    subst h
    exact .refl written
  | cons target rest ih =>
    rw [List.foldlM_cons, Except.bind_eq_ok_iff] at h
    obtain ⟨db₁, h₁, h₂⟩ := h
    exact (updateMemoryRecord_eq_ok h₁).trans (ih h₂)

/-! ## Materialization and event append -/

/-- The canonical tables after a materialization. -/
def Database.addMaterialized (db : Database) (record : MemoryRecord)
    (initialEvent : MemoryStateEvent) (supersededEvents : List MemoryStateEvent) : Database :=
  (db.addRecord record).addEvents (initialEvent :: supersededEvents)

/-- What a materialization established and did. -/
structure Materialized (db db' : Database) (record : MemoryRecord)
    (initialEvent : MemoryStateEvent) (supersededEvents : List MemoryStateEvent)
    (proposal : MemoryProposal) (superseded : List SupersededTarget) : Prop where
  valid : validateMaterialization db record initialEvent supersededEvents =
    .ok (proposal, superseded)
  freshRecord : ∀ r ∈ db.records, r.memoryId ≠ record.params.memoryId
  fragments : ∀ fragmentId ∈ record.params.sourceFragmentRefs, db.hasFragment fragmentId = true
  freshEvents : FreshEvents (db.addRecord record) (initialEvent :: supersededEvents)
  derived : DerivedUpdate (db.addMaterialized record initialEvent supersededEvents) db'
    (· = record.params.memoryId)
  chain : validateMemoryEventChain record [initialEvent] = .ok ()

theorem materializeAcceptedMemory_eq_ok {record : MemoryRecord}
    {initialEvent : MemoryStateEvent} {supersededEvents : List MemoryStateEvent}
    (h : materializeAcceptedMemory db record initialEvent supersededEvents = .ok db') :
    ∃ proposal superseded,
      Materialized db db' record initialEvent supersededEvents proposal superseded := by
  simp only [materializeAcceptedMemory, Except.bind_eq_ok_iff] at h
  obtain ⟨⟨proposal, superseded⟩, hvalid, db₁, h₁, db₂, h₂, db₃, h₃, db₄, h₄, db₅, h₅, ⟨⟩,
    hchain, h⟩ := h
  have hdb : db₅ = db' := by
    split at h
    · simpa [Except.ok_bind, Except.pure_eq_ok_iff] using h
    · simp only [Except.bind_eq_ok_iff, Except.exists_unit_iff, Except.pure_eq_ok_iff] at h
      exact h.2
  subst hdb
  obtain ⟨rfl, hfresh, hfragments⟩ := insertRecord_eq_ok h₁
  have hevents : (initialEvent :: supersededEvents).foldlM insertEvent (db.addRecord record) =
      .ok db₃ := by
    rw [List.foldlM_cons, Except.bind_eq_ok_iff]
    exact ⟨db₂, h₂, h₃⟩
  obtain ⟨rfl, hfreshEvents⟩ := foldlM_insertEvent_eq_ok hevents
  exact ⟨proposal, superseded, hvalid, hfresh, hfragments, hfreshEvents,
    (insertMemoryRecord_eq_ok h₄).trans (foldlM_updateMemoryRecord_eq_ok h₅),
    Except.mapError_eq_ok_iff.1 hchain⟩

theorem appendMemoryStateEvent_eq_ok {event : MemoryStateEvent}
    (h : appendMemoryStateEvent db event = .ok db') :
    ∃ closure projected,
      event.params.previousEventId ≠ none ∧ event.params.eventType ≠ .superseded ∧
      loadMemoryRecordClosure db event.params.namespaceId event.params.memoryId =
        .ok (some closure) ∧
      extendRecord db closure event none = .ok projected ∧
      FreshEvents db [event] ∧
      DerivedUpdate (db.addEvents [event]) db' (fun _ => False) := by
  simp only [appendMemoryStateEvent, Except.bind_eq_ok_iff, Except.exists_unit_iff,
    require_eq_ok_iff, Option.orError_eq_ok_iff] at h
  obtain ⟨⟨hprevious, htype⟩, _, hload, closure, rfl, projected, hextend, db₁, h₁, h₂⟩ := h
  obtain ⟨rfl, hfresh, hrecord⟩ := insertEvent_eq_ok h₁
  refine ⟨closure, projected, hprevious, htype, hload, hextend, ?_,
    updateMemoryRecord_eq_ok h₂⟩
  exact ⟨by simpa using hfresh, by simp, by simpa using hrecord⟩

end RadishMemory
