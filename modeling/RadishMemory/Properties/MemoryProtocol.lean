import RadishMemory.Construction.Samples
import RadishMemory.Properties.Constraints
import RadishMemory.Properties.Ledger

/-!
# The memory tables are an ordered ledger

The tables of proposals, decisions, records, events and supersessions, read as a `Ledger`.
Every change of the library is a step of that ledger or leaves it alone
(`Change.Applies.ledgerStep`): a decision is checked against the end of the chain it extends, an
event and a supersession against the end of the record's event chain, and deletion only redacts
columns that the ledger does not have.  So the ledger of every reachable database is ordered.
-/

namespace RadishMemory

/-! ## The ledger of a database -/

def DecisionRow.fact (row : DecisionRow) : DecisionFact :=
  { decisionId := row.decisionId
    proposalId := row.proposalId
    previousDecisionId := row.previousDecisionId
    decision := row.decision
    resultMemoryId := row.resultMemoryId }

def RecordRow.fact (row : RecordRow) : RecordFact :=
  { memoryId := row.memoryId
    namespaceId := row.namespaceId
    lineageId := row.lineageId
    version := row.version.get
    originProposalId := row.originProposalId
    acceptedByDecisionId := row.acceptedByDecisionId }

def EventRow.fact (row : EventRow) : EventFact :=
  { eventId := row.eventId
    memoryId := row.memoryId
    previousEventId := row.previousEventId
    eventType := row.eventType }

def Database.ledger (db : Database) : Ledger :=
  { proposals := db.proposals.map ProposalRow.proposalId
    decisions := db.decisions.map DecisionRow.fact
    records := db.records.map RecordRow.fact
    events := db.events.map EventRow.fact
    supersedes := db.recordSupersedes }

section Chains

/-! ## The ends of chains -/

variable {db : Database}

/-- The walk ends at a decision that no decision follows. -/
theorem walkDecisionChain_end {decisions : List MemoryDecision} {stored : Bool} {bound : Nat}
    {current tip : MemoryDecision} {visited visited' : List Identifier}
    (h : walkDecisionChain decisions stored bound current visited = .ok (tip, visited'))
    (hmem : current ∈ decisions) :
    tip ∈ decisions ∧
      ∀ d ∈ decisions, d.params.previousDecisionId ≠ some tip.params.decisionId := by
  induction bound generalizing current visited with
  | zero => cases h
  | succ bound ih =>
    simp only [walkDecisionChain, Except.bind_eq_ok_iff, Except.exists_unit_iff] at h
    obtain ⟨-, h⟩ := h
    split at h
    · rename_i hnone
      cases h
      refine ⟨hmem, fun d hd heq => ?_⟩
      exact List.filter_eq_nil_iff.1 hnone d hd (by simp [heq])
    · rename_i next hone
      simp only [Except.bind_eq_ok_iff, Except.exists_unit_iff] at h
      have hnext : next ∈ decisions :=
        (List.mem_filter.1 (hone ▸ List.mem_singleton_self next :
          next ∈ decisions.filter _)).1
      exact ih h.2 hnext
    · cases h

theorem decisionChainTip_eq_none {decisions : List MemoryDecision} {stored : Bool}
    (h : decisionChainTip decisions stored = .ok none) : decisions = [] := by
  unfold decisionChainTip at h
  split at h
  · rfl
  · split at h
    · simp only [Except.bind_eq_ok_iff, Except.exists_unit_iff, Except.pure_eq_ok_iff] at h
      obtain ⟨_, -, -, hsome⟩ := h
      cases hsome
    · cases h

theorem decisionChainTip_eq_some {decisions : List MemoryDecision} {stored : Bool}
    {tip : MemoryDecision} (h : decisionChainTip decisions stored = .ok (some tip)) :
    tip ∈ decisions ∧
      ∀ d ∈ decisions, d.params.previousDecisionId ≠ some tip.params.decisionId := by
  unfold decisionChainTip at h
  split at h
  · cases h
  · split at h
    · rename_i root hroot
      simp only [Except.bind_eq_ok_iff, Except.exists_unit_iff, Except.pure_eq_ok_iff,
        Option.some_inj] at h
      obtain ⟨⟨tip', visited⟩, hwalk, -, rfl⟩ := h
      have hmem : root ∈ decisions :=
        (List.mem_filter.1 (hroot ▸ List.mem_singleton_self root :
          root ∈ decisions.filter _)).1
      exact walkDecisionChain_end hwalk hmem
    · cases h

/-- The walk ends at an event that no event follows. -/
theorem walkEventChain_end {events : List MemoryStateEvent} {bound : Nat}
    {current last : MemoryStateEvent} {visited visited' : List Identifier}
    (h : walkEventChain events bound current visited = .ok (last, visited'))
    (hmem : current ∈ events) :
    last ∈ events ∧ ∀ e ∈ events, e.params.previousEventId ≠ some last.params.eventId := by
  induction bound generalizing current visited with
  | zero => cases h
  | succ bound ih =>
    simp only [walkEventChain, Except.bind_eq_ok_iff, Except.exists_unit_iff] at h
    obtain ⟨-, h⟩ := h
    split at h
    · rename_i hnone
      cases h
      refine ⟨hmem, fun e he heq => ?_⟩
      exact List.filter_eq_nil_iff.1 hnone e he (by simp [heq])
    · rename_i next hone
      simp only [Except.bind_eq_ok_iff, Except.exists_unit_iff] at h
      have hnext : next ∈ events :=
        (List.mem_filter.1 (hone ▸ List.mem_singleton_self next : next ∈ events.filter _)).1
      exact ih h.2 hnext
    · cases h

variable [Platform]

/-- A valid event chain ends where its record says. -/
theorem validateMemoryEventChain_end {record : MemoryRecord} {events : List MemoryStateEvent}
    (h : validateMemoryEventChain record events = .ok ()) :
    ∃ last ∈ events, (∀ e ∈ events, e.params.previousEventId ≠ some last.params.eventId) ∧
      record.params.currentState = last.params.toState ∧
      record.params.lastStateEventId = last.params.eventId := by
  simp only [validateMemoryEventChain, Except.bind_eq_ok_iff, Except.exists_unit_iff] at h
  obtain ⟨-, -, h⟩ := h
  split at h
  · rename_i initial hinitial
    simp only [Except.bind_eq_ok_iff, Except.exists_unit_iff, require_eq_ok_iff] at h
    obtain ⟨-, ⟨last, visited⟩, hwalk, -, hstate⟩ := h
    have hmem : initial ∈ events :=
      (List.mem_filter.1 (hinitial ▸ List.mem_singleton_self initial :
        initial ∈ events.filter _)).1
    obtain ⟨hlast, hnext⟩ := walkEventChain_end hwalk hmem
    exact ⟨last, hlast, hnext, hstate⟩
  · cases h

/-- The decisions that were read are the stored rows of the proposal. -/
theorem loadDecisionChain_mem {proposal : MemoryProposal} {decisions : List MemoryDecision}
    (h : loadDecisionChain db proposal = .ok decisions) (row : DecisionRow) :
    (∃ d ∈ decisions, d.params = row) ↔
      row ∈ db.decisions ∧ row.proposalId = proposal.params.proposalId := by
  simp only [loadDecisionChain, Except.bind_eq_ok_iff, List.mapM_eq_ok_iff,
    Except.exists_unit_iff, require_eq_ok_iff, Except.pure_eq_ok_iff, orderDecisionChain,
    Option.orError_eq_ok_iff, Except.mapError_eq_ok_iff, MemoryDecision.new,
    Checked.new_eq_ok_iff] at h
  obtain ⟨loaded, hloaded, -, -, horder⟩ := h
  have hperm := orderLinks_perm horder
  constructor
  · rintro ⟨d, hd, rfl⟩
    obtain ⟨stored, hstored, _, rfl, -, rfl⟩ :=
      List.Forall₂.exists_of_mem_right hloaded (hperm.mem_iff.1 hd)
    exact ⟨(List.mem_filter.1 hstored).1, beq_iff_eq.1 (List.mem_filter.1 hstored).2⟩
  · rintro ⟨hmem, hproposal⟩
    obtain ⟨_, hd, d, rfl, -, rfl⟩ := List.Forall₂.exists_of_mem_left hloaded
      (List.mem_filter.2 ⟨hmem, beq_iff_eq.2 hproposal⟩)
    exact ⟨d, hperm.mem_iff.2 hd, rfl⟩

omit [Platform] in
/-- The events that were read are the stored rows of the record. -/
theorem loadEventChain_mem {namespaceId memoryId : Identifier} {events : List MemoryStateEvent}
    (h : loadEventChain db namespaceId memoryId = .ok events) (row : EventRow) :
    (∃ e ∈ events, EventRow.ofEvent e.params = row) ↔
      row ∈ db.events ∧ row.memoryId = memoryId := by
  simp only [loadEventChain, Except.bind_eq_ok_iff, List.mapM_eq_ok_iff, orderEventChain,
    Option.orError_eq_ok_iff, loadStoredEvent, Except.exists_unit_iff, require_eq_ok_iff,
    Except.pure_eq_ok_iff, EventRow.intoDomain, Except.mapError_eq_ok_iff, MemoryStateEvent.new,
    Checked.new_eq_ok_iff] at h
  obtain ⟨loaded, hloaded, horder⟩ := h
  have hperm := orderLinks_perm horder
  constructor
  · rintro ⟨e, he, rfl⟩
    obtain ⟨stored, hstored, related, -, _, hparams, -, rfl⟩ :=
      List.Forall₂.exists_of_mem_right hloaded (hperm.mem_iff.1 he)
    rw [hparams]
    exact ⟨(List.mem_filter.1 hstored).1, beq_iff_eq.1 (List.mem_filter.1 hstored).2⟩
  · rintro ⟨hmem, hmemory⟩
    obtain ⟨_, he, related, -, e, hparams, -, rfl⟩ := List.Forall₂.exists_of_mem_left hloaded
      (List.mem_filter.2 ⟨hmem, beq_iff_eq.2 hmemory⟩)
    exact ⟨e, hperm.mem_iff.2 he, by rw [hparams]; rfl⟩

end Chains

section Steps

/-! ## Each write is a step -/

variable [Platform] {db db' : Database}

omit [Platform] in
theorem mem_decisionsOf {proposalId : Identifier} {fact : DecisionFact} :
    fact ∈ db.ledger.decisionsOf proposalId ↔
      ∃ row ∈ db.decisions, row.proposalId = proposalId ∧ DecisionRow.fact row = fact := by
  simp only [Ledger.decisionsOf, Database.ledger, List.mem_filter, List.mem_map, beq_iff_eq]
  constructor
  · rintro ⟨⟨row, hrow, rfl⟩, hproposal⟩
    exact ⟨row, hrow, hproposal, rfl⟩
  · rintro ⟨row, hrow, hproposal, rfl⟩
    exact ⟨⟨row, hrow, rfl⟩, hproposal⟩

omit [Platform] in
theorem mem_eventsOf {memoryId : Identifier} {fact : EventFact} :
    fact ∈ db.ledger.eventsOf memoryId ↔
      ∃ row ∈ db.events, row.memoryId = memoryId ∧ row.fact = fact := by
  simp only [Ledger.eventsOf, Database.ledger, List.mem_filter, List.mem_map, beq_iff_eq]
  constructor
  · rintro ⟨⟨row, hrow, rfl⟩, hmemory⟩
    exact ⟨row, hrow, hmemory, rfl⟩
  · rintro ⟨row, hrow, hmemory, rfl⟩
    exact ⟨⟨row, hrow, rfl⟩, hmemory⟩

/-- A memory id is promised by one decision. -/
theorem storeMemoryDecision_freshResult {decision : MemoryDecision}
    (h : storeMemoryDecision db decision = .ok db') {row : DecisionRow} (hrow : row ∈ db.decisions)
    (hsome : decision.params.resultMemoryId ≠ none) :
    row.resultMemoryId ≠ decision.params.resultMemoryId := by
  simp only [storeMemoryDecision, Except.bind_eq_ok_iff] at h
  obtain ⟨-, -, -, -, -, -, -, -, -, -, hinsert⟩ := h
  rw [Database.insertDecisionRow, insertInto_eq_ok_iff] at hinsert
  have hclash := hinsert.2.1 row hrow
  simp only [Bool.or_eq_false_iff, nullableClashes, Bool.and_eq_false_iff,
    Option.isSome_eq_false_iff, Option.isNone_iff_eq_none, beq_eq_false_iff_ne] at hclash
  rcases hclash.2 with hnone | hne
  · exact absurd hnone hsome
  · exact Ne.symm hne

/-- A decision extends the chain of its proposal at the end. -/
theorem decision_added {decision : MemoryDecision} (hordered : db.ledger.Ordered)
    (h : storeMemoryDecision db decision = .ok db') :
    db.ledger.DecisionAdded (DecisionRow.fact decision.params) := by
  obtain ⟨proposal, decisions, -, hchain, hextension, hfresh, -⟩ := storeMemoryDecision_eq_ok h
  have hread := loadDecisionChain_mem hchain
  simp only [validateDecisionExtension, Except.bind_eq_ok_iff, Except.exists_unit_iff,
    require_eq_ok_iff] at hextension
  obtain ⟨⟨-, hproposal⟩, tip, htip, hextension⟩ := hextension
  -- what the chain ends in, as the ledger has it
  have hlast : (db.ledger.decisionsOf decision.params.proposalId).getLast? =
      tip.map fun d => DecisionRow.fact d.params := by
    cases tip with
    | none =>
      have hnil := decisionChainTip_eq_none htip
      rw [Option.map_none, List.getLast?_eq_none_iff, List.eq_nil_iff_forall_not_mem]
      intro fact hfact
      obtain ⟨row, hrow, hof, -⟩ := mem_decisionsOf.1 hfact
      obtain ⟨d, hd, -⟩ := (hread row).2 ⟨hrow, hof.trans hproposal⟩
      rw [hnil] at hd
      cases hd
    | some last =>
      obtain ⟨hmem, hnext⟩ := decisionChainTip_eq_some htip
      have hstored := (hread last.params).1 ⟨last, hmem, rfl⟩
      refine (hordered.decisionChains _).getLast?_of_no_next (mem_decisionsOf.2
        ⟨last.params, hstored.1, hstored.2.trans hproposal.symm, rfl⟩) fun fact hfact => ?_
      obtain ⟨row, hrow, hof, rfl⟩ := mem_decisionsOf.1 hfact
      obtain ⟨d, hd, rfl⟩ := (hread row).2 ⟨hrow, hof.trans hproposal⟩
      exact hnext d hd
  refine ⟨?_, ?_, ?_, ?_⟩
  · intro other hother
    obtain ⟨row, hrow, rfl⟩ := List.mem_map.1 hother
    exact hfresh row hrow
  · intro other hother hsome
    obtain ⟨row, hrow, rfl⟩ := List.mem_map.1 hother
    exact storeMemoryDecision_freshResult h hrow hsome
  · show decision.params.previousDecisionId =
      (db.ledger.decisionsOf decision.params.proposalId).getLast?.map _
    rw [hlast]
    cases tip with
    | none => exact require_eq_ok_iff.1 hextension
    | some last =>
      simp only [Except.bind_eq_ok_iff, Except.exists_unit_iff, require_eq_ok_iff] at hextension
      exact hextension.2
  · show ∀ last ∈ (db.ledger.decisionsOf decision.params.proposalId).getLast?, _
    rw [hlast]
    cases tip with
    | none => simp
    | some last =>
      simp only [Except.bind_eq_ok_iff, Except.exists_unit_iff, require_eq_ok_iff] at hextension
      intro fact hfact
      cases Option.mem_some_iff.1 hfact
      exact hextension.1

omit [Platform] in
/-- Only the first event of a record confirms it. -/
theorem event_root_of_confirmed (event : MemoryStateEvent)
    (htype : event.params.eventType = .confirmed) : event.params.previousEventId = none := by
  have hvalid := event.valid
  simp only [MemoryStateEventParams.check, Except.bind_eq_ok_iff, Except.exists_unit_iff,
    require_eq_ok_iff] at hvalid
  have htransition := hvalid.2
  simp only [MemoryStateEventParams.transitionIsValid, htype, Bool.and_eq_true,
    Option.isNone_iff_eq_none] at htransition
  exact htransition.1.1.1

/-- An event that the store lets extend a loaded record closes it. -/
theorem closes_of_extension {namespaceId memoryId : Identifier} {closure : RecordClosure}
    {event : MemoryStateEvent} {pending : Option MemoryRecord} (hordered : db.ledger.Ordered)
    (hload : loadMemoryRecordClosure db namespaceId memoryId = .ok (some closure))
    (hextension : validateEventExtension db closure.1 closure.2 event pending = .ok ()) :
    event.params.memoryId = memoryId ∧
      db.ledger.Closes (EventRow.ofEvent event.params).fact := by
  obtain ⟨row, loaded, hrow, hbase, rfl⟩ := loadMemoryRecordClosureInner_eq_ok hload
  obtain ⟨root, tip, decision, initial, hread⟩ := loadRecordBase_eq_ok hbase
  have hrowId : row.memoryId = memoryId :=
    lookup_key (activeRecordRow_eq_some_iff.1 hrow).1
  have hrecordId : loaded.record.params.memoryId = row.memoryId := by
    rw [hread.projected, hread.row_eq]
    rfl
  simp only [validateEventExtension, Except.bind_eq_ok_iff, Except.exists_unit_iff,
    require_eq_ok_iff] at hextension
  obtain ⟨⟨-, hmemory, hprevious, -, hconfirmed, -⟩, -⟩ := hextension
  obtain ⟨last, hmem, hnext, hstate, hlastId⟩ := validateMemoryEventChain_end hread.valid
  have hevents := loadEventChain_mem hread.chain
  have heventId : event.params.memoryId = row.memoryId := hmemory.trans hrecordId
  have hlast : (db.ledger.eventsOf event.params.memoryId).getLast? =
      some (EventRow.ofEvent last.params).fact := by
    obtain ⟨hstored, hof⟩ := (hevents _).1 ⟨last, hmem, rfl⟩
    refine (hordered.eventChains _).getLast?_of_no_next
      (mem_eventsOf.2 ⟨_, hstored, hof.trans heventId.symm, rfl⟩) fun fact hfact => ?_
    obtain ⟨stored, hmem', hof', rfl⟩ := mem_eventsOf.1 hfact
    obtain ⟨e, he, rfl⟩ := (hevents stored).2 ⟨hmem', hof'.trans heventId⟩
    exact hnext e he
  refine ⟨heventId.trans hrowId, ?_, ?_, _, hlast, ?_, ?_⟩
  · intro htype
    have hroot := event_root_of_confirmed event htype
    rw [hprevious] at hroot
    cases hroot
  · show event.params.previousEventId ≠ none
    rw [hprevious]
    simp
  · show last.params.eventType = .confirmed
    rw [hstate] at hconfirmed
    cases htype : last.params.eventType <;>
      simp [MemoryStateEventParams.toState, htype, MemoryEventType.toState] at hconfirmed ⊢
  · show event.params.previousEventId = some last.params.eventId
    rw [hprevious, hlastId]

/-! ## Materialization -/

/-- One target of a supersession: its record loads, and the given event closes it. -/
structure TargetClosed (db : Database) (namespaceId : Identifier) (record : MemoryRecord)
    (supersededEvents : List MemoryStateEvent) (targetId : Identifier)
    (target : SupersededTarget) : Prop where
  event : target.supersededEvent ∈ supersededEvents
  eventOf : target.supersededEvent.params.memoryId = targetId
  closure : ∃ closure, loadMemoryRecordClosure db namespaceId targetId = .ok (some closure) ∧
    validateEventExtension db closure.1 closure.2 target.supersededEvent (some record) = .ok () ∧
    target.record.params =
      { closure.1.params with
        currentState := target.supersededEvent.params.toState
        lastStateEventId := target.supersededEvent.params.eventId }

/-- What the store checks of a supersession. -/
structure SupersessionChecked (db : Database) (proposal : MemoryProposal) (record : MemoryRecord)
    (supersededEvents : List MemoryStateEvent) (superseded : List SupersededTarget) : Prop where
  operation : proposal.params.operation = .supersede
  once : (supersededEvents.map fun event => event.params.memoryId).Nodup
  count : supersededEvents.length = proposal.params.targetMemoryIds.length
  targets : List.Forall₂
    (TargetClosed db proposal.params.namespaceId record supersededEvents)
    proposal.params.targetMemoryIds superseded
  valid : validateMemorySupersession proposal record superseded = .ok ()

theorem validateSupersessionForStore_eq_ok {proposal : MemoryProposal} {record : MemoryRecord}
    {supersededEvents : List MemoryStateEvent} {superseded : List SupersededTarget}
    (h : validateSupersessionForStore db proposal record supersededEvents = .ok superseded) :
    (proposal.params.operation = .create ∧ supersededEvents = [] ∧ superseded = []) ∨
      SupersessionChecked db proposal record supersededEvents superseded := by
  unfold validateSupersessionForStore at h
  by_cases hcreate : proposal.params.operation = .create
  · rw [if_pos hcreate] at h
    simp only [Except.bind_eq_ok_iff, Except.exists_unit_iff, require_eq_ok_iff,
      Except.pure_eq_ok_iff] at h
    exact .inl ⟨hcreate, h.1, h.2.symm⟩
  · rw [if_neg hcreate] at h
    simp only [Except.bind_eq_ok_iff, Except.exists_unit_iff, require_eq_ok_iff,
      Except.pure_eq_ok_iff, Except.mapError_eq_ok_iff, List.mapM_eq_ok_iff,
      Option.orError_eq_ok_iff, extendRecord, projectRecord_eq_ok_iff] at h
    obtain ⟨⟨honce, hcount⟩, targets, htargets, hvalid, rfl⟩ := h
    refine .inr ⟨?_, honce, hcount, htargets.imp fun targetId target hone => ?_, hvalid⟩
    · cases hop : proposal.params.operation with
      | create => exact absurd hop hcreate
      | supersede => rfl
    · obtain ⟨event, hfind, _, hload, closure, rfl, projected, ⟨hextension, _, hparams, -, rfl⟩,
        rfl⟩ := hone
      exact ⟨List.mem_of_find?_eq_some hfind, by simpa using List.find?_some hfind, closure, hload,
        hextension, hparams⟩

theorem loadMemoryDecision_row {namespaceId decisionId : Identifier} {decision : MemoryDecision}
    (h : loadMemoryDecision db namespaceId decisionId = .ok (some decision)) :
    decision.params ∈ db.decisions ∧ decision.params.decisionId = decisionId := by
  simp only [loadMemoryDecision, loadMemoryDecisionWith] at h
  split at h
  · cases h
  · simp only [Except.bind_eq_ok_iff, Option.orError_eq_ok_iff, Except.pure_eq_ok_iff] at h
    obtain ⟨_, -, proposal, rfl, decisions, hchain, hfind⟩ := h
    have hmem := (loadDecisionChain_mem hchain decision.params).1
      ⟨decision, List.mem_of_find?_eq_some hfind, rfl⟩
    exact ⟨hmem.1, by simpa using List.find?_some hfind⟩

/-- A materialization with everything that was read for it. -/
structure MaterializationChecked (db : Database) (record : MemoryRecord)
    (initialEvent : MemoryStateEvent) (supersededEvents : List MemoryStateEvent)
    (proposal : MemoryProposal) (superseded : List SupersededTarget)
    (decision : MemoryDecision) : Prop where
  proposalRead : loadMemoryProposal db record.params.namespaceId record.params.originProposalId =
    .ok (some proposal)
  decisionRead : loadMemoryDecision db record.params.namespaceId
    record.params.acceptedByDecisionId = .ok (some decision)
  materialized : validateMemoryMaterialization proposal decision record initialEvent = .ok ()
  eventReferences : validateEventReferences db record initialEvent false (some record) = .ok ()
  recordReferences : validateRecordReferences db record = .ok ()
  supersession : validateSupersessionForStore db proposal record supersededEvents = .ok superseded

theorem validateMaterialization_eq_ok {record : MemoryRecord} {initialEvent : MemoryStateEvent}
    {supersededEvents : List MemoryStateEvent} {proposal : MemoryProposal}
    {superseded : List SupersededTarget}
    (h : validateMaterialization db record initialEvent supersededEvents =
      .ok (proposal, superseded)) :
    ∃ decision, MaterializationChecked db record initialEvent supersededEvents proposal superseded
      decision := by
  simp only [validateMaterialization, Except.bind_eq_ok_iff, Except.exists_unit_iff,
    Option.orError_eq_ok_iff, Except.mapError_eq_ok_iff, Except.pure_eq_ok_iff,
    Prod.mk.injEq] at h
  obtain ⟨_, hproposal, proposal', rfl, _, hdecision, decision, rfl, hmaterialized, hevent, hrecord,
    superseded', hsupersession, rfl, rfl⟩ := h
  exact ⟨decision, hproposal, hdecision, hmaterialized, hevent, hrecord, hsupersession⟩

/-- What proposal, decision, record and first event agree on. -/
structure MaterializationAgrees (proposal : MemoryProposal) (decision : MemoryDecision)
    (record : MemoryRecord) (initialEvent : MemoryStateEvent) : Prop where
  namespaceId : proposal.params.namespaceId = record.params.namespaceId
  decisionOf : decision.params.proposalId = proposal.params.proposalId
  accepts : decision.params.decision = .accept
  result : decision.params.resultMemoryId = some record.params.memoryId
  origin : record.params.originProposalId = proposal.params.proposalId
  acceptedBy : record.params.acceptedByDecisionId = decision.params.decisionId
  event : initialEvent.params.memoryId = record.params.memoryId
  eventType : initialEvent.params.eventType = .confirmed
  targets : sameIdentifierSet record.params.supersedesMemoryIds
    proposal.params.targetMemoryIds = true
  state : record.params.currentState = .confirmed
  lastEvent : record.params.lastStateEventId = initialEvent.params.eventId
  first : initialEvent.params.previousEventId = none

theorem validateMemoryMaterialization_eq_ok {proposal : MemoryProposal} {decision : MemoryDecision}
    {record : MemoryRecord} {initialEvent : MemoryStateEvent}
    (h : validateMemoryMaterialization proposal decision record initialEvent = .ok ()) :
    MaterializationAgrees proposal decision record initialEvent := by
  simp only [validateMemoryMaterialization, requireNamespace, materializationIdsMatch,
    materializationContentMatches, Except.bind_eq_ok_iff, Except.exists_unit_iff,
    require_eq_ok_iff, Bool.and_eq_true, beq_iff_eq] at h
  obtain ⟨-, hnamespace, -, -, -, ⟨⟨⟨⟨⟨⟨⟨⟨hdecision, haccepts⟩, hresult⟩, horigin⟩, hby⟩, hevent⟩,
    htype⟩, -⟩, -⟩, ⟨-, htargets⟩, -, hstate, hlast, hfirst, -⟩ := h
  exact ⟨hnamespace, hdecision, haccepts, hresult, horigin, hby, hevent, htype, htargets, hstate,
    hlast, hfirst⟩

/-- The closed records are exactly the targets of the proposal. -/
theorem SupersessionChecked.closed {proposal : MemoryProposal} {record : MemoryRecord}
    {supersededEvents : List MemoryStateEvent} {superseded : List SupersededTarget}
    (h : SupersessionChecked db proposal record supersededEvents superseded) (id : Identifier) :
    id ∈ (supersededEvents.map fun event => event.params.memoryId) ↔
      id ∈ proposal.params.targetMemoryIds := by
  have hsubset : proposal.params.targetMemoryIds ⊆
      supersededEvents.map fun event => event.params.memoryId := by
    intro targetId hmem
    obtain ⟨target, -, hclosed⟩ := List.Forall₂.exists_of_mem_left h.targets hmem
    exact List.mem_map.2 ⟨_, hclosed.event, hclosed.eventOf⟩
  have hnodup : proposal.params.targetMemoryIds.Nodup := by
    have hvalid := proposal.valid
    simp only [MemoryProposalParams.check, requireUnique, Except.bind_eq_ok_iff,
      Except.exists_unit_iff, require_eq_ok_iff] at hvalid
    exact hvalid.2.2.1
  have hperm := (List.subperm_of_subset hnodup hsubset).perm_of_length_le (by
    rw [List.length_map, h.count])
  exact hperm.mem_iff.symm

/-- A target is a stored record of the lineage, with the version it was read with. -/
theorem TargetClosed.stored {namespaceId targetId : Identifier} {record : MemoryRecord}
    {supersededEvents : List MemoryStateEvent} {target : SupersededTarget}
    (h : TargetClosed db namespaceId record supersededEvents targetId target) :
    ∃ row ∈ db.records, row.memoryId = targetId ∧
      row.namespaceId = target.record.params.namespaceId ∧
      row.lineageId = target.record.params.lineageId ∧
      row.version = target.record.params.version := by
  obtain ⟨closure, hload, -, hparams⟩ := h.closure
  obtain ⟨row, -, hrow, -, -, hof⟩ := loadMemoryRecordClosureWith_rows hload
  obtain ⟨hlookup, -⟩ := activeRecordRow_eq_some_iff.1 hrow
  refine ⟨row, lookup_mem hlookup, lookup_key hlookup, ?_⟩
  rw [hparams, hof]
  exact ⟨rfl, rfl, rfl⟩

/-- What the core rule says of each target and of the new version. -/
theorem validateMemorySupersession_eq_ok {proposal : MemoryProposal} {record : MemoryRecord}
    {superseded : List SupersededTarget}
    (h : validateMemorySupersession proposal record superseded = .ok ()) :
    (∀ target ∈ superseded,
      proposal.params.namespaceId = target.record.params.namespaceId ∧
      target.record.params.lineageId = record.params.lineageId) ∧
      (superseded.map fun target => target.record.params.version.get).foldl max 0 + 1 =
        record.params.version.get := by
  simp only [validateMemorySupersession, requireNamespace, supersededTargetMatches,
    Except.bind_eq_ok_iff, Except.exists_unit_iff, require_eq_ok_iff, checkAll_eq_ok_iff,
    Bool.and_eq_true, beq_iff_eq] at h
  obtain ⟨-, -, -, -, htargets, hversion⟩ := h
  refine ⟨fun target hmem => ?_, hversion⟩
  obtain ⟨hnamespace, -, hmatches, -⟩ := htargets target hmem
  exact ⟨hnamespace, hmatches.1.1.1.1.1.1.1⟩

omit [Platform] in
/-- The greatest version of a non-empty list of targets is one of theirs. -/
theorem exists_foldl_max (versions : List Nat) (hne : versions ≠ [])
    (hpositive : ∀ version ∈ versions, 0 < version) : versions.foldl max 0 ∈ versions := by
  rcases foldl_max_mem versions 0 with hzero | hmem
  · obtain ⟨first, rest, rfl⟩ := List.exists_cons_of_ne_nil hne
    have hge := (foldl_max_ge (first :: rest) 0).2 first List.mem_cons_self
    have hpos := hpositive first List.mem_cons_self
    omega
  · exact hmem

/-- A materialized record is a step of the ledger. -/
theorem record_added {record : MemoryRecord} {initialEvent : MemoryStateEvent}
    {supersededEvents : List MemoryStateEvent} {proposal : MemoryProposal}
    {superseded : List SupersededTarget} (hordered : db.ledger.Ordered)
    (hm : Materialized db db' record initialEvent supersededEvents proposal superseded)
    (hversion : ∀ r ∈ db.records, r.namespaceId = record.params.namespaceId →
      r.lineageId = record.params.lineageId → r.version ≠ record.params.version) :
    db.ledger.RecordAdded (RecordRow.ofRecord record.params).fact
      (EventRow.ofEvent initialEvent.params).fact
      (supersededEvents.map fun event => (EventRow.ofEvent event.params).fact)
      record.params.supersedesMemoryIds := by
  obtain ⟨decision, hchecked⟩ := validateMaterialization_eq_ok hm.valid
  have hagrees := validateMemoryMaterialization_eq_ok hchecked.materialized
  obtain ⟨hdecision, hdecisionId⟩ := loadMemoryDecision_row hchecked.decisionRead
  have hproposal := loadMemoryProposalWith_eq_ok_iff.1 hchecked.proposalRead
  obtain ⟨hlookup, -, -⟩ := activeProposalRow_eq_some_iff.1 hproposal.row
  have hsame : ∀ id, id ∈ record.params.supersedesMemoryIds ↔
      id ∈ proposal.params.targetMemoryIds := by
    have hset := hagrees.targets
    simp only [sameIdentifierSet, Bool.and_eq_true, List.all_eq_true, decide_eq_true_eq] at hset
    exact fun id => ⟨hset.1 id, hset.2 id⟩
  have hids : (supersededEvents.map fun event => (EventRow.ofEvent event.params).fact).map
      EventFact.memoryId = supersededEvents.map fun event => event.params.memoryId := by
    rw [List.map_map]
    rfl
  have hfresh : ∀ other ∈ db.ledger.records, other.memoryId ≠ record.params.memoryId := by
    intro other hother
    obtain ⟨row, hrow, rfl⟩ := List.mem_map.1 hother
    exact hm.freshRecord row hrow
  have hfreshVersion : ∀ other ∈ db.ledger.records,
      Ledger.inLineage record.params.namespaceId record.params.lineageId other = true →
      other.version ≠ record.params.version.get := by
    intro other hother hlineage heq
    obtain ⟨row, hrow, rfl⟩ := List.mem_map.1 hother
    simp only [Ledger.inLineage, Bool.and_eq_true, beq_iff_eq] at hlineage
    refine hversion row hrow hlineage.1 hlineage.2 ?_
    have hget : row.version.get = record.params.version.get := heq
    cases hv : row.version
    cases hv' : record.params.version
    simp only [hv, hv'] at hget
    simp [hget]
  have hone : record.params.supersedesMemoryIds = [] → record.params.version.get = 1 := by
    have hvalid := record.valid
    simp only [MemoryRecordParams.check, Except.bind_eq_ok_iff, Except.exists_unit_iff,
      require_eq_ok_iff] at hvalid
    exact hvalid.2.2.2.2.2.2.2
  have haccepted : ∃ d ∈ db.ledger.decisions,
      d.decisionId = record.params.acceptedByDecisionId ∧
      d.proposalId = record.params.originProposalId ∧ d.decision = .accept ∧
      d.resultMemoryId = some record.params.memoryId :=
    ⟨_, List.mem_map_of_mem hdecision, hdecisionId, hagrees.decisionOf.trans hagrees.origin.symm,
      hagrees.accepts, hagrees.result⟩
  have hproposed : record.params.originProposalId ∈ db.ledger.proposals :=
    List.mem_map.2 ⟨_, lookup_mem hlookup, lookup_key hlookup⟩
  rcases validateSupersessionForStore_eq_ok hchecked.supersession with
    ⟨hcreate, rfl, -⟩ | hsupersession
  · have hnil : record.params.supersedesMemoryIds = [] := by
      have htargets := proposal.valid
      simp only [MemoryProposalParams.check, Except.bind_eq_ok_iff, Except.exists_unit_iff,
        require_eq_ok_iff, targetsAreValid, hcreate, List.isEmpty_iff] at htargets
      rw [List.eq_nil_iff_forall_not_mem]
      intro id hid
      have hmem := (hsame id).1 hid
      rw [htargets.2.2.2] at hmem
      cases hmem
    exact
      { fresh := hfresh
        freshVersion := hfreshVersion
        proposal := hproposed
        accepted := haccepted
        initial := ⟨hagrees.event, hagrees.first, hagrees.eventType⟩
        closed := by simp [hnil]
        closedOnce := by simp
        closes := by simp
        found := by simp [hnil]
        version := .inl ⟨hnil, hone hnil⟩ }
  · obtain ⟨htargets, hmax⟩ := validateMemorySupersession_eq_ok hsupersession.valid
    refine
      { fresh := hfresh
        freshVersion := hfreshVersion
        proposal := hproposed
        accepted := haccepted
        initial := ⟨hagrees.event, hagrees.first, hagrees.eventType⟩
        closed := fun id => ?_
        closedOnce := ?_
        closes := fun fact hfact => ?_
        found := fun id hid => ?_
        version := .inr ?_ }
    · rw [hids, hsupersession.closed id, hsame id]
    · rw [hids]
      exact hsupersession.once
    · obtain ⟨event, hevent, rfl⟩ := List.mem_map.1 hfact
      have htarget := (hsupersession.closed event.params.memoryId).1 (List.mem_map_of_mem hevent)
      obtain ⟨target, -, hclosed⟩ := List.Forall₂.exists_of_mem_left hsupersession.targets htarget
      have heq : target.supersededEvent = event :=
        List.inj_on_of_nodup_map hsupersession.once hclosed.event hevent hclosed.eventOf
      obtain ⟨closure, hload, hextension, -⟩ := hclosed.closure
      rw [heq] at hextension
      exact (closes_of_extension hordered hload hextension).2
    · obtain ⟨target, htarget, hclosed⟩ :=
        List.Forall₂.exists_of_mem_left hsupersession.targets ((hsame id).1 hid)
      obtain ⟨row, hrow, hrowId, hnamespace, hlineage, -⟩ := hclosed.stored
      obtain ⟨hns, hln⟩ := htargets target htarget
      refine ⟨row.fact, List.mem_map_of_mem hrow, hrowId, ?_⟩
      simp only [Ledger.inLineage, Bool.and_eq_true, beq_iff_eq]
      exact ⟨hnamespace.trans (hns.symm.trans hagrees.namespaceId), hlineage.trans hln⟩
    · have hne : superseded ≠ [] := by
        rintro rfl
        have htargets := proposal.valid
        simp only [MemoryProposalParams.check, Except.bind_eq_ok_iff, Except.exists_unit_iff,
          require_eq_ok_iff, targetsAreValid, hsupersession.operation] at htargets
        have hlength := hsupersession.targets.length_eq
        rw [List.length_nil, List.length_eq_zero_iff] at hlength
        simp [hlength] at htargets
      have hmem := exists_foldl_max (superseded.map fun target =>
        target.record.params.version.get) (by simpa using hne) (by
          intro version hversion
          obtain ⟨target, -, rfl⟩ := List.mem_map.1 hversion
          exact target.record.params.version.positive)
      obtain ⟨target, htarget, htargetVersion⟩ := List.mem_map.1 hmem
      obtain ⟨id, hid, hclosed⟩ := List.Forall₂.exists_of_mem_right hsupersession.targets htarget
      obtain ⟨row, hrow, hrowId, -, -, hrowVersion⟩ := hclosed.stored
      refine ⟨id, (hsame id).2 hid, row.fact, List.mem_map_of_mem hrow, hrowId, ?_⟩
      show record.params.version.get = row.version.get + 1
      rw [hrowVersion, htargetVersion, hmax]

/-- A version of a lineage is stored once in its namespace. -/
theorem materializeAcceptedMemory_freshVersion {record : MemoryRecord}
    {initialEvent : MemoryStateEvent} {supersededEvents : List MemoryStateEvent}
    (h : materializeAcceptedMemory db record initialEvent supersededEvents = .ok db')
    {row : RecordRow} (hrow : row ∈ db.records)
    (hnamespace : row.namespaceId = record.params.namespaceId)
    (hlineage : row.lineageId = record.params.lineageId) :
    row.version ≠ record.params.version := by
  simp only [materializeAcceptedMemory, Except.bind_eq_ok_iff] at h
  obtain ⟨-, -, inserted, hinsert, -⟩ := h
  simp only [insertRecord, Except.bind_eq_ok_iff] at hinsert
  obtain ⟨-, -, db₁, hinsert, -⟩ := hinsert
  rw [Database.insertRecordRow, insertInto_eq_ok_iff] at hinsert
  have hclash := hinsert.2.1 row hrow
  simp only [Bool.or_eq_false_iff, Bool.and_eq_false_iff, beq_eq_false_iff_ne] at hclash
  rcases hclash.2 with (hne | hne) | hne
  · exact absurd hnamespace hne
  · exact absurd hlineage hne
  · exact hne

/-- Redaction and the deletion states leave the ledger alone. -/
theorem ActionEffect.ledger {namespaceId deleteRequestId : Identifier} {hasFailed : Bool}
    {componentType : DeletionComponentType}
    (h : ActionEffect db db' namespaceId deleteRequestId hasFailed componentType) :
    db'.ledger = db.ledger := by
  cases componentType with
  | sourceBody | sourceMetadata =>
    obtain ⟨ids, -, rfl⟩ := h
    rfl
  | sourceFragment =>
    obtain ⟨ids, -, -, rfl⟩ := h
    rfl
  | memoryProposal =>
    obtain ⟨ids, -, rfl⟩ := h
    simp only [Database.ledger]
    rw [map_updateWhere ProposalRow.proposalId]
    exact fun _ => rfl
  | memoryDecision =>
    obtain ⟨ids, -, rfl⟩ := h
    simp only [Database.ledger]
    rw [map_updateWhere DecisionRow.fact]
    exact fun _ => rfl
  | memoryRecord =>
    obtain ⟨ids, -, rfl⟩ := h
    simp only [Database.ledger]
    rw [map_updateWhere RecordRow.fact]
    exact fun _ => rfl
  | memoryStateEvent | contextCache =>
    cases h
    rfl
  | fullTextIndex =>
    obtain ⟨targets, keys, -, -, rfl⟩ := h
    rfl
  | minimalAudit =>
    obtain ⟨targets, lineages, sources, proposals, records, -, -, -, -, -, -, rfl⟩ := h
    simp only [Database.ledger, Database.finalize, Database.purgeLineages]
    rw [map_updateWhere ProposalRow.proposalId, map_updateWhere RecordRow.fact] <;>
      exact fun _ => rfl

/-- Every change of the library is a step of the ledger. -/
theorem Change.Applies.ledgerStep {c : Change} (h : c.Applies db db')
    (hordered : db.ledger.Ordered) : Ledger.Step db.ledger db'.ledger := by
  have hsame : db'.ledger = db.ledger → Ledger.Step db.ledger db'.ledger := by
    intro heq
    rw [heq]
    exact .same
  cases c with
  | source new =>
    rcases SourceAdded.tip h with ⟨-, -, rfl⟩ | ⟨current, -, -, -, -, rfl⟩ <;> exact .same
  | binding row =>
    obtain ⟨-, rfl⟩ := Database.insertBinding_eq_ok h.2
    exact .same
  | fragments owner new =>
    obtain rfl := FragmentsAdded.result h
    exact .same
  | audit row =>
    obtain rfl := AuditAdded.result h
    exact .same
  | proposal new =>
    obtain ⟨-, rfl, hfresh, -⟩ := storeMemoryProposal_eq_ok h
    have hnew : new.params.proposalId ∉ db.ledger.proposals := by
      intro hmem
      obtain ⟨row, hrow, heq⟩ := List.mem_map.1 hmem
      exact hfresh row hrow heq
    have hledger : (db.addProposal new).ledger =
        { db.ledger with proposals := db.ledger.proposals ++ [new.params.proposalId] } := by
      simp [Database.ledger, Database.addProposal, ProposalRow.ofProposal]
    rw [hledger]
    exact .proposal hnew
  | decision new =>
    have hadded := decision_added hordered h
    obtain ⟨-, -, -, -, -, -, rfl⟩ := storeMemoryDecision_eq_ok h
    have hledger : (db.addDecision new).ledger =
        { db.ledger with
          decisions := db.ledger.decisions ++ [DecisionRow.fact new.params] } := by
      simp [Database.ledger, Database.addDecision]
    rw [hledger]
    exact .decision hadded
  | memory record initialEvent supersededEvents =>
    obtain ⟨proposal, superseded, hm⟩ := materializeAcceptedMemory_eq_ok h
    have hadded := record_added hordered hm fun row hrow =>
      materializeAcceptedMemory_freshVersion h hrow
    have hledger : db'.ledger = db.ledger.addRecord (RecordRow.ofRecord record.params).fact
        (EventRow.ofEvent initialEvent.params).fact
        (supersededEvents.map fun event => (EventRow.ofEvent event.params).fact)
        record.params.supersedesMemoryIds := by
      rw [hm.derived.tables]
      simp [Database.ledger, Database.addMaterialized, Database.addRecord, Database.addEvents,
        Ledger.addRecord, RecordRow.fact, RecordRow.ofRecord]
    rw [hledger]
    exact .record hadded
  | event new =>
    obtain ⟨closure, projected, -, -, hload, hextend, -, hderived⟩ :=
      appendMemoryStateEvent_eq_ok h
    simp only [extendRecord, Except.bind_eq_ok_iff, Except.exists_unit_iff] at hextend
    have hcloses := (closes_of_extension hordered hload hextend.1).2
    have hledger : db'.ledger =
        { db.ledger with
          events := db.ledger.events ++ [(EventRow.ofEvent new.params).fact] } := by
      rw [hderived.tables]
      simp [Database.ledger, Database.addEvents]
    rw [hledger]
    exact .event hcloses
  | derived =>
    obtain ⟨tips, projection, recallFts, rfl, -⟩ := h
    exact .same
  | request new closure =>
    refine hsame ?_
    rw [StoredRequest.result h]
    simp only [Database.ledger, Database.closeRequest, Database.closeTargets, Database.addRequest]
    rw [map_updateWhere ProposalRow.proposalId, map_updateWhere RecordRow.fact] <;>
      exact fun _ => rfl
  | attempt deleteRequestId =>
    obtain ⟨checkedAt, n, hopen⟩ := h
    obtain ⟨-, -, rfl⟩ := insertNextAttempt_eq_ok hopen
    exact .same
  | component executed attemptOrdinal componentType =>
    obtain ⟨planned, result, acted, hdone⟩ := h
    obtain ⟨-, -, -, rfl⟩ := Database.insertResult_eq_ok_iff.1 hdone.result
    exact hsame hdone.effect.ledger
  | failure executed attemptOrdinal componentType =>
    obtain ⟨planned, result, hrecorded⟩ := h
    obtain ⟨-, -, -, rfl⟩ := Database.insertResult_eq_ok_iff.1 hrecorded.result
    exact .same
  | evidence new executionOrdinal =>
    obtain ⟨-, rfl⟩ := Database.insertEvidenceRow_eq_ok h.2
    exact .same

/-- A library whose ledger is ordered; the results matter only because an execution reads
them. -/
structure LedgerOrdered (db : Database) : Prop where
  constraints : Constraints db
  ordered : db.ledger.Ordered

theorem LedgerOrdered.op {operation : Op} (h : LedgerOrdered db) :
    LedgerOrdered (operation.apply db) :=
  Op.preserves (fun _ _ _ hP _ happlies =>
    ⟨hP.constraints.step happlies, (happlies.ledgerStep hP.ordered).ordered hP.ordered⟩)
    h.constraints.resultAttempts h

/-- The ledger of every library that operations can produce is ordered. -/
theorem ledgerOrdered_of_run (ops : List Op) : LedgerOrdered (runOps .empty ops) :=
  runOps_invariant (fun _ _ h => h.op) ⟨Constraints.empty, Ledger.Ordered.empty⟩ ops

/-- A later ledger has the decisions of the earlier one, and further ones after them. -/
theorem decisions_grow (ops ops' : List Op) :
    ∃ later, (runOps .empty (ops ++ ops')).ledger.decisions =
      (runOps .empty ops).ledger.decisions ++ later := by
  rw [runOps_append]
  have hgrow : ∀ db : Database, LedgerOrdered db → ∀ rest : List Op,
      ∃ later, (runOps db rest).ledger.decisions = db.ledger.decisions ++ later := by
    intro db hdb rest
    induction rest generalizing db with
    | nil => exact ⟨[], (List.append_nil _).symm⟩
    | cons operation rest ih =>
      have hstep : ∃ later, (operation.apply db).ledger.decisions =
          db.ledger.decisions ++ later := by
        refine (Op.preserves (P := fun x => LedgerOrdered x ∧ ∃ later, x.ledger.decisions =
          db.ledger.decisions ++ later) ?_ hdb.constraints.resultAttempts
          ⟨hdb, [], (List.append_nil _).symm⟩).2
        rintro a b c ⟨hP, later, heq⟩ - happlies
        have hstep := happlies.ledgerStep hP.ordered
        obtain ⟨added, hadded⟩ := hstep.decisions
        exact ⟨⟨hP.constraints.step happlies, hstep.ordered hP.ordered⟩, later ++ added,
          by rw [hadded, heq, List.append_assoc]⟩
      obtain ⟨first, hfirst⟩ := hstep
      obtain ⟨second, hsecond⟩ := ih _ hdb.op
      exact ⟨first ++ second, by rw [runOps_cons, hsecond, hfirst, List.append_assoc]⟩
  exact hgrow _ (ledgerOrdered_of_run ops) ops'

end Steps

/-! ## Decisions -/

section Protocol

variable [Platform] {db : Database}

omit [Platform] in
/-- The decisions of a proposal, in the order in which they were stored. -/
def decisionsOf (db : Database) (proposalId : Identifier) : List DecisionRow :=
  db.decisions.filter (·.proposalId == proposalId)

omit [Platform] in
theorem map_decisionsOf (db : Database) (proposalId : Identifier) :
    (decisionsOf db proposalId).map DecisionRow.fact = db.ledger.decisionsOf proposalId := by
  simp only [decisionsOf, Ledger.decisionsOf, Database.ledger, List.filter_map]
  rfl

/-- Every proposal has one chain of decisions: deferrals, then at most one acceptance or
rejection.  Every record comes from one proposal and from the one decision that names it, and
none of these serves two records. -/
structure DecisionProtocol (db : Database) : Prop where
  chains : ∀ proposalId, Linked (fun d : DecisionRow => d.decisionId)
    (fun d => d.previousDecisionId) (fun d => d.decision = .defer) (decisionsOf db proposalId)
  proposed : ∀ r ∈ db.records, ∃! p, p ∈ db.proposals ∧ p.proposalId = r.originProposalId
  accepted : ∀ r ∈ db.records, ∃! d, d ∈ db.decisions ∧ d.decision = .accept ∧
    d.resultMemoryId = some r.memoryId
  acceptedBy : ∀ r ∈ db.records, ∀ d ∈ db.decisions, d.resultMemoryId = some r.memoryId →
    d.decisionId = r.acceptedByDecisionId ∧ d.proposalId = r.originProposalId
  distinct : ∀ r ∈ db.records, ∀ r' ∈ db.records,
    r.originProposalId = r'.originProposalId ∨ r.acceptedByDecisionId = r'.acceptedByDecisionId ∨
      r.memoryId = r'.memoryId → r = r'

omit [Platform] in
/-- The decision that a record was accepted by, as a row. -/
theorem LedgerOrdered.accepting (h : LedgerOrdered db) {r : RecordRow} (hr : r ∈ db.records) :
    ∃ d ∈ db.decisions, d.decisionId = r.acceptedByDecisionId ∧
      d.proposalId = r.originProposalId ∧ d.decision = .accept ∧
      d.resultMemoryId = some r.memoryId := by
  obtain ⟨fact, hfact, haccepts⟩ := h.ordered.accepted r.fact (List.mem_map_of_mem hr)
  obtain ⟨d, hd, rfl⟩ := List.mem_map.1 hfact
  exact ⟨d, hd, haccepts⟩

omit [Platform] in
theorem LedgerOrdered.result_unique (h : LedgerOrdered db) {d d' : DecisionRow}
    (hd : d ∈ db.decisions) (hd' : d' ∈ db.decisions) {memoryId : Identifier}
    (hresult : d.resultMemoryId = some memoryId) (hresult' : d'.resultMemoryId = some memoryId) :
    d = d' := by
  have hfacts := h.ordered.results _ (List.mem_map_of_mem hd) _ (List.mem_map_of_mem hd')
    (by simp [DecisionRow.fact, hresult]) (hresult.trans hresult'.symm)
  exact h.constraints.decisionIds.eq_of_mem hd hd' (congrArg DecisionFact.decisionId hfacts)

omit [Platform] in
/-- A proposal is accepted once: the accepting decision ends its chain. -/
theorem LedgerOrdered.accepted_once (h : LedgerOrdered db) {d d' : DecisionRow}
    (hd : d ∈ db.decisions) (hd' : d' ∈ db.decisions) (haccept : d.decision = .accept)
    (haccept' : d'.decision = .accept) (heq : d.proposalId = d'.proposalId) : d = d' := by
  have hchain := h.ordered.decisionChains d.proposalId
  have hmem : DecisionRow.fact d ∈ db.ledger.decisionsOf d.proposalId :=
    mem_decisionsOf.2 ⟨d, hd, rfl, rfl⟩
  have hmem' : DecisionRow.fact d' ∈ db.ledger.decisionsOf d.proposalId :=
    mem_decisionsOf.2 ⟨d', hd', heq.symm, rfl⟩
  obtain ⟨last, hlast⟩ : ∃ last, (db.ledger.decisionsOf d.proposalId).getLast? = some last := by
    cases hlast : (db.ledger.decisionsOf d.proposalId).getLast? with
    | none =>
      rw [List.getLast?_eq_none_iff] at hlast
      rw [hlast] at hmem
      cases hmem
    | some last => exact ⟨last, rfl⟩
  have hends : ∀ row : DecisionRow, row.decision = .accept →
      DecisionRow.fact row ∈ db.ledger.decisionsOf d.proposalId → DecisionRow.fact row = last := by
    intro row hrow hrowMem
    rcases hchain.continues_of_ne_last hlast hrowMem with hrowLast | hdefer
    · exact hrowLast
    · have hdefer' : row.decision = .defer := hdefer
      rw [hrow] at hdefer'
      cases hdefer'
  have hfacts := (hends d haccept hmem).trans (hends d' haccept' hmem').symm
  exact h.constraints.decisionIds.eq_of_mem hd hd' (congrArg DecisionFact.decisionId hfacts)

omit [Platform] in
theorem LedgerOrdered.decisionProtocol (h : LedgerOrdered db) : DecisionProtocol db where
  chains proposalId := by
    have hchain := h.ordered.decisionChains proposalId
    rw [← map_decisionsOf] at hchain
    exact hchain.of_map
  proposed r hr := by
    obtain ⟨p, hp, heq⟩ := List.mem_map.1 (h.ordered.proposed r.fact (List.mem_map_of_mem hr))
    refine ⟨p, ⟨hp, heq⟩, fun p' hp' => ?_⟩
    exact h.constraints.proposalIds.eq_of_mem hp'.1 hp (hp'.2.trans heq.symm)
  accepted r hr := by
    obtain ⟨d, hd, -, -, haccept, hresult⟩ := h.accepting hr
    exact ⟨d, ⟨hd, haccept, hresult⟩, fun d' hd' => h.result_unique hd'.1 hd hd'.2.2 hresult⟩
  acceptedBy r hr d' hd' hresult' := by
    obtain ⟨d, hd, hid, hproposal, -, hresult⟩ := h.accepting hr
    obtain rfl := h.result_unique hd' hd hresult' hresult
    exact ⟨hid, hproposal⟩
  distinct r hr r' hr' hshared := by
    obtain ⟨d, hd, hid, hproposal, haccept, hresult⟩ := h.accepting hr
    obtain ⟨d', hd', hid', hproposal', haccept', hresult'⟩ := h.accepting hr'
    have hsame : r.memoryId = r'.memoryId := by
      rcases hshared with horigin | hby | hmemory
      · have heq := h.accepted_once hd hd' haccept haccept'
          (hproposal.trans (horigin.trans hproposal'.symm))
        rw [heq, hresult', Option.some_inj] at hresult
        exact hresult.symm
      · have heq := h.constraints.decisionIds.eq_of_mem hd hd' (hid.trans (hby.trans hid'.symm))
        rw [heq, hresult', Option.some_inj] at hresult
        exact hresult.symm
      · exact hmemory
    exact h.constraints.recordIds.eq_of_mem hr hr' hsame

/-- After every run the decisions follow the protocol, and a proposal that was accepted or
rejected gets no further decision, whatever happens afterwards. -/
theorem decisions_follow_the_protocol (ops : List Op) :
    DecisionProtocol (runOps .empty ops) ∧
    ∀ (ops' : List Op) (proposalId : Identifier),
      (∃ d ∈ decisionsOf (runOps .empty ops) proposalId, d.decision ≠ .defer) →
      (decisionsOf (runOps .empty (ops ++ ops')) proposalId).map DecisionRow.fact =
        (decisionsOf (runOps .empty ops) proposalId).map DecisionRow.fact := by
  refine ⟨(ledgerOrdered_of_run ops).decisionProtocol, fun ops' proposalId hclosed => ?_⟩
  obtain ⟨d, hd, hends⟩ := hclosed
  obtain ⟨later, hlater⟩ := decisions_grow ops ops'
  have hchain := (ledgerOrdered_of_run (ops ++ ops')).ordered.decisionChains proposalId
  have hsplit : (runOps .empty (ops ++ ops')).ledger.decisionsOf proposalId =
      (runOps .empty ops).ledger.decisionsOf proposalId ++
        later.filter (·.proposalId == proposalId) := by
    rw [Ledger.decisionsOf, hlater, List.filter_append]
    rfl
  rw [hsplit] at hchain
  have hmem : DecisionRow.fact d ∈ (runOps .empty ops).ledger.decisionsOf proposalId := by
    rw [← map_decisionsOf]
    exact List.mem_map_of_mem hd
  have hnone := hchain.eq_nil_of_not_continues hmem hends
  rw [map_decisionsOf, map_decisionsOf, hsplit, hnone, List.append_nil]

end Protocol

section Run

open Sample

/-- A proposal that was accepted and materialized still has its one decision. -/
theorem decisions_follow_the_protocol_of_one_proposal :
    (decisionsOf (runOps .empty ([captureFirst, proposeFirst, acceptFirst] ++ [materializeFirst]))
        (identifier "proposal-1")).map DecisionRow.fact =
      (decisionsOf (runOps .empty [captureFirst, proposeFirst, acceptFirst])
        (identifier "proposal-1")).map DecisionRow.fact :=
  (decisions_follow_the_protocol [captureFirst, proposeFirst, acceptFirst]).2 _ _
    (by decide +kernel)

end Run

/-! ## Lineages -/

section Lineages

variable [Platform] {db : Database}

section Definitions

omit [Platform]

/-- The records of a memory lineage, in the order in which they were stored. -/
def lineageRecords (db : Database) (namespaceId lineageId : Identifier) : List RecordRow :=
  db.records.filter fun row => row.namespaceId == namespaceId && row.lineageId == lineageId

/-- The stored record `memoryId` supersedes `target`. -/
def Supersedes (db : Database) (memoryId target : Identifier) : Prop :=
  ∃ link ∈ db.recordSupersedes, link.owner = memoryId ∧ link.value = target

/-- The event chain of the record ends in an event that confirms it. -/
def EndsConfirmed (db : Database) (memoryId : Identifier) : Prop :=
  ∃ e ∈ db.events, e.memoryId = memoryId ∧
    (∀ next ∈ db.events, next.previousEventId ≠ some e.eventId) ∧
    e.eventType.toState = .confirmed

/-- Every memory lineage is a line. -/
structure Unforked (db : Database) : Prop where
  events : ∀ memoryId, Linked (fun e : EventRow => e.eventId) (fun e => e.previousEventId)
    (fun e => e.eventType = .confirmed) (db.events.filter (·.memoryId == memoryId))
  versions : ∀ namespaceId lineageId,
    ((lineageRecords db namespaceId lineageId).map fun row => row.version.get) =
      List.range' 1 (lineageRecords db namespaceId lineageId).length
  superseded : ∀ namespaceId lineageId, ∀ r ∈ lineageRecords db namespaceId lineageId, ∀ target,
    Supersedes db r.memoryId target ↔
      ∃ t ∈ lineageRecords db namespaceId lineageId,
        t.version.get + 1 = r.version.get ∧ t.memoryId = target
  confirmed : ∀ namespaceId lineageId, ∀ r ∈ lineageRecords db namespaceId lineageId,
    EndsConfirmed db r.memoryId →
      r.version.get = (lineageRecords db namespaceId lineageId).length
  confirmedOnce : ∀ namespaceId lineageId, ∀ r ∈ lineageRecords db namespaceId lineageId,
    ∀ r' ∈ lineageRecords db namespaceId lineageId,
      EndsConfirmed db r.memoryId → EndsConfirmed db r'.memoryId → r = r'
  supersededOnce : ∀ r ∈ db.records, ∀ r' ∈ db.records, ∀ target,
    Supersedes db r.memoryId target → Supersedes db r'.memoryId target → r = r'

theorem map_lineageRecords (db : Database) (namespaceId lineageId : Identifier) :
    (lineageRecords db namespaceId lineageId).map RecordRow.fact =
      db.ledger.lineage namespaceId lineageId := by
  simp only [lineageRecords, Ledger.lineage, Database.ledger, List.filter_map]
  rfl

theorem map_eventsOf (db : Database) (memoryId : Identifier) :
    (db.events.filter (·.memoryId == memoryId)).map EventRow.fact =
      db.ledger.eventsOf memoryId := by
  simp only [Ledger.eventsOf, Database.ledger, List.filter_map]
  rfl

theorem fact_mem_lineage {namespaceId lineageId : Identifier} {r : RecordRow}
    (hr : r ∈ lineageRecords db namespaceId lineageId) :
    r.fact ∈ db.ledger.lineage namespaceId lineageId := by
  rw [← map_lineageRecords]
  exact List.mem_map_of_mem hr

namespace LedgerOrdered

theorem endsConfirmed (h : LedgerOrdered db) {memoryId : Identifier}
    (hends : EndsConfirmed db memoryId) : db.ledger.Confirmed memoryId := by
  obtain ⟨e, he, hof, hnext, hconfirmed⟩ := hends
  refine ⟨e.fact, (h.ordered.eventChains memoryId).getLast?_of_no_next
    (mem_eventsOf.2 ⟨e, he, hof, rfl⟩) fun fact hfact => ?_, ?_⟩
  · obtain ⟨row, hrow, -, rfl⟩ := mem_eventsOf.1 hfact
    exact hnext row hrow
  · show e.eventType = .confirmed
    cases htype : e.eventType <;> simp [htype, MemoryEventType.toState] at hconfirmed ⊢

theorem lineage_version_unique (h : LedgerOrdered db) {namespaceId lineageId : Identifier}
    {r r' : RecordRow} (hr : r ∈ lineageRecords db namespaceId lineageId)
    (hr' : r' ∈ lineageRecords db namespaceId lineageId)
    (heq : r.version.get = r'.version.get) : r = r' := by
  have hfacts := h.ordered.version_unique (fact_mem_lineage hr) (fact_mem_lineage hr') heq
  exact h.constraints.recordIds.eq_of_mem (List.mem_filter.1 hr).1 (List.mem_filter.1 hr').1
    (congrArg RecordFact.memoryId hfacts)

theorem lineage_superseded (h : LedgerOrdered db) {namespaceId lineageId : Identifier}
    {r : RecordRow} (hr : r ∈ lineageRecords db namespaceId lineageId) (target : Identifier) :
    Supersedes db r.memoryId target ↔
      ∃ t ∈ lineageRecords db namespaceId lineageId,
        t.version.get + 1 = r.version.get ∧ t.memoryId = target := by
  refine (h.ordered.superseded namespaceId lineageId r.fact (fact_mem_lineage hr) target).trans ?_
  rw [← map_lineageRecords]
  constructor
  · rintro ⟨fact, hfact, hversion, hid⟩
    obtain ⟨t, ht, rfl⟩ := List.mem_map.1 hfact
    exact ⟨t, ht, hversion, hid⟩
  · rintro ⟨t, ht, hversion, hid⟩
    exact ⟨t.fact, List.mem_map_of_mem ht, hversion, hid⟩

theorem lineage_confirmed (h : LedgerOrdered db) {namespaceId lineageId : Identifier}
    {r : RecordRow} (hr : r ∈ lineageRecords db namespaceId lineageId)
    (hends : EndsConfirmed db r.memoryId) :
    r.version.get = (lineageRecords db namespaceId lineageId).length := by
  have hlast := h.ordered.confirmed namespaceId lineageId r.fact (fact_mem_lineage hr)
    (h.endsConfirmed hends)
  rw [← map_lineageRecords, List.length_map] at hlast
  exact hlast

theorem mem_own_lineage {r : RecordRow} (hr : r ∈ db.records) :
    r ∈ lineageRecords db r.namespaceId r.lineageId :=
  List.mem_filter.2 ⟨hr, by simp⟩

/-- Two records that supersede the same target are of its lineage and of the next version. -/
theorem superseded_once (h : LedgerOrdered db) {r r' : RecordRow} (hr : r ∈ db.records)
    (hr' : r' ∈ db.records) {target : Identifier} (hsup : Supersedes db r.memoryId target)
    (hsup' : Supersedes db r'.memoryId target) : r = r' := by
  obtain ⟨t, ht, hversion, hid⟩ := (h.lineage_superseded (mem_own_lineage hr) target).1 hsup
  obtain ⟨t', ht', hversion', hid'⟩ := (h.lineage_superseded (mem_own_lineage hr') target).1 hsup'
  obtain ⟨hmem, hlineage⟩ := List.mem_filter.1 ht
  obtain ⟨hmem', hlineage'⟩ := List.mem_filter.1 ht'
  have heq : t = t' := h.constraints.recordIds.eq_of_mem hmem hmem' (hid.trans hid'.symm)
  subst heq
  simp only [Bool.and_eq_true, beq_iff_eq] at hlineage hlineage'
  refine h.lineage_version_unique (mem_own_lineage hr) ?_ (by omega)
  rw [← hlineage.1, ← hlineage.2, hlineage'.1, hlineage'.2]
  exact mem_own_lineage hr'

theorem unforked (h : LedgerOrdered db) : Unforked db where
  events memoryId := by
    have hchain := h.ordered.eventChains memoryId
    rw [← map_eventsOf] at hchain
    exact hchain.of_map
  versions namespaceId lineageId := by
    have hversions := h.ordered.versions namespaceId lineageId
    rw [← map_lineageRecords, List.map_map, List.length_map] at hversions
    exact hversions
  superseded _ _ _ hr := h.lineage_superseded hr
  confirmed _ _ _ hr := h.lineage_confirmed hr
  confirmedOnce _ _ _ hr _ hr' hends hends' :=
    h.lineage_version_unique hr hr'
      ((h.lineage_confirmed hr hends).trans (h.lineage_confirmed hr' hends').symm)
  supersededOnce _ hr _ hr' _ := h.superseded_once hr hr'

end LedgerOrdered

end Definitions

/-- No memory lineage forks: after every run its records have the versions from one on, each
supersedes the one before it, and only the last can be confirmed. -/
theorem memory_lineages_never_fork (ops : List Op) : Unforked (runOps .empty ops) :=
  (ledgerOrdered_of_run ops).unforked

end Lineages

end RadishMemory
