import RadishMemory.Construction.Core.Memory
import RadishMemory.Framework.Chain
import RadishMemory.Framework.Table

/-!
# The memory ledger

What the memory tables are for, without their contents: proposals are decided, an accepted
proposal becomes a record, and a record's state is the end of its event chain.  A `Ledger` keeps
the columns that no redaction touches; `Ledger.Step` says when an entry may be added, and
`Ledger.Ordered` is what holds in every ledger that was built by such steps (`Step.ordered`):

* the decisions of a proposal are one chain of deferrals, closed by at most one other decision;
* a record comes from one accepting decision, which names it;
* a lineage is a line: its records have the versions `1, …, n`, each supersedes the one before
  it, and only the last can still be confirmed.
-/

namespace RadishMemory

/-! ## Entries -/

structure DecisionFact where
  decisionId : Identifier
  proposalId : Identifier
  previousDecisionId : Option Identifier
  decision : Decision
  resultMemoryId : Option Identifier

structure RecordFact where
  memoryId : Identifier
  namespaceId : Identifier
  lineageId : Identifier
  version : Nat
  originProposalId : Identifier
  acceptedByDecisionId : Identifier

structure EventFact where
  eventId : Identifier
  memoryId : Identifier
  previousEventId : Option Identifier
  eventType : MemoryEventType

structure Ledger where
  proposals : List Identifier
  decisions : List DecisionFact
  records : List RecordFact
  events : List EventFact
  supersedes : List (Child Identifier Identifier)

namespace Ledger

def decisionsOf (L : Ledger) (proposalId : Identifier) : List DecisionFact :=
  L.decisions.filter (·.proposalId == proposalId)

def eventsOf (L : Ledger) (memoryId : Identifier) : List EventFact :=
  L.events.filter (·.memoryId == memoryId)

def inLineage (namespaceId lineageId : Identifier) (r : RecordFact) : Bool :=
  r.namespaceId == namespaceId && r.lineageId == lineageId

def lineage (L : Ledger) (namespaceId lineageId : Identifier) : List RecordFact :=
  L.records.filter (inLineage namespaceId lineageId)

/-- The record `memoryId` supersedes `target`. -/
def Supersedes (L : Ledger) (memoryId target : Identifier) : Prop :=
  ∃ c ∈ L.supersedes, c.owner = memoryId ∧ c.value = target

/-- The event chain of the record ends in `confirmed`. -/
def Confirmed (L : Ledger) (memoryId : Identifier) : Prop :=
  ∃ last ∈ (L.eventsOf memoryId).getLast?, last.eventType = .confirmed

/-! ## Steps -/

/-- The decision extends the chain of its proposal. -/
structure DecisionAdded (L : Ledger) (d : DecisionFact) : Prop where
  fresh : ∀ other ∈ L.decisions, other.decisionId ≠ d.decisionId
  freshResult : ∀ other ∈ L.decisions, d.resultMemoryId ≠ none →
    other.resultMemoryId ≠ d.resultMemoryId
  previous : d.previousDecisionId = (L.decisionsOf d.proposalId).getLast?.map
    DecisionFact.decisionId
  deferred : ∀ last ∈ (L.decisionsOf d.proposalId).getLast?, last.decision = .defer

/-- The event closes a confirmed record. -/
structure Closes (L : Ledger) (e : EventFact) : Prop where
  closing : e.eventType ≠ .confirmed
  previous : e.previousEventId ≠ none
  last : ∃ last ∈ (L.eventsOf e.memoryId).getLast?, last.eventType = .confirmed ∧
    e.previousEventId = some last.eventId

/-- The record is materialized from its accepting decision.  It starts a lineage, or it
supersedes confirmed records of its lineage, which the given events close. -/
structure RecordAdded (L : Ledger) (r : RecordFact) (initial : EventFact)
    (closing : List EventFact) (targets : List Identifier) : Prop where
  fresh : ∀ other ∈ L.records, other.memoryId ≠ r.memoryId
  freshVersion : ∀ other ∈ L.records, inLineage r.namespaceId r.lineageId other = true →
    other.version ≠ r.version
  proposal : r.originProposalId ∈ L.proposals
  accepted : ∃ d ∈ L.decisions, d.decisionId = r.acceptedByDecisionId ∧
    d.proposalId = r.originProposalId ∧ d.decision = .accept ∧
    d.resultMemoryId = some r.memoryId
  initial : initial.memoryId = r.memoryId ∧ initial.previousEventId = none ∧
    initial.eventType = .confirmed
  closed : ∀ id, id ∈ closing.map EventFact.memoryId ↔ id ∈ targets
  closedOnce : (closing.map EventFact.memoryId).Nodup
  closes : ∀ e ∈ closing, L.Closes e
  found : ∀ id ∈ targets, ∃ t ∈ L.records, t.memoryId = id ∧
    inLineage r.namespaceId r.lineageId t = true
  version : targets = [] ∧ r.version = 1 ∨
    ∃ id ∈ targets, ∃ t ∈ L.records, t.memoryId = id ∧ r.version = t.version + 1

def addRecord (L : Ledger) (r : RecordFact) (initial : EventFact) (closing : List EventFact)
    (targets : List Identifier) : Ledger :=
  { L with
    records := L.records ++ [r]
    events := L.events ++ initial :: closing
    supersedes := L.supersedes ++ enumerate r.memoryId 0 targets }

/-- One entry is added, or nothing happens. -/
inductive Step (L : Ledger) : Ledger → Prop where
  | same : Step L L
  | proposal {proposalId : Identifier} : proposalId ∉ L.proposals →
      Step L { L with proposals := L.proposals ++ [proposalId] }
  | decision {d : DecisionFact} : L.DecisionAdded d →
      Step L { L with decisions := L.decisions ++ [d] }
  | event {e : EventFact} : L.Closes e → Step L { L with events := L.events ++ [e] }
  | record {r : RecordFact} {initial : EventFact} {closing : List EventFact}
      {targets : List Identifier} : L.RecordAdded r initial closing targets →
      Step L (L.addRecord r initial closing targets)

/-! ## Ordered ledgers -/

structure Ordered (L : Ledger) : Prop where
  proposalIds : L.proposals.Nodup
  decisionIds : UniqueBy DecisionFact.decisionId L.decisions
  results : ∀ d ∈ L.decisions, ∀ d' ∈ L.decisions, d.resultMemoryId ≠ none →
    d.resultMemoryId = d'.resultMemoryId → d = d'
  decisionChains : ∀ proposalId, Linked DecisionFact.decisionId DecisionFact.previousDecisionId
    (fun d => d.decision = .defer) (L.decisionsOf proposalId)
  recordIds : UniqueBy RecordFact.memoryId L.records
  proposed : ∀ r ∈ L.records, r.originProposalId ∈ L.proposals
  accepted : ∀ r ∈ L.records, ∃ d ∈ L.decisions, d.decisionId = r.acceptedByDecisionId ∧
    d.proposalId = r.originProposalId ∧ d.decision = .accept ∧
    d.resultMemoryId = some r.memoryId
  eventOwners : ∀ e ∈ L.events, ∃ r ∈ L.records, r.memoryId = e.memoryId
  eventChains : ∀ memoryId, Linked EventFact.eventId EventFact.previousEventId
    (fun e => e.eventType = .confirmed) (L.eventsOf memoryId)
  supersedesOwners : ∀ c ∈ L.supersedes, ∃ r ∈ L.records, r.memoryId = c.owner
  versions : ∀ namespaceId lineageId, (L.lineage namespaceId lineageId).map RecordFact.version =
    List.range' 1 (L.lineage namespaceId lineageId).length
  superseded : ∀ namespaceId lineageId, ∀ r ∈ L.lineage namespaceId lineageId, ∀ target,
    L.Supersedes r.memoryId target ↔
      ∃ t ∈ L.lineage namespaceId lineageId, t.version + 1 = r.version ∧ t.memoryId = target
  confirmed : ∀ namespaceId lineageId, ∀ r ∈ L.lineage namespaceId lineageId,
    L.Confirmed r.memoryId → r.version = (L.lineage namespaceId lineageId).length

theorem Ordered.empty : Ordered ⟨[], [], [], [], []⟩ := by
  constructor <;> intros <;> first
    | exact List.nodup_nil
    | exact UniqueBy.nil
    | exact Linked.nil
    | rfl
    | contradiction

section Lineages

variable {L : Ledger} {namespaceId lineageId : Identifier}

theorem mem_lineage {r : RecordFact} : r ∈ L.lineage namespaceId lineageId ↔
    r ∈ L.records ∧ r.namespaceId = namespaceId ∧ r.lineageId = lineageId := by
  simp [lineage, inLineage]

/-- A lineage has a record of each version from one to its length. -/
theorem Ordered.version_bounds (h : L.Ordered) {r : RecordFact}
    (hr : r ∈ L.lineage namespaceId lineageId) :
    1 ≤ r.version ∧ r.version ≤ (L.lineage namespaceId lineageId).length := by
  have hmem : r.version ∈ (L.lineage namespaceId lineageId).map RecordFact.version :=
    List.mem_map_of_mem hr
  rw [h.versions, List.mem_range'_1] at hmem
  omega

theorem Ordered.version_unique (h : L.Ordered) {r s : RecordFact}
    (hr : r ∈ L.lineage namespaceId lineageId) (hs : s ∈ L.lineage namespaceId lineageId)
    (heq : r.version = s.version) : r = s := by
  have hnodup : ((L.lineage namespaceId lineageId).map RecordFact.version).Nodup := by
    rw [h.versions]
    exact List.nodup_range'
  exact List.inj_on_of_nodup_map hnodup hr hs heq

end Lineages

/-! ## Every step keeps the order -/

namespace Ordered

variable {L : Ledger}

theorem proposalAdded {proposalId : Identifier} (h : L.Ordered) (hnew : proposalId ∉ L.proposals) :
    Ordered { L with proposals := L.proposals ++ [proposalId] } :=
  { h with
    proposalIds := h.proposalIds.append (List.nodup_singleton _)
      (List.disjoint_singleton.2 hnew)
    proposed := fun r hr => List.mem_append_left _ (h.proposed r hr) }

theorem decisionAdded {d : DecisionFact} (h : L.Ordered) (hadded : L.DecisionAdded d) :
    Ordered { L with decisions := L.decisions ++ [d] } := by
  have hresults : ∀ a ∈ L.decisions ++ [d], ∀ b ∈ L.decisions ++ [d], a.resultMemoryId ≠ none →
      a.resultMemoryId = b.resultMemoryId → a = b := by
    intro a ha b hb hsome heq
    rw [List.mem_append, List.mem_singleton] at ha hb
    rcases ha with ha | rfl <;> rcases hb with hb | rfl
    · exact h.results a ha b hb hsome heq
    · exact absurd heq (hadded.freshResult a ha (heq ▸ hsome))
    · exact absurd heq.symm (hadded.freshResult b hb hsome)
    · rfl
  refine { h with
    decisionIds := h.decisionIds.append_singleton hadded.fresh
    results := hresults
    decisionChains := fun proposalId => ?_
    accepted := fun r hr => ?_ }
  · have hsplit : decisionsOf { L with decisions := L.decisions ++ [d] } proposalId =
        L.decisionsOf proposalId ++ if d.proposalId = proposalId then [d] else [] := by
      by_cases heq : d.proposalId = proposalId <;> simp [decisionsOf, heq]
    rw [hsplit]
    by_cases heq : d.proposalId = proposalId
    · subst heq
      rw [if_pos rfl]
      exact (h.decisionChains _).concat hadded.previous hadded.deferred
    · rw [if_neg heq, List.append_nil]
      exact h.decisionChains _
  · obtain ⟨accepting, hmem, haccepted⟩ := h.accepted r hr
    exact ⟨accepting, List.mem_append_left _ hmem, haccepted⟩

/-- A closing event extends the chain of its record. -/
theorem closed_chain (h : L.Ordered) {e : EventFact} (hcloses : L.Closes e) :
    Linked EventFact.eventId EventFact.previousEventId (fun e => e.eventType = .confirmed)
      (L.eventsOf e.memoryId ++ [e]) := by
  obtain ⟨last, hlast, hconfirmed, hprevious⟩ := hcloses.last
  rw [Option.mem_def] at hlast
  refine (h.eventChains _).concat ?_ ?_
  · rw [hlast]
    exact hprevious
  · intro other hother
    rw [hlast, Option.mem_some_iff] at hother
    exact hother ▸ hconfirmed

theorem eventAdded {e : EventFact} (h : L.Ordered) (hcloses : L.Closes e) :
    Ordered { L with events := L.events ++ [e] } := by
  have hsplit : ∀ memoryId, eventsOf { L with events := L.events ++ [e] } memoryId =
      L.eventsOf memoryId ++ if e.memoryId = memoryId then [e] else [] := by
    intro memoryId
    by_cases heq : e.memoryId = memoryId <;> simp [eventsOf, heq]
  refine { h with
    eventOwners := fun other hother => ?_
    eventChains := fun memoryId => ?_
    confirmed := fun namespaceId lineageId r hr hconfirmed => ?_ }
  · rcases List.mem_append.1 hother with hold | hnew
    · exact h.eventOwners other hold
    · rw [List.mem_singleton.1 hnew]
      obtain ⟨last, hlast, -⟩ := hcloses.last
      have hmem := List.mem_of_getLast? hlast
      obtain ⟨hevent, hmemory⟩ := List.mem_filter.1 hmem
      rw [← beq_iff_eq.1 hmemory]
      exact h.eventOwners last hevent
  · rw [hsplit]
    by_cases heq : e.memoryId = memoryId
    · subst heq
      rw [if_pos rfl]
      exact h.closed_chain hcloses
    · rw [if_neg heq, List.append_nil]
      exact h.eventChains _
  · obtain ⟨last, hlast, htype⟩ := hconfirmed
    rw [hsplit] at hlast
    by_cases heq : e.memoryId = r.memoryId
    · rw [if_pos heq, Option.mem_def, List.getLast?_concat, Option.some_inj] at hlast
      exact absurd (hlast ▸ htype) hcloses.closing
    · rw [if_neg heq, List.append_nil] at hlast
      exact h.confirmed namespaceId lineageId r hr ⟨last, hlast, htype⟩

section RecordAdded

variable {r : RecordFact} {initial : EventFact} {closing : List EventFact}
  {targets : List Identifier}

/-- The event that closes a target, if the record is one. -/
theorem closing_filter (hadded : L.RecordAdded r initial closing targets) (memoryId : Identifier) :
    (memoryId ∉ targets ∧ closing.filter (·.memoryId == memoryId) = []) ∨
      ∃ e ∈ closing, memoryId ∈ targets ∧ e.memoryId = memoryId ∧
        closing.filter (·.memoryId == memoryId) = [e] := by
  by_cases hmem : memoryId ∈ targets
  · obtain ⟨e, he, rfl⟩ := List.mem_map.1 ((hadded.closed memoryId).2 hmem)
    exact .inr ⟨e, he, hmem, rfl, UniqueBy.filter_eq_singleton hadded.closedOnce he⟩
  · refine .inl ⟨hmem, List.filter_eq_nil_iff.2 fun e he heq => hmem ?_⟩
    exact (hadded.closed memoryId).1 (List.mem_map.2 ⟨e, he, beq_iff_eq.1 heq⟩)

/-- Every target is the last, confirmed record of the lineage. -/
theorem target_last (h : L.Ordered) (hadded : L.RecordAdded r initial closing targets)
    {id : Identifier} (hid : id ∈ targets) :
    ∃ t ∈ L.lineage r.namespaceId r.lineageId, t.memoryId = id ∧
      t.version = (L.lineage r.namespaceId r.lineageId).length := by
  obtain ⟨t, ht, rfl, hlineage⟩ := hadded.found id hid
  obtain ⟨e, he, heq⟩ := List.mem_map.1 ((hadded.closed t.memoryId).2 hid)
  obtain ⟨last, hlast, hconfirmed, -⟩ := (hadded.closes e he).last
  rw [heq] at hlast
  have hmem : t ∈ L.lineage r.namespaceId r.lineageId := List.mem_filter.2 ⟨ht, hlineage⟩
  exact ⟨t, hmem, rfl, h.confirmed _ _ t hmem ⟨last, hlast, hconfirmed⟩⟩

theorem target_ne (hadded : L.RecordAdded r initial closing targets) {id : Identifier}
    (hid : id ∈ targets) : id ≠ r.memoryId := by
  obtain ⟨t, ht, rfl, -⟩ := hadded.found id hid
  exact hadded.fresh t ht

/-- The new record has the next version of its lineage. -/
theorem next_version (h : L.Ordered) (hadded : L.RecordAdded r initial closing targets) :
    r.version = (L.lineage r.namespaceId r.lineageId).length + 1 := by
  rcases hadded.version with ⟨-, hone⟩ | ⟨id, hid, t, ht, htid, hversion⟩
  · cases hlist : L.lineage r.namespaceId r.lineageId with
    | nil => exact hone
    | cons first rest =>
      -- a lineage with records has one of version one
      have hone' : 1 ∈ (L.lineage r.namespaceId r.lineageId).map RecordFact.version := by
        rw [h.versions, hlist, List.mem_range'_1, List.length_cons]
        omega
      obtain ⟨s, hs, hsversion⟩ := List.mem_map.1 hone'
      obtain ⟨hmem, hlineage⟩ := List.mem_filter.1 hs
      exact absurd (hsversion.trans hone.symm) (hadded.freshVersion s hmem hlineage)
  · obtain ⟨t', ht', htid', hlast⟩ := h.target_last hadded hid
    have heq : t = t' := h.recordIds.eq_of_mem ht (List.mem_filter.1 ht').1 (htid.trans htid'.symm)
    rw [hversion, heq, hlast]

theorem lineage_addRecord (namespaceId lineageId : Identifier) :
    (L.addRecord r initial closing targets).lineage namespaceId lineageId =
      L.lineage namespaceId lineageId ++
        if inLineage namespaceId lineageId r then [r] else [] := by
  by_cases heq : inLineage namespaceId lineageId r = true <;> simp [lineage, addRecord, heq]

theorem eventsOf_addRecord (h : L.Ordered) (hadded : L.RecordAdded r initial closing targets)
    (memoryId : Identifier) :
    (memoryId = r.memoryId ∧
        (L.addRecord r initial closing targets).eventsOf memoryId = [initial]) ∨
      (memoryId ≠ r.memoryId ∧ memoryId ∉ targets ∧
        (L.addRecord r initial closing targets).eventsOf memoryId = L.eventsOf memoryId) ∨
      ∃ e ∈ closing, memoryId ≠ r.memoryId ∧ memoryId ∈ targets ∧ e.memoryId = memoryId ∧
        (L.addRecord r initial closing targets).eventsOf memoryId =
          L.eventsOf memoryId ++ [e] := by
  have hsplit : (L.addRecord r initial closing targets).eventsOf memoryId =
      L.eventsOf memoryId ++ ((if initial.memoryId = memoryId then [initial] else []) ++
        closing.filter (·.memoryId == memoryId)) := by
    by_cases heq : initial.memoryId = memoryId <;> simp [eventsOf, addRecord, heq]
  rw [hadded.initial.1] at hsplit
  by_cases heq : memoryId = r.memoryId
  · subst heq
    have hnone : L.eventsOf r.memoryId = [] := by
      refine List.filter_eq_nil_iff.2 fun e he hmemory => ?_
      obtain ⟨s, hs, hsid⟩ := h.eventOwners e he
      exact hadded.fresh s hs (hsid.trans (beq_iff_eq.1 hmemory))
    rcases closing_filter hadded r.memoryId with ⟨-, hfilter⟩ | ⟨e, -, htarget, -⟩
    · rw [hnone, if_pos rfl, hfilter] at hsplit
      exact .inl ⟨rfl, hsplit⟩
    · exact absurd rfl (target_ne hadded htarget)
  · rw [if_neg (Ne.symm heq), List.nil_append] at hsplit
    rcases closing_filter hadded memoryId with ⟨hnot, hfilter⟩ | ⟨e, he, htarget, hmemory, hfilter⟩
    · rw [hfilter, List.append_nil] at hsplit
      exact .inr (.inl ⟨heq, hnot, hsplit⟩)
    · rw [hfilter] at hsplit
      exact .inr (.inr ⟨e, he, heq, htarget, hmemory, hsplit⟩)

theorem recordAdded_eventChains (h : L.Ordered)
    (hadded : L.RecordAdded r initial closing targets) (memoryId : Identifier) :
    Linked EventFact.eventId EventFact.previousEventId (fun e => e.eventType = .confirmed)
      ((L.addRecord r initial closing targets).eventsOf memoryId) := by
  rcases h.eventsOf_addRecord hadded memoryId with
    ⟨-, heq⟩ | ⟨-, -, heq⟩ | ⟨e, he, -, -, rfl, heq⟩
  · rw [heq]
    exact ⟨by simpa using hadded.initial.2.1, .singleton _⟩
  · rw [heq]
    exact h.eventChains memoryId
  · rw [heq]
    exact h.closed_chain (hadded.closes e he)

theorem recordAdded_versions (h : L.Ordered) (hadded : L.RecordAdded r initial closing targets)
    (namespaceId lineageId : Identifier) :
    ((L.addRecord r initial closing targets).lineage namespaceId lineageId).map
        RecordFact.version =
      List.range' 1 ((L.addRecord r initial closing targets).lineage namespaceId
        lineageId).length := by
  rw [lineage_addRecord]
  by_cases hin : inLineage namespaceId lineageId r = true
  · obtain ⟨rfl, rfl⟩ : r.namespaceId = namespaceId ∧ r.lineageId = lineageId := by
      simpa [inLineage] using hin
    rw [if_pos hin, List.map_append, h.versions, List.length_append, List.length_singleton,
      List.range'_1_concat, List.map_singleton, h.next_version hadded, Nat.add_comm 1]
  · rw [if_neg hin, List.append_nil]
    exact h.versions _ _

theorem supersedes_addRecord (memoryId target : Identifier) :
    (L.addRecord r initial closing targets).Supersedes memoryId target ↔
      L.Supersedes memoryId target ∨ (memoryId = r.memoryId ∧ target ∈ targets) := by
  constructor
  · rintro ⟨c, hc, howner, hvalue⟩
    rcases List.mem_append.1 hc with hold | hnew
    · exact .inl ⟨c, hold, howner, hvalue⟩
    · have hentry := mem_enumerate hnew
      exact .inr ⟨howner ▸ hentry.1, hvalue ▸ hentry.2.2⟩
  · rintro (⟨c, hc, howner, hvalue⟩ | ⟨rfl, htarget⟩)
    · exact ⟨c, List.mem_append_left _ hc, howner, hvalue⟩
    · obtain ⟨c, hc, hvalue⟩ := exists_mem_enumerate r.memoryId 0 htarget
      exact ⟨c, List.mem_append_right _ hc, (mem_enumerate hc).1, hvalue⟩

/-- The new record supersedes nothing yet. -/
theorem supersedes_none (h : L.Ordered) (hadded : L.RecordAdded r initial closing targets)
    (target : Identifier) : ¬ L.Supersedes r.memoryId target := by
  rintro ⟨c, hc, howner, -⟩
  obtain ⟨s, hs, hsid⟩ := h.supersedesOwners c hc
  exact hadded.fresh s hs (hsid.trans howner)

theorem recordAdded_superseded (h : L.Ordered) (hadded : L.RecordAdded r initial closing targets)
    (namespaceId lineageId : Identifier) {s : RecordFact}
    (hs : s ∈ (L.addRecord r initial closing targets).lineage namespaceId lineageId)
    (target : Identifier) :
    (L.addRecord r initial closing targets).Supersedes s.memoryId target ↔
      ∃ t ∈ (L.addRecord r initial closing targets).lineage namespaceId lineageId,
        t.version + 1 = s.version ∧ t.memoryId = target := by
  have hnext := h.next_version hadded
  rw [lineage_addRecord] at hs ⊢
  rw [supersedes_addRecord]
  by_cases hin : inLineage namespaceId lineageId r = true
  · obtain ⟨rfl, rfl⟩ : r.namespaceId = namespaceId ∧ r.lineageId = lineageId := by
      simpa [inLineage] using hin
    rw [if_pos hin, List.mem_append, List.mem_singleton] at hs
    rw [if_pos hin]
    rcases hs with hs | rfl
    · -- an older record: the new one is too late to be superseded by it
      have hne : s.memoryId ≠ r.memoryId := hadded.fresh s (List.mem_filter.1 hs).1
      have hbounds := h.version_bounds hs
      rw [h.superseded _ _ s hs target]
      constructor
      · rintro (⟨t, ht, hversion, hid⟩ | ⟨heq, -⟩)
        · exact ⟨t, List.mem_append_left _ ht, hversion, hid⟩
        · exact absurd heq hne
      · rintro ⟨t, ht, hversion, hid⟩
        rw [List.mem_append, List.mem_singleton] at ht
        rcases ht with ht | rfl
        · exact .inl ⟨t, ht, hversion, hid⟩
        · omega
    · -- the new record: its targets are the record of the version before it
      constructor
      · rintro (hold | ⟨-, htarget⟩)
        · exact absurd hold (h.supersedes_none hadded target)
        · obtain ⟨t, ht, hid, hlast⟩ := h.target_last hadded htarget
          exact ⟨t, List.mem_append_left _ ht, by omega, hid⟩
      · rintro ⟨t, ht, hversion, hid⟩
        refine .inr ⟨rfl, ?_⟩
        rw [List.mem_append, List.mem_singleton] at ht
        rcases ht with ht | rfl
        · rcases hadded.version with ⟨-, hone⟩ | ⟨id, hidmem, -⟩
          · have hbounds := h.version_bounds ht
            omega
          · obtain ⟨t', ht', hid', hlast⟩ := h.target_last hadded hidmem
            have heq : t = t' := h.version_unique ht ht' (by omega)
            rw [← hid, heq, hid']
            exact hidmem
        · omega
  · rw [if_neg hin, List.append_nil] at hs ⊢
    have hne : s.memoryId ≠ r.memoryId := hadded.fresh s (List.mem_filter.1 hs).1
    rw [h.superseded _ _ s hs target]
    constructor
    · rintro (hold | ⟨heq, -⟩)
      · exact hold
      · exact absurd heq hne
    · exact .inl

theorem recordAdded_confirmed (h : L.Ordered) (hadded : L.RecordAdded r initial closing targets)
    (namespaceId lineageId : Identifier) {s : RecordFact}
    (hs : s ∈ (L.addRecord r initial closing targets).lineage namespaceId lineageId)
    (hconfirmed : (L.addRecord r initial closing targets).Confirmed s.memoryId) :
    s.version =
      ((L.addRecord r initial closing targets).lineage namespaceId lineageId).length := by
  have hnext := h.next_version hadded
  rw [lineage_addRecord] at hs ⊢
  -- an older record that is still confirmed was not a target
  have hold : s.memoryId ≠ r.memoryId → s.memoryId ∉ targets ∧ L.Confirmed s.memoryId := by
    intro hne
    obtain ⟨last, hlast, htype⟩ := hconfirmed
    rcases h.eventsOf_addRecord hadded s.memoryId with
      ⟨heq, -⟩ | ⟨-, hnot, heq⟩ | ⟨e, he, -, -, -, heq⟩
    · exact absurd heq hne
    · rw [heq] at hlast
      exact ⟨hnot, last, hlast, htype⟩
    · rw [heq, Option.mem_def, List.getLast?_concat, Option.some_inj] at hlast
      exact absurd (hlast ▸ htype) (hadded.closes e he).closing
  by_cases hin : inLineage namespaceId lineageId r = true
  · obtain ⟨rfl, rfl⟩ : r.namespaceId = namespaceId ∧ r.lineageId = lineageId := by
      simpa [inLineage] using hin
    rw [if_pos hin, List.mem_append, List.mem_singleton] at hs
    rw [if_pos hin, List.length_append, List.length_singleton]
    rcases hs with hs | rfl
    · obtain ⟨hnot, hstill⟩ := hold (hadded.fresh s (List.mem_filter.1 hs).1)
      have hlast := h.confirmed _ _ s hs hstill
      have hbounds := h.version_bounds hs
      rcases hadded.version with ⟨-, hone⟩ | ⟨id, hid, -⟩
      · omega
      · obtain ⟨t, ht, htid, htlast⟩ := h.target_last hadded hid
        have heq : s = t := h.version_unique hs ht (by omega)
        exact absurd (heq ▸ htid ▸ hid) hnot
    · exact hnext
  · rw [if_neg hin, List.append_nil] at hs ⊢
    exact h.confirmed _ _ s hs (hold (hadded.fresh s (List.mem_filter.1 hs).1)).2

theorem recordAdded (h : L.Ordered) (hadded : L.RecordAdded r initial closing targets) :
    Ordered (L.addRecord r initial closing targets) := by
  refine { h with
    recordIds := h.recordIds.append_singleton hadded.fresh
    proposed := fun s hs => ?_
    accepted := fun s hs => ?_
    eventOwners := fun e he => ?_
    eventChains := h.recordAdded_eventChains hadded
    supersedesOwners := fun c hc => ?_
    versions := h.recordAdded_versions hadded
    superseded := fun namespaceId lineageId s hs =>
      h.recordAdded_superseded hadded namespaceId lineageId hs
    confirmed := fun namespaceId lineageId s hs =>
      h.recordAdded_confirmed hadded namespaceId lineageId hs }
  · rcases List.mem_append.1 hs with hold | hnew
    · exact h.proposed s hold
    · rw [List.mem_singleton.1 hnew]
      exact hadded.proposal
  · rcases List.mem_append.1 hs with hold | hnew
    · exact h.accepted s hold
    · rw [List.mem_singleton.1 hnew]
      exact hadded.accepted
  · rcases List.mem_append.1 he with hold | hnew
    · obtain ⟨s, hs, hid⟩ := h.eventOwners e hold
      exact ⟨s, List.mem_append_left _ hs, hid⟩
    · rcases List.mem_cons.1 hnew with rfl | hclosing
      · exact ⟨r, List.mem_append_right _ List.mem_cons_self, hadded.initial.1.symm⟩
      · obtain ⟨t, ht, hid, -⟩ := hadded.found e.memoryId
          ((hadded.closed e.memoryId).1 (List.mem_map_of_mem hclosing))
        exact ⟨t, List.mem_append_left _ ht, hid⟩
  · rcases List.mem_append.1 hc with hold | hnew
    · obtain ⟨s, hs, hid⟩ := h.supersedesOwners c hold
      exact ⟨s, List.mem_append_left _ hs, hid⟩
    · exact ⟨r, List.mem_append_right _ List.mem_cons_self, (mem_enumerate hnew).1.symm⟩

end RecordAdded

end Ordered

/-- Every step of a ledger keeps it ordered. -/
theorem Step.ordered {L L' : Ledger} (hstep : Step L L') (h : L.Ordered) : L'.Ordered := by
  cases hstep with
  | same => exact h
  | proposal hnew => exact h.proposalAdded hnew
  | decision hadded => exact h.decisionAdded hadded
  | event hcloses => exact h.eventAdded hcloses
  | record hadded => exact h.recordAdded hadded

/-- Decisions are only ever added, at the end. -/
theorem Step.decisions {L L' : Ledger} (hstep : Step L L') :
    ∃ later, L'.decisions = L.decisions ++ later := by
  cases hstep with
  | decision hadded => exact ⟨_, rfl⟩
  | same | proposal | event | record => exact ⟨[], (List.append_nil _).symm⟩

end Ledger

end RadishMemory
