import RadishMemory.Construction.Samples
import RadishMemory.Framework.ChainLoops

/-!
# Decision chains and event chains

The program follows a chain of links in three places: `decision_chain_tip` and
`validate_memory_event_chain` scan for the follower of the current entry, `order_decision_chain`
and `order_event_chain` take it out of a map.  All are the two loops of `Framework.ChainLoops`, so
they end on any links, ignore the order in which entries are listed, and agree on which entries
form one chain.  An event that is not a root starts from `confirmed`, so a chain of events has
at most two (`IsEventHistory`).
-/

namespace RadishMemory

/-! ## The loops -/

/-- A decision that is not a deferral ends its proposal. -/
def MemoryDecision.mayBeFollowed (current _ : MemoryDecision) : Prop :=
  current.params.decision = .defer

instance MemoryDecision.decidableMayBeFollowed : DecidableRel MemoryDecision.mayBeFollowed :=
  fun current _ => inferInstanceAs (Decidable (current.params.decision = .defer))

/-- An event starts from the state in which the one before it ends. -/
def MemoryStateEvent.continuesTo (current next : MemoryStateEvent) : Prop :=
  next.params.fromState = some current.params.toState

instance MemoryStateEvent.decidableContinuesTo : DecidableRel MemoryStateEvent.continuesTo :=
  fun current next => inferInstanceAs (Decidable (next.params.fromState =
    some current.params.toState))

/-- One pass of the loop of `decision_chain_tip`. -/
def decisionChainPass (decisions : List MemoryDecision) :
    MemoryDecision × List Identifier →
      (MemoryDecision × List Identifier) ⊕ Option (MemoryDecision × List Identifier) :=
  linkPass (·.params.decisionId) (·.params.previousDecisionId) MemoryDecision.mayBeFollowed
    decisions

/-- One pass of the loop of `validate_memory_event_chain`. -/
def eventChainPass (events : List MemoryStateEvent) :
    MemoryStateEvent × List Identifier →
      (MemoryStateEvent × List Identifier) ⊕ Option (MemoryStateEvent × List Identifier) :=
  linkPass (·.params.eventId) (·.params.previousEventId) MemoryStateEvent.continuesTo events

/-- One pass of the loop of `order_event_chain`. -/
def orderEventPass :
    List MemoryStateEvent × MemoryStateEvent × List MemoryStateEvent →
      (List MemoryStateEvent × MemoryStateEvent × List MemoryStateEvent) ⊕
        (List MemoryStateEvent × List MemoryStateEvent) :=
  takePass (·.params.eventId) (·.params.previousEventId)

theorem walkDecisionChain_eq_run {decisions : List MemoryDecision} {stored : Bool} {bound : Nat}
    {current : MemoryDecision} {visited : List Identifier} :
    walkDecisionChain decisions stored bound current visited =
      (Loop.run (decisionChainPass decisions) bound (current, visited)).join.orError
        (chainError stored) := by
  induction bound generalizing current visited with
  | zero => rfl
  | succ bound ih =>
    rw [walkDecisionChain, decisionChainPass, run_linkPass_succ]
    simp only [ih]
    generalize decisions.filter
      (·.params.previousDecisionId == some current.params.decisionId) = followers
    rcases followers with _ | ⟨next, _ | ⟨_, _⟩⟩ <;> rfl

theorem walkEventChain_eq_run {events : List MemoryStateEvent} {bound : Nat}
    {current : MemoryStateEvent} {visited : List Identifier} :
    walkEventChain events bound current visited =
      (Loop.run (eventChainPass events) bound (current, visited)).join.orError
        (crossError .eventChainConflict) := by
  induction bound generalizing current visited with
  | zero => rfl
  | succ bound ih =>
    rw [walkEventChain, eventChainPass, run_linkPass_succ]
    simp only [ih]
    generalize events.filter
      (·.params.previousEventId == some current.params.eventId) = followers
    rcases followers with _ | ⟨next, _ | ⟨_, _⟩⟩ <;> rfl

/-- The loop of `decision_chain_tip` is left, whatever the links, with what the walk computes. -/
theorem decisionChainPass_ends {decisions : List MemoryDecision} {root : MemoryDecision}
    (hmem : root ∈ decisions) (hroot : root.params.previousDecisionId = none) (stored : Bool) :
    ∃ result, Loop.Ends (decisionChainPass decisions) (root, []) result ∧
      walkDecisionChain decisions stored (decisions.length + 1) root [] =
        result.orError (chainError stored) := by
  obtain ⟨result, hrun⟩ := exists_run_linkPass (fun d : MemoryDecision => d.params.decisionId)
    (fun d => d.params.previousDecisionId) MemoryDecision.mayBeFollowed hmem hroot
  refine ⟨result, Loop.ends_of_run hrun, ?_⟩
  rw [walkDecisionChain_eq_run, decisionChainPass, hrun]
  rfl

theorem eventChainPass_ends {events : List MemoryStateEvent} {root : MemoryStateEvent}
    (hmem : root ∈ events) (hroot : root.params.previousEventId = none) :
    ∃ result, Loop.Ends (eventChainPass events) (root, []) result ∧
      walkEventChain events (events.length + 1) root [] =
        result.orError (crossError .eventChainConflict) := by
  obtain ⟨result, hrun⟩ := exists_run_linkPass (fun e : MemoryStateEvent => e.params.eventId)
    (fun e => e.params.previousEventId) MemoryStateEvent.continuesTo hmem hroot
  refine ⟨result, Loop.ends_of_run hrun, ?_⟩
  rw [walkEventChain_eq_run, eventChainPass, hrun]
  rfl

/-! ## Decisions -/

/-- The last decision, if the decisions form one chain. -/
def decisionChainEnd (decisions : List MemoryDecision) : Option MemoryDecision :=
  chainEnd (·.params.decisionId) (·.params.previousDecisionId) MemoryDecision.mayBeFollowed
    decisions

theorem decisionChainTip_eq_chainEnd {decisions : List MemoryDecision} (stored : Bool)
    (hne : decisions ≠ []) :
    decisionChainTip decisions stored =
      ((decisionChainEnd decisions).map some).orError (chainError stored) := by
  unfold decisionChainTip decisionChainEnd chainEnd
  split
  · exact absurd rfl hne
  · split
    · rename_i root hroots
      simp only [hroots, walkDecisionChain_eq_run, decisionChainPass]
      cases Loop.run (linkPass (fun d : MemoryDecision => d.params.decisionId)
        (fun d => d.params.previousDecisionId) MemoryDecision.mayBeFollowed decisions) _
        (root, []) with
      | none => rfl
      | some result =>
        cases result with
        | none => rfl
        | some reached =>
          obtain ⟨tip, visited⟩ := reached
          by_cases hlength : visited.length = decisions.length
          · simp only [Option.join_some, Option.orError, Except.ok_bind, require_of hlength,
              if_pos hlength]
            rfl
          · simp only [Option.join_some, Option.orError, Except.ok_bind, require_of_not hlength,
              if_neg hlength]
            rfl
    · rename_i hroots
      split
      · rename_i root hroot
        exact absurd hroot (hroots root)
      · rfl

theorem decisionChainTip_perm {decisions decisions' : List MemoryDecision} (stored : Bool)
    (hperm : decisions.Perm decisions') :
    decisionChainTip decisions stored = decisionChainTip decisions' stored := by
  by_cases hne : decisions = []
  · subst hne
    rw [List.nil_perm.1 hperm]
  · have hne' : decisions' ≠ [] := by
      rintro rfl
      exact hne (List.perm_nil.1 hperm)
    rw [decisionChainTip_eq_chainEnd stored hne, decisionChainTip_eq_chainEnd stored hne',
      decisionChainEnd, chainEnd_perm hperm, decisionChainEnd]

/-- Decisions with a tip are put in an order that ends at it. -/
theorem orderDecisionChain_of_tip {decisions : List MemoryDecision} {stored : Bool}
    {tip : MemoryDecision} (h : decisionChainTip decisions stored = .ok (some tip)) :
    ∃ ordered, orderDecisionChain decisions = .ok ordered ∧ ordered.Perm decisions ∧
      Linked (·.params.decisionId) (·.params.previousDecisionId) (fun _ => True) ordered ∧
      ordered.getLast? = some tip := by
  have hne : decisions ≠ [] := by
    rintro rfl
    cases h
  rw [decisionChainTip_eq_chainEnd stored hne, Option.orError_eq_ok_iff,
    Option.map_eq_some_iff] at h
  obtain ⟨tip', htip, hsome⟩ := h
  obtain rfl : tip' = tip := by simpa using hsome
  obtain ⟨ordered, hperm, horder, hlast⟩ := chainEnd_eq_some_iff.1 htip
  refine ⟨ordered, ?_, hperm, horder.linked, hlast⟩
  rw [orderDecisionChain, horder.orderLinks_eq hperm]
  rfl

/-! ## Events -/

/-- The last event, if the events form one chain. -/
def eventChainEnd (events : List MemoryStateEvent) : Option MemoryStateEvent :=
  chainEnd (·.params.eventId) (·.params.previousEventId) MemoryStateEvent.continuesTo events

section Validation

variable [Platform]

/-- Every event names the record, and no two events have one id. -/
structure BelongTo (record : MemoryRecord) (events : List MemoryStateEvent) : Prop where
  identity : ∀ e ∈ events, e.params.namespaceId = record.params.namespaceId ∧
    e.params.memoryId = record.params.memoryId
  nodup : (events.map fun e => e.params.eventId).Nodup

/-- The record stands in the state of the event, and names it as its last one. -/
def ProjectsTo (event : MemoryStateEvent) (record : MemoryRecord) : Prop :=
  record.params.currentState = event.params.toState ∧
    record.params.lastStateEventId = event.params.eventId

instance decidableProjectsTo (event : MemoryStateEvent) (record : MemoryRecord) :
    Decidable (ProjectsTo event record) :=
  inferInstanceAs (Decidable (_ ∧ _))

/-- The event that confirmed the record, and at most one that closed it. -/
structure IsEventHistory (record : MemoryRecord) (events : List MemoryStateEvent) : Prop where
  belong : BelongTo record events
  closed : ∃ root, root.params.eventType = .confirmed ∧ root.params.previousEventId = none ∧
    ((events = [root] ∧ ProjectsTo root record) ∨
      ∃ other, events.Perm [root, other] ∧
        other.params.previousEventId = some root.params.eventId ∧ ProjectsTo other record)

theorem BelongTo.perm {record : MemoryRecord} {events events' : List MemoryStateEvent}
    (h : BelongTo record events) (hperm : events.Perm events') : BelongTo record events' :=
  { identity := fun e he => h.identity e (hperm.mem_iff.2 he)
    nodup := (hperm.map _).nodup_iff.1 h.nodup }

theorem indexEvents_eq_ok_iff {record : MemoryRecord} {seen : List Identifier}
    {events : List MemoryStateEvent} {u : Unit} :
    indexEvents record seen events = .ok u ↔
      BelongTo record events ∧ ∀ e ∈ events, e.params.eventId ∉ seen := by
  induction events generalizing seen with
  | nil =>
    refine ⟨fun _ => ⟨⟨by simp, by simp⟩, by simp⟩, fun _ => rfl⟩
  | cons event rest ih =>
    simp only [indexEvents, requireNamespace, Except.bind_eq_ok_iff, Except.exists_unit_iff,
      require_eq_ok_iff, ih]
    constructor
    · rintro ⟨hnamespace, hmemory, hseen, hbelong, hrest⟩
      refine ⟨⟨?_, ?_⟩, ?_⟩
      · intro e he
        rcases List.mem_cons.1 he with rfl | he
        · exact ⟨hnamespace.symm, hmemory⟩
        · exact hbelong.identity e he
      · rw [List.map_cons, List.nodup_cons]
        refine ⟨fun hmem => ?_, hbelong.nodup⟩
        obtain ⟨e, he, heq⟩ := List.mem_map.1 hmem
        exact hrest e he (by simp [heq])
      · intro e he
        rcases List.mem_cons.1 he with rfl | he
        · exact hseen
        · exact fun hmem => hrest e he (List.mem_cons_of_mem _ hmem)
    · rintro ⟨hbelong, hseen⟩
      have hnodup := hbelong.nodup
      rw [List.map_cons, List.nodup_cons] at hnodup
      obtain ⟨hnamespace, hmemory⟩ := hbelong.identity event (by simp)
      refine ⟨hnamespace.symm, hmemory, hseen event (by simp), ⟨?_, hnodup.2⟩, ?_⟩
      · exact fun e he => hbelong.identity e (List.mem_cons_of_mem _ he)
      · intro e he hmem
        rcases List.mem_cons.1 hmem with heq | hmem
        · exact hnodup.1 (heq ▸ List.mem_map_of_mem he)
        · exact hseen e (List.mem_cons_of_mem _ he) hmem

omit [Platform] in
/-- What the constructor says of an event's links: a root confirms, any other leaves
`confirmed` for another state. -/
theorem MemoryStateEvent.links (event : MemoryStateEvent) :
    (event.params.previousEventId = none ∧ event.params.eventType = .confirmed) ∨
      (event.params.previousEventId ≠ none ∧ event.params.fromState = some .confirmed ∧
        event.params.toState ≠ .confirmed) := by
  have hcheck := event.valid
  simp only [MemoryStateEventParams.check, Except.bind_eq_ok_iff, Except.exists_unit_iff,
    require_eq_ok_iff] at hcheck
  have htransition := hcheck.2
  unfold MemoryStateEventParams.transitionIsValid at htransition
  cases htype : event.params.eventType <;>
    simp_all [MemoryStateEventParams.toState, MemoryEventType.toState, Option.isSome_iff_ne_none]

omit [Platform] in
/-- A chain of events is a root, alone or with one event after it. -/
theorem eventChain_cases {ordered : List MemoryStateEvent}
    (h : ChainOrder (fun e : MemoryStateEvent => e.params.eventId)
      (fun e => e.params.previousEventId) MemoryStateEvent.continuesTo ordered)
    (hne : ordered ≠ []) :
    ∃ root, root.params.eventType = .confirmed ∧ root.params.previousEventId = none ∧
      (ordered = [root] ∨ ∃ other, ordered = [root, other] ∧
        other.params.previousEventId = some root.params.eventId) := by
  cases ordered with
  | nil => exact absurd rfl hne
  | cons root rest =>
    have hroot : root.params.previousEventId = none := h.linked.root root (by simp)
    have hconfirmed : root.params.eventType = .confirmed := by
      rcases root.links with ⟨-, hconfirmed⟩ | ⟨hprevious, -⟩
      · exact hconfirmed
      · exact absurd hroot hprevious
    refine ⟨root, hconfirmed, hroot, ?_⟩
    cases rest with
    | nil => exact .inl rfl
    | cons other rest =>
      have hlinks := h.links
      have hprevious := (List.isChain_cons_cons.1 hlinks).1
      cases rest with
      | nil => exact .inr ⟨other, rfl, hprevious⟩
      | cons third rest =>
        -- a third event would start from the state that `other` has left
        exfalso
        have hthird := (List.isChain_cons_cons.1 (List.isChain_cons_cons.1 hlinks).2).1
        have hstate : third.params.fromState = some other.params.toState :=
          (List.isChain_cons_cons.1 (List.isChain_cons_cons.1 h.admitted).2).1
        rcases other.links with ⟨hnone, -⟩ | ⟨-, -, hleft⟩
        · simp [hnone] at hprevious
        · rcases third.links with ⟨hnone, -⟩ | ⟨-, hfrom, -⟩
          · simp [hnone] at hthird
          · rw [hfrom] at hstate
            exact hleft (by simpa using hstate.symm)

omit [Platform] in
/-- A confirmed root and an event after it are a chain. -/
theorem chainOrder_pair {root other : MemoryStateEvent}
    (hroot : root.params.previousEventId = none)
    (hother : other.params.previousEventId = some root.params.eventId)
    (hnodup : ([root, other].map fun e => e.params.eventId).Nodup) :
    ChainOrder (fun e : MemoryStateEvent => e.params.eventId) (fun e => e.params.previousEventId)
      MemoryStateEvent.continuesTo [root, other] := by
  have hconfirmed : root.params.eventType = .confirmed := by
    rcases root.links with ⟨-, hconfirmed⟩ | ⟨hprevious, -⟩
    · exact hconfirmed
    · exact absurd hroot hprevious
  have hcontinues : root.continuesTo other := by
    rcases other.links with ⟨hnone, -⟩ | ⟨-, hfrom, -⟩
    · simp [hnone] at hother
    · rw [MemoryStateEvent.continuesTo, hfrom, MemoryStateEventParams.toState, hconfirmed]
      rfl
  refine ⟨⟨by simp [hroot], ?_⟩, ?_, hnodup⟩
  · exact List.isChain_cons_cons.2 ⟨⟨hother, trivial⟩, .singleton _⟩
  · exact List.isChain_cons_cons.2 ⟨hcontinues, .singleton _⟩

/-- Of events that belong to the record, the check says only where their chain ends. -/
theorem validateMemoryEventChain_eq {record : MemoryRecord} {events : List MemoryStateEvent}
    (hne : events ≠ []) (hbelong : BelongTo record events) :
    validateMemoryEventChain record events =
      match eventChainEnd events with
      | some last => require (ProjectsTo last record) (crossError .stateProjectionMismatch)
      | none => .error (crossError .eventChainConflict) := by
  have hindex : indexEvents record [] events = .ok () :=
    indexEvents_eq_ok_iff.2 ⟨hbelong, by simp⟩
  rw [validateMemoryEventChain, require_of hne, Except.ok_bind, hindex, Except.ok_bind,
    eventChainEnd, chainEnd]
  split
  · rename_i root hroots
    have hroot : root.params.previousEventId = none := by
      have hsingle : root ∈ events.filter (·.params.previousEventId == none) := by
        rw [hroots]
        exact List.mem_singleton_self root
      exact beq_iff_eq.1 (List.mem_filter.1 hsingle).2
    have hconfirmed : root.params.eventType = .confirmed := by
      rcases root.links with ⟨-, hconfirmed⟩ | ⟨hprevious, -⟩
      · exact hconfirmed
      · exact absurd hroot hprevious
    simp only [require_of hconfirmed, Except.ok_bind, hroots, walkEventChain_eq_run, eventChainPass]
    cases Loop.run (linkPass (fun e : MemoryStateEvent => e.params.eventId)
      (fun e => e.params.previousEventId) MemoryStateEvent.continuesTo events) _ (root, []) with
    | none => rfl
    | some result =>
      cases result with
      | none => rfl
      | some reached =>
        obtain ⟨last, visited⟩ := reached
        by_cases hlength : visited.length = events.length
        · simp only [Option.join_some, Option.orError, Except.ok_bind, require_of hlength,
            if_pos hlength]
          rfl
        · simp only [Option.join_some, Option.orError, Except.ok_bind, require_of_not hlength,
            if_neg hlength]
          rfl
  · rename_i hroots
    split
    · rename_i last hend
      split at hend
      · rename_i root hroot
        exact absurd hroot (hroots root)
      · cases hend
    · rfl

/-- Of events that belong to the record, the order in which they are listed does not matter. -/
theorem validateMemoryEventChain_perm {record : MemoryRecord}
    {events events' : List MemoryStateEvent} (hbelong : BelongTo record events)
    (hperm : events.Perm events') :
    validateMemoryEventChain record events = validateMemoryEventChain record events' := by
  by_cases hne : events = []
  · subst hne
    rw [List.nil_perm.1 hperm]
  · have hne' : events' ≠ [] := by
      rintro rfl
      exact hne (List.perm_nil.1 hperm)
    rw [validateMemoryEventChain_eq hne hbelong,
      validateMemoryEventChain_eq hne' (hbelong.perm hperm), eventChainEnd, chainEnd_perm hperm,
      eventChainEnd]

/-- The check accepts exactly the histories of the record. -/
theorem validateMemoryEventChain_eq_ok_iff {record : MemoryRecord}
    {events : List MemoryStateEvent} :
    validateMemoryEventChain record events = .ok () ↔ IsEventHistory record events := by
  constructor
  · intro h
    have hparts := h
    simp only [validateMemoryEventChain, Except.bind_eq_ok_iff, Except.exists_unit_iff,
      require_eq_ok_iff, indexEvents_eq_ok_iff] at hparts
    obtain ⟨hne, ⟨hbelong, -⟩, -⟩ := hparts
    rw [validateMemoryEventChain_eq hne hbelong] at h
    split at h
    · rename_i last hend
      rw [require_eq_ok_iff] at h
      obtain ⟨ordered, hperm, horder, hlast⟩ := chainEnd_eq_some_iff.1 hend
      have hordered : ordered ≠ [] := by
        rintro rfl
        simp at hlast
      obtain ⟨root, hconfirmed, hroot, rfl | ⟨other, rfl, hother⟩⟩ :=
        eventChain_cases horder hordered
      · obtain rfl : root = last := by simpa using hlast
        exact ⟨hbelong, root, hconfirmed, hroot, .inl ⟨(List.singleton_perm.1 hperm).symm, h⟩⟩
      · obtain rfl : other = last := by simpa using hlast
        exact ⟨hbelong, root, hconfirmed, hroot, .inr ⟨other, hperm.symm, hother, h⟩⟩
    · cases h
  · rintro ⟨hbelong, root, hconfirmed, hroot, ⟨rfl, hprojects⟩ | ⟨other, hperm, hother, hprojects⟩⟩
    · have hend : eventChainEnd [root] = some root :=
        chainEnd_eq_some_iff.2 ⟨[root], .refl _,
          ⟨⟨by simp [hroot], .singleton _⟩, .singleton _, by simp⟩, rfl⟩
      rw [validateMemoryEventChain_eq (by simp) hbelong, hend]
      exact require_of hprojects
    · have hne : events ≠ [] := by
        rintro rfl
        simp at hperm
      have hend : eventChainEnd events = some other :=
        chainEnd_eq_some_iff.2 ⟨[root, other], hperm.symm,
          chainOrder_pair hroot hother (hbelong.perm hperm).nodup, rfl⟩
      rw [validateMemoryEventChain_eq hne hbelong, hend]
      exact require_of hprojects

/-- What the check of an event set accepts, and that its loop ends. -/
structure EventChainCharacterised (record : MemoryRecord) (events : List MemoryStateEvent) :
    Prop where
  accepted_iff : validateMemoryEventChain record events = .ok () ↔ IsEventHistory record events
  accepted_perm : ∀ events', events.Perm events' →
    (validateMemoryEventChain record events = .ok () ↔
      validateMemoryEventChain record events' = .ok ())
  result_perm : BelongTo record events → ∀ events', events.Perm events' →
    validateMemoryEventChain record events = validateMemoryEventChain record events'
  loop_ends : ∀ root ∈ events, root.params.previousEventId = none →
    ∃ result, Loop.Ends (eventChainPass events) (root, []) result ∧
      walkEventChain events (events.length + 1) root [] =
        result.orError (crossError .eventChainConflict)

/-- In any order, a set of events is accepted when it is a root of the record, alone or with one
event after it, that ends where the record stands; only an error may depend on the order, and
only when an event is not of the record or an id occurs twice. -/
theorem event_histories_are_accepted (record : MemoryRecord) (events : List MemoryStateEvent) :
    EventChainCharacterised record events := by
  refine { accepted_iff := validateMemoryEventChain_eq_ok_iff, accepted_perm := ?_,
           result_perm := fun hbelong events' => validateMemoryEventChain_perm hbelong,
           loop_ends := fun root => eventChainPass_ends }
  intro events' hperm
  constructor
  · intro h
    have hbelong := (validateMemoryEventChain_eq_ok_iff.1 h).belong
    rwa [← validateMemoryEventChain_perm hbelong hperm]
  · intro h
    have hbelong := (validateMemoryEventChain_eq_ok_iff.1 h).belong
    rwa [← validateMemoryEventChain_perm hbelong hperm.symm]

end Validation

section Counterexample

open Sample

/-- Two events of one id and one event of another record: what the check meets first is what it
reports. -/
theorem event_errors_follow_the_order :
    ¬ ∀ (record : MemoryRecord) (events events' : List MemoryStateEvent), events.Perm events' →
      validateMemoryEventChain record events = validateMemoryEventChain record events' := by
  intro h
  let own := confirmed (identifier "event-1") (identifier "memory-1") (identifier "decision-1")
  let foreign := confirmed (identifier "event-2") (identifier "memory-2") (identifier "decision-1")
  have hswap : ([own, own, foreign] : List MemoryStateEvent).Perm [foreign, own, own] :=
    @List.perm_append_comm _ [own, own] [foreign]
  have hduplicate : validateMemoryEventChain packRecord [own, own, foreign] =
      .error (crossError .duplicateObject) := rfl
  have hidentity : validateMemoryEventChain packRecord [foreign, own, own] =
      .error (crossError .identityMismatch) := rfl
  have hsame := h packRecord [own, own, foreign] [foreign, own, own] hswap
  rw [hduplicate, hidentity] at hsame
  cases hsame

end Counterexample

/-! ## The helpers agree -/

/-- The tip of a decision chain: its loop ends, the order of the list does not matter, and the
ordered chain ends at it. -/
structure DecisionHelpersAgree (decisions : List MemoryDecision) (stored : Bool) : Prop where
  loop_ends : ∀ root ∈ decisions, root.params.previousDecisionId = none →
    ∃ result, Loop.Ends (decisionChainPass decisions) (root, []) result ∧
      walkDecisionChain decisions stored (decisions.length + 1) root [] =
        result.orError (chainError stored)
  tip_perm : ∀ decisions', decisions.Perm decisions' →
    decisionChainTip decisions stored = decisionChainTip decisions' stored
  tip_is_last : ∀ tip, decisionChainTip decisions stored = .ok (some tip) →
    ∃ ordered, orderDecisionChain decisions = .ok ordered ∧ ordered.Perm decisions ∧
      Linked (·.params.decisionId) (·.params.previousDecisionId) (fun _ => True) ordered ∧
      ordered.getLast? = some tip

/-- The order of an event chain: its loop ends, it lists the events along their links, and it
exists when the events are valid. -/
structure EventHelpersAgree [Platform] (events : List MemoryStateEvent) : Prop where
  loop_ends : ∀ root linked, Loop.Ends orderEventPass ([], root, linked)
    (walkLinks (·.params.eventId) (·.params.previousEventId) linked.length linked root)
  ordered : ∀ ordered, orderEventChain events = .ok ordered → ordered.Perm events ∧
    Linked (·.params.eventId) (·.params.previousEventId) (fun _ => True) ordered
  ordered_of_valid : ∀ record, validateMemoryEventChain record events = .ok () →
    ∃ ordered, orderEventChain events = .ok ordered

/-- On any links, and whether or not ids repeat, the helpers end and agree. -/
theorem chain_helpers_agree [Platform] :
    (∀ decisions stored, DecisionHelpersAgree decisions stored) ∧
      ∀ events, EventHelpersAgree events := by
  constructor
  · intro decisions stored
    exact { loop_ends := fun root hmem hroot => decisionChainPass_ends hmem hroot stored
            tip_perm := fun decisions' => decisionChainTip_perm stored
            tip_is_last := fun tip => orderDecisionChain_of_tip }
  · intro events
    refine { loop_ends := fun root linked => ?_, ordered := fun ordered h => ?_,
             ordered_of_valid := fun record h => ?_ }
    · have hends := @takePass_ends _ _ _ (fun e : MemoryStateEvent => e.params.eventId)
        (fun e => e.params.previousEventId) [] linked root _ le_rfl
      exact hends
    · exact orderLinks_linked (Option.orError_eq_ok_iff.1 h)
    · obtain ⟨hbelong, root, hconfirmed, hroot, ⟨rfl, -⟩ | ⟨other, hperm, hother, -⟩⟩ :=
        validateMemoryEventChain_eq_ok_iff.1 h
      · have horder := @orderLinks_singleton _ _ _ (fun e : MemoryStateEvent => e.params.eventId)
          (fun e => e.params.previousEventId) root hroot
        refine ⟨[root], ?_⟩
        rw [orderEventChain, horder]
        rfl
      · have horder := chainOrder_pair hroot hother (hbelong.perm hperm).nodup
        refine ⟨[root, other], ?_⟩
        rw [orderEventChain, horder.orderLinks_eq hperm.symm]
        rfl

end RadishMemory
