import RadishMemory.Properties.DerivedTables
import RadishMemory.Properties.LinearChains
import RadishMemory.Properties.StoredKeys

/-!
# The ends of event chains, and the projection that follows them

The chain of a record ends in the event that no event comes after.  A materialization starts a
chain and extends those of the records it supersedes; an appended event extends one.  Both move
the projection and the full-text rows of exactly these records (`ChainsMoved`).
-/

namespace RadishMemory

variable [Platform] {db db' : Database}

/-! ## The last event -/

section Rows

omit [Platform]

/-- The event that ends the chain of a record. -/
structure LastEvent (db : Database) (memoryId : Identifier) (e : EventRow) : Prop where
  stored : e ∈ db.events
  owner : e.memoryId = memoryId
  last : ∀ next ∈ db.events, next.previousEventId ≠ some e.eventId

/-- Events have ids of their own, and those of a record are a chain. -/
structure EventChains (db : Database) : Prop where
  ids : UniqueBy EventRow.eventId db.events
  linked : ∀ memoryId, Linked (fun e : EventRow => e.eventId) (fun e => e.previousEventId)
    (fun e => e.eventType = .confirmed) (db.events.filter (·.memoryId == memoryId))

namespace EventChains

theorem previous_stored (h : EventChains db) {e : EventRow} (he : e ∈ db.events)
    {id : Identifier} (hprevious : e.previousEventId = some id) :
    ∃ p ∈ db.events, p.eventId = id ∧ p.memoryId = e.memoryId := by
  obtain ⟨p, hp, hid⟩ := (h.linked e.memoryId).previous_mem
    (List.mem_filter.2 ⟨he, beq_self_eq_true _⟩) hprevious
  obtain ⟨hmem, howner⟩ := List.mem_filter.1 hp
  exact ⟨p, hmem, hid, beq_iff_eq.1 howner⟩

theorem getLast?_of_last (h : EventChains db) {memoryId : Identifier} {e : EventRow}
    (hlast : LastEvent db memoryId e) :
    (db.events.filter (·.memoryId == memoryId)).getLast? = some e := by
  refine (h.linked memoryId).getLast?_of_no_next
    (List.mem_filter.2 ⟨hlast.stored, beq_iff_eq.2 hlast.owner⟩) fun next hnext => ?_
  exact hlast.last next (List.mem_filter.1 hnext).1

theorem last_unique (h : EventChains db) {memoryId : Identifier} {e e' : EventRow}
    (hlast : LastEvent db memoryId e) (hlast' : LastEvent db memoryId e') : e = e' := by
  have hsame := (h.getLast?_of_last hlast).symm.trans (h.getLast?_of_last hlast')
  exact Option.some.inj hsame

/-- An event that no event of its record comes after ends the chain. -/
theorem lastEvent (h : EventChains db) {e : EventRow} (he : e ∈ db.events)
    (hlast : ∀ next ∈ db.events, next.memoryId = e.memoryId →
      next.previousEventId ≠ some e.eventId) : LastEvent db e.memoryId e := by
  refine ⟨he, rfl, fun next hnext hprevious => ?_⟩
  obtain ⟨p, hp, hid, howner⟩ := h.previous_stored hnext hprevious
  obtain rfl := h.ids.eq_of_mem hp he hid
  exact hlast next hnext howner.symm hprevious

end EventChains

/-- A new event starts the chain of its record or comes after its last event. -/
def ExtendsChain (db : Database) (new : EventRow) : Prop :=
  (new.previousEventId = none ∧ ∀ e ∈ db.events, e.memoryId ≠ new.memoryId) ∨
    ∃ last, LastEvent db new.memoryId last ∧ new.previousEventId = some last.eventId

theorem ExtendsChain.previous_stored {new : EventRow} (h : ExtendsChain db new) {id : Identifier}
    (hprevious : new.previousEventId = some id) : ∃ last, LastEvent db new.memoryId last ∧
      last.eventId = id := by
  rcases h with ⟨hnone, -⟩ | ⟨last, hlast, hsome⟩
  · rw [hnone] at hprevious
    cases hprevious
  · rw [hsome, Option.some.injEq] at hprevious
    exact ⟨last, hlast, hprevious⟩

/-- New events end the chains of their records, and every other chain ends as before. -/
theorem lastEvent_append (h : EventChains db) {news : List EventRow}
    (hevents : db'.events = db.events ++ news) (hextends : ∀ n ∈ news, ExtendsChain db n)
    (hfresh : ∀ n ∈ news, ∀ e ∈ db.events, e.eventId ≠ n.eventId) {memoryId : Identifier}
    {e : EventRow} : LastEvent db' memoryId e ↔ (e ∈ news ∧ e.memoryId = memoryId) ∨
      (LastEvent db memoryId e ∧ ∀ n ∈ news, n.memoryId ≠ memoryId) := by
  constructor
  · rintro ⟨hmem, howner, hlast⟩
    rw [hevents] at hlast
    rw [hevents, List.mem_append] at hmem
    rcases hmem with hold | hnew
    · have hends : LastEvent db memoryId e :=
        ⟨hold, howner, fun next hnext => hlast next (List.mem_append_left _ hnext)⟩
      refine .inr ⟨hends, fun n hn hsame => ?_⟩
      rcases hextends n hn with ⟨-, hnone⟩ | ⟨last, hends', hprevious⟩
      · exact hnone e hold (howner.trans hsame.symm)
      · rw [hsame] at hends'
        rw [h.last_unique hends' hends] at hprevious
        exact hlast n (List.mem_append_right _ hn) hprevious
    · exact .inl ⟨hnew, howner⟩
  · rintro (⟨hnew, howner⟩ | ⟨hends, hother⟩)
    · refine ⟨by rw [hevents]; exact List.mem_append_right _ hnew, howner,
        fun next hnext hprevious => ?_⟩
      rw [hevents, List.mem_append] at hnext
      rcases hnext with hold | hnext
      · obtain ⟨p, hp, hid, -⟩ := h.previous_stored hold hprevious
        exact hfresh e hnew p hp hid
      · obtain ⟨last, hends, hid⟩ := (hextends next hnext).previous_stored hprevious
        exact hfresh e hnew last hends.stored hid
    · refine ⟨by rw [hevents]; exact List.mem_append_left _ hends.stored, hends.owner,
        fun next hnext hprevious => ?_⟩
      rw [hevents, List.mem_append] at hnext
      rcases hnext with hold | hnext
      · exact hends.last next hold hprevious
      · obtain ⟨last, hends', hid⟩ := (hextends next hnext).previous_stored hprevious
        obtain rfl := h.ids.eq_of_mem hends'.stored hends.stored hid
        exact hother next hnext (hends'.owner.symm.trans hends.owner)

end Rows

theorem EventChains.of_run (ops : List Op) : EventChains (runOps .empty ops) :=
  ⟨(KeysStored.of_run ops).eventIds, (ledgerOrdered_of_run ops).unforked.events⟩

/-! ## What a loaded record says of its chain -/

/-- A record is read in the state of the event that ends its chain. -/
theorem EventChains.of_load (h : EventChains db) {namespaceId memoryId : Identifier}
    {closure : RecordClosure}
    (hload : loadMemoryRecordClosureWith loadSourceArtifact db namespaceId memoryId =
      .ok (some closure)) : ∃ e, LastEvent db memoryId e ∧
        closure.1.params.currentState = e.eventType.toState ∧
        closure.1.params.lastStateEventId = e.eventId := by
  obtain ⟨row, loaded, hrow, hbase, rfl⟩ := loadMemoryRecordClosureInner_eq_ok hload
  obtain ⟨root, tip, decision, initial, hread⟩ := loadRecordBase_eq_ok hbase
  have hid : row.memoryId = memoryId := lookup_key (activeRecordRow_eq_some_iff.1 hrow).1
  obtain ⟨last, hmem, hnext, hstate, hlast⟩ := validateMemoryEventChain_end hread.valid
  have hevents := loadEventChain_mem hread.chain
  obtain ⟨hstored, howner⟩ := (hevents _).1 ⟨last, hmem, rfl⟩
  have hends := h.lastEvent hstored fun next hnext' hsame hprevious => by
    obtain ⟨e, he, rfl⟩ := (hevents next).2 ⟨hnext', hsame.trans howner⟩
    exact hnext e he hprevious
  rw [howner, hid] at hends
  exact ⟨_, hends, hstate, hlast⟩

/-- An event that extends a loaded record comes after the end of its chain, and closes it. -/
theorem EventChains.of_extension (h : EventChains db) {namespaceId memoryId : Identifier}
    {closure : RecordClosure} {event : MemoryStateEvent} {pending : Option MemoryRecord}
    (hload : loadMemoryRecordClosure db namespaceId memoryId = .ok (some closure))
    (hextension : validateEventExtension db closure.1 closure.2 event pending = .ok ()) :
    event.params.memoryId = memoryId ∧ ExtendsChain db (EventRow.ofEvent event.params) ∧
      event.params.toState ≠ .confirmed := by
  obtain ⟨last, hends, -, hlast⟩ := h.of_load hload
  simp only [validateEventExtension, Except.bind_eq_ok_iff, Except.exists_unit_iff,
    require_eq_ok_iff] at hextension
  obtain ⟨⟨-, hmemory, hprevious, -, -, -⟩, -⟩ := hextension
  have hid : event.params.memoryId = memoryId := hmemory.trans (memoryId_of_load hload)
  refine ⟨hid, .inr ⟨last, ?_, ?_⟩, ?_⟩
  · change LastEvent db event.params.memoryId last
    rw [hid]
    exact hends
  · change event.params.previousEventId = some last.eventId
    rw [hprevious, hlast]
  · rcases event.links with ⟨hnone, -⟩ | ⟨-, -, hstate⟩
    · rw [hprevious] at hnone
      cases hnone
    · exact hstate

/-! ## The updates of the derived rows -/

section Updates

omit [Platform]

/-- The rows after the projections of the records were moved: each record has its new projection
and no full-text row. -/
structure Projected (db db' : Database) (records : List MemoryRecord) : Prop where
  tables : db' = { db with projection := db'.projection, recallFts := db'.recallFts }
  keys : UniqueBy ProjectionRow.memoryId db'.projection
  recallKeys : UniqueBy RecallRow.key db.recallFts → UniqueBy RecallRow.key db'.recallFts
  projection : ∀ row, row ∈ db'.projection ↔ (∃ r ∈ records, row = ProjectionRow.ofRecord r) ∨
    (row ∈ db.projection ∧ ∀ r ∈ records, row.memoryId ≠ r.params.memoryId)
  recallFts : ∀ row, row ∈ db'.recallFts ↔ row ∈ db.recallFts ∧
    ∀ r ∈ records, row.key ≠ RecallKey.memory r

end Updates

theorem updateMemoryRecord_projected {record : MemoryRecord}
    (hkeys : UniqueBy ProjectionRow.memoryId db.projection)
    (h : db.updateMemoryRecord record = .ok db') : Projected db db' [record] := by
  simp only [Database.updateMemoryRecord, Except.bind_eq_ok_iff, Except.exists_unit_iff,
    Except.pure_eq_ok_iff, require_eq_ok_iff] at h
  obtain ⟨-, -, hone, -, rfl⟩ := h
  obtain ⟨old, hold, hselected⟩ : ∃ old ∈ db.projection, Database.projectionSelected record old = true := by
    refine List.countP_pos_iff.1 ?_
    omega
  have hrow : old.memoryId = record.params.memoryId ∧
      old.namespaceId = record.params.namespaceId := by
    simp only [Database.projectionSelected, Bool.and_eq_true, beq_iff_eq] at hselected
    exact hselected.1
  have hnew : { old with
      currentState := record.params.currentState
      lastStateEventId := record.params.lastStateEventId } = ProjectionRow.ofRecord record := by
    simp [ProjectionRow.ofRecord, hrow]
  refine ⟨rfl, UniqueBy.updateWhere hkeys fun _ => rfl, fun hrecall => hrecall.deleteWhere,
    fun row => ?_, fun row => ?_⟩
  · simp only [mem_updateWhere, List.mem_singleton, exists_eq_left, forall_eq]
    constructor
    · rintro ⟨row, hmem, rfl⟩
      by_cases hsel : Database.projectionSelected record row = true
      · have hsame : row = old := by
          simp only [Database.projectionSelected, Bool.and_eq_true, beq_iff_eq] at hsel
          exact hkeys.eq_of_mem hmem hold (hsel.1.1.trans hrow.1.symm)
        rw [if_pos hsel, hsame]
        exact .inl hnew
      · rw [if_neg hsel]
        refine .inr ⟨hmem, fun hid => hsel ?_⟩
        rw [hkeys.eq_of_mem hmem hold (hid.trans hrow.1.symm)]
        exact hselected
    · rintro (rfl | ⟨hmem, hne⟩)
      · refine ⟨old, hold, ?_⟩
        rw [if_pos hselected]
        exact hnew
      · refine ⟨row, hmem, if_neg fun hsel => hne ?_⟩
        simp only [Database.projectionSelected, Bool.and_eq_true, beq_iff_eq] at hsel
        exact hsel.1.1
  · simp only [mem_deleteWhere, beq_eq_false_iff_ne, List.mem_singleton, forall_eq]

theorem foldlM_updateMemoryRecord_projected {targets : List SupersededTarget}
    (hkeys : UniqueBy ProjectionRow.memoryId db.projection)
    (hdistinct : UniqueBy (fun t : SupersededTarget => t.record.params.memoryId) targets)
    (h : targets.foldlM (fun db target => db.updateMemoryRecord target.record) db = .ok db') :
    Projected db db' (targets.map SupersededTarget.record) := by
  induction targets generalizing db with
  | nil =>
    rw [List.foldlM_nil, Except.pure_eq_ok_iff] at h
    subst h
    exact ⟨rfl, hkeys, id, fun row => by simp, fun row => by simp⟩
  | cons target rest ih =>
    rw [List.foldlM_cons, Except.bind_eq_ok_iff] at h
    obtain ⟨db₁, h₁, h₂⟩ := h
    rw [UniqueBy, List.map_cons, List.nodup_cons] at hdistinct
    have hone := updateMemoryRecord_projected hkeys h₁
    have hrest := ih hone.keys hdistinct.2 h₂
    have hother : ∀ t ∈ rest, target.record.params.memoryId ≠ t.record.params.memoryId :=
      fun t ht heq => hdistinct.1 (List.mem_map.2 ⟨t, ht, heq.symm⟩)
    refine ⟨?_, hrest.keys, fun hrecall => hrest.recallKeys (hone.recallKeys hrecall), fun row => ?_,
      fun row => ?_⟩
    · rw [hrest.tables, hone.tables]
    · simp only [hrest.projection, hone.projection, List.mem_map, List.map_cons, List.mem_cons,
        List.not_mem_nil, or_false, forall_eq_or_imp, exists_eq_or_imp, exists_eq_left, forall_eq,
        exists_exists_and_eq_and, forall_exists_index, and_imp, forall_apply_eq_imp_iff₂]
      constructor
      · rintro (hrest | ⟨rfl | ⟨hmem, hne⟩, hall⟩)
        · exact .inl (.inr hrest)
        · exact .inl (.inl rfl)
        · exact .inr ⟨hmem, hne, hall⟩
      · rintro ((rfl | hrest) | ⟨hmem, hne, hall⟩)
        · exact .inr ⟨.inl rfl, hother⟩
        · exact .inl hrest
        · exact .inr ⟨.inr ⟨hmem, hne⟩, hall⟩
    · simp only [hrest.recallFts, hone.recallFts, List.map_cons, List.mem_cons, List.not_mem_nil,
        or_false, forall_eq_or_imp, forall_eq, and_assoc]

end RadishMemory
