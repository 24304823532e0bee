import RadishMemory.Properties.FileLineages

/-!
# The keys of stored rows

The schema checks the keys of a row when the row is inserted, and no later statement rewrites
them.  So the keys of the sources, records and events of a library are always texts that the
derived tables accept.
-/

namespace RadishMemory

variable [Platform] {db db' : Database}

/-! ## Operations, with the source writes apart -/

/-- What a capture and a stored source establish, and every other change preserves, an operation
preserves. -/
theorem Op.preserves_writes {P : Database → Prop} (op : Op)
    (hc : Constraints db) (h : P db)
    (hcapture : ∀ db' capture result, RadishMemory.captureSource db capture = .ok (db', result) →
      P db')
    (hstore : ∀ db' source, RadishMemory.storeSourceArtifact db source = .ok db' → P db')
    (hstep : ∀ a b (c : Change), Constraints a → P a → sourceTable.added c = [] →
      c.Applies a b → P b) : P (op.apply db) := by
  cases op with
  | captureSource capture =>
    refine committed_cases h fun db' hok => ?_
    obtain ⟨⟨captured, result⟩, hcaptured, rfl⟩ := Except.map_eq_ok_iff.1 hok
    exact hcapture _ _ _ hcaptured
  | storeSourceArtifact source => exact committed_cases h fun db' hok => hstore _ _ hok
  | storeSourceFragments fragments =>
    refine committed_cases h fun db' hok => ?_
    obtain ⟨owner, hadded⟩ := fragmentsAdded_of_insert hok
    exact hstep _ _ (.fragments owner fragments) hc h rfl hadded
  | storeMemoryProposal proposal =>
    exact committed_cases h fun db' hok => hstep _ _ (.proposal proposal) hc h rfl hok
  | storeMemoryDecision decision =>
    exact committed_cases h fun db' hok => hstep _ _ (.decision decision) hc h rfl hok
  | materializeAcceptedMemory record initialEvent supersededEvents =>
    exact committed_cases h fun db' hok =>
      hstep _ _ (.memory record initialEvent supersededEvents) hc h rfl hok
  | appendMemoryStateEvent event =>
    exact committed_cases h fun db' hok => hstep _ _ (.event event) hc h rfl hok
  | rebuildRecallDerivations =>
    exact committed_cases h fun db' hok =>
      hstep _ _ .derived hc h rfl (rebuildRecallDerivations_eq_ok hok)
  | storeDeleteRequest request =>
    refine committed_cases h fun db' hok => ?_
    obtain ⟨closure, hstored⟩ := storeDeleteRequest_eq_ok hok
    exact hstep _ _ (.request request closure) hc h rfl hstored
  | executeDeletion namespaceId deleteRequestId execution faulty breaksAfter =>
    refine (Op.preserves (P := fun x => P x ∧ Constraints x) (fun a b c ha hw happlies => ?_)
      hc.resultAttempts ⟨h, hc⟩).1
    refine ⟨hstep a b c ha.2 ha.1 ?_ happlies, ha.2.step happlies⟩
    cases c with
    | source new => cases hw
    | _ => rfl
  | storeDeletionEvidence evidence breaksAfter =>
    refine (storeDeletionEvidence_safe (I := P) (Q := fun _ => P) h
      (fun _ => h) fun latest db' hchecked hrow => ?_).runWith h
    have hstored : P db' := hstep _ _ (.evidence evidence latest) hc h rfl ⟨hchecked, hrow⟩
    exact ⟨hstored, hstored⟩

/-! ## The keys -/

section Rows

omit [Platform]

def SourceRow.KeysOk (row : SourceRow) : Prop :=
  idOk row.sourceId = true ∧ idOk row.lineageId = true ∧ idOk row.namespaceId = true

def RecordRow.KeysOk (row : RecordRow) : Prop :=
  idOk row.memoryId = true ∧ idOk row.namespaceId = true

theorem SourceRow.KeysOk.of_position {s t : SourceRow} (h : s.KeysOk)
    (hposition : t.position = s.position) : t.KeysOk := by
  obtain ⟨hid, ⟨hns, hlineage⟩, -⟩ := position_eq_iff.1 hposition
  unfold SourceRow.KeysOk
  rw [hid, hns, hlineage]
  exact h

end Rows

/-- The keys of every stored row are accepted, and events have ids of their own. -/
structure KeysStored (db : Database) : Prop where
  sources : ∀ s ∈ db.sources, s.KeysOk
  records : ∀ r ∈ db.records, r.KeysOk
  events : ∀ e ∈ db.events, idOk e.eventId = true
  eventIds : UniqueBy EventRow.eventId db.events

theorem insertSourceArtifact_keys {source : SourceArtifact}
    (h : insertSourceArtifact db source = .ok db') :
    (SourceRow.ofArtifact source.params).KeysOk := by
  simp only [insertSourceArtifact, insertSourceMetadata, Except.bind_eq_ok_iff] at h
  obtain ⟨_, ⟨-, -, -, -, -, -, _, hmetadata, -⟩, -⟩ := h
  obtain ⟨hcheck, -⟩ := Database.insertSource_eq_ok_iff.1 hmetadata
  simp only [SourceRow.check, Bool.and_eq_true] at hcheck
  obtain ⟨⟨⟨⟨⟨⟨⟨⟨⟨hid, hlineage⟩, hns⟩, -⟩, -⟩, -⟩, -⟩, -⟩, -⟩, -⟩ := hcheck
  exact ⟨hid, hlineage, hns⟩

theorem insertRecord_keys {record : MemoryRecord} (h : insertRecord db record = .ok db') :
    (RecordRow.ofRecord record.params).KeysOk := by
  simp only [insertRecord, Except.bind_eq_ok_iff] at h
  obtain ⟨-, -, _, hrow, -⟩ := h
  rw [Database.insertRecordRow, insertInto_eq_ok_iff] at hrow
  have hcheck := hrow.1
  simp only [RecordRow.check, Bool.and_eq_true] at hcheck
  obtain ⟨⟨⟨⟨⟨⟨⟨hid, -⟩, hns⟩, -⟩, -⟩, -⟩, -⟩, -⟩ := hcheck
  exact ⟨hid, hns⟩

omit [Platform] in
theorem insertEvent_keys {event : MemoryStateEvent} (h : insertEvent db event = .ok db') :
    idOk event.params.eventId = true := by
  simp only [insertEvent, Except.bind_eq_ok_iff] at h
  obtain ⟨_, hrow, -⟩ := h
  rw [Database.insertEventRow, insertInto_eq_ok_iff] at hrow
  have hcheck := hrow.1
  simp only [EventRow.check, Bool.and_eq_true] at hcheck
  exact hcheck.1.1.1.1.1.1.1.1

omit [Platform] in
theorem foldlM_insertEvent_keys {events : List MemoryStateEvent}
    (h : events.foldlM insertEvent db = .ok db') : ∀ e ∈ events, idOk e.params.eventId = true := by
  induction events generalizing db with
  | nil => exact fun e he => absurd he List.not_mem_nil
  | cons event rest ih =>
    rw [List.foldlM_cons, Except.bind_eq_ok_iff] at h
    obtain ⟨_, hevent, hrest⟩ := h
    intro e he
    rcases List.mem_cons.1 he with rfl | he
    · exact insertEvent_keys hevent
    · exact ih hrest e he

/-! ## Changes -/

/-- The events a change adds. -/
def Change.newEvents : Change → List MemoryStateEvent
  | .memory _ initialEvent supersededEvents => initialEvent :: supersededEvents
  | .event new => [new]
  | _ => []

theorem Change.tables_events (c : Change) : (c.tables db).events =
    db.events ++ c.newEvents.map fun e => EventRow.ofEvent e.params := by
  cases c with
  | component executed attemptOrdinal componentType =>
    cases componentType <;> exact (List.append_nil _).symm
  | memory record initialEvent supersededEvents => rfl
  | event new => rfl
  | _ => exact (List.append_nil _).symm

theorem Change.Applies.events (hc : Constraints db) {c : Change} (h : c.Applies db db') :
    db'.events = db.events ++ c.newEvents.map fun e => EventRow.ofEvent e.params := by
  rw [← c.tables_events, h.tables hc]
  rfl

/-- The new events of a change have new ids, and the schema accepted them. -/
structure NewEvents (db : Database) (events : List MemoryStateEvent) : Prop where
  fresh : ∀ e ∈ events, ∀ r ∈ db.events, r.eventId ≠ e.params.eventId
  distinct : (events.map fun e => e.params.eventId).Nodup
  keys : ∀ e ∈ events, idOk e.params.eventId = true

theorem Change.Applies.newEvents {c : Change} (h : c.Applies db db') :
    NewEvents db c.newEvents := by
  cases c with
  | memory record initialEvent supersededEvents =>
    obtain ⟨proposal, superseded, hm⟩ := materializeAcceptedMemory_eq_ok h
    refine ⟨hm.freshEvents.ids, hm.freshEvents.distinct, ?_⟩
    have hok : materializeAcceptedMemory db record initialEvent supersededEvents = .ok db' := h
    simp only [materializeAcceptedMemory, Except.bind_eq_ok_iff] at hok
    obtain ⟨_, -, _, -, _, hinitial, _, hsuperseded, -⟩ := hok
    intro e he
    rcases List.mem_cons.1 he with rfl | he
    · exact insertEvent_keys hinitial
    · exact foldlM_insertEvent_keys hsuperseded e he
  | event new =>
    obtain ⟨-, -, -, -, -, -, hfresh, -⟩ := appendMemoryStateEvent_eq_ok h
    refine ⟨hfresh.ids, hfresh.distinct, ?_⟩
    have hok : appendMemoryStateEvent db new = .ok db' := h
    simp only [appendMemoryStateEvent, Except.bind_eq_ok_iff] at hok
    obtain ⟨-, -, -, -, -, -, -, -, _, hinsert, -⟩ := hok
    intro e he
    rw [List.mem_singleton.1 he]
    exact insertEvent_keys hinsert
  | _ => exact ⟨fun _ he => absurd he List.not_mem_nil, List.nodup_nil,
      fun _ he => absurd he List.not_mem_nil⟩

theorem Change.Applies.newRecord_keys {c : Change} (h : c.Applies db db') :
    ∀ r ∈ recordTable.added c, r.KeysOk := by
  intro r hr
  cases c with
  | memory record initialEvent supersededEvents =>
    have hok : materializeAcceptedMemory db record initialEvent supersededEvents = .ok db' := h
    simp only [materializeAcceptedMemory, Except.bind_eq_ok_iff] at hok
    obtain ⟨_, -, _, hrecord, -⟩ := hok
    rw [List.mem_singleton.1 hr]
    exact insertRecord_keys hrecord
  | _ => cases hr

namespace KeysStored

/-- Every row but that of a new source keeps the keys it had. -/
theorem step (h : KeysStored db) (hc : Constraints db) {c : Change}
    (hnone : sourceTable.added c = []) (happlies : c.Applies db db') : KeysStored db' := by
  have hevents := happlies.events hc
  have hnew := happlies.newEvents
  refine ⟨fun s hs => ?_, fun r hr => ?_, fun e he => ?_, ?_⟩
  · rcases (sourceTable_sound.mem_rows hc happlies).1 hs with ⟨old, hold, rfl⟩ | hadded
    · have hposition : (sourceTable.on db c old).position = old.position :=
        sourceTable.on_column (fun _ _ => rfl) (fun _ => rfl) c old
      exact (h.sources old hold).of_position hposition
    · rw [hnone] at hadded
      cases hadded
  · rcases (recordTable_sound.mem_rows hc happlies).1 hr with ⟨old, hold, rfl⟩ | hadded
    · have hid : (recordTable.on db c old).memoryId = old.memoryId := recordTable.on_id c old
      have hns : (recordTable.on db c old).namespaceId = old.namespaceId :=
        recordTable.on_column (fun _ _ => rfl) (fun _ => rfl) c old
      unfold RecordRow.KeysOk
      rw [hid, hns]
      exact h.records old hold
    · exact happlies.newRecord_keys r hadded
  · rw [hevents, List.mem_append, List.mem_map] at he
    rcases he with he | ⟨e, he, rfl⟩
    · exact h.events e he
    · exact hnew.keys e he
  · rw [hevents]
    refine h.eventIds.append ?_ fun new hmem r hr => ?_
    · rw [UniqueBy, List.map_map]
      exact hnew.distinct
    · obtain ⟨e, he, rfl⟩ := List.mem_map.1 hmem
      exact hnew.fresh e he r hr

/-- A written source is one more row with accepted keys. -/
theorem of_source (h : KeysStored db) {source : SourceArtifact} {inserted : Database}
    (hinsert : insertSourceArtifact db source = .ok inserted)
    (hsources : db'.sources = db.sources ++ [SourceRow.ofArtifact source.params])
    (hrecords : db'.records = db.records) (hevents : db'.events = db.events) : KeysStored db' := by
  refine ⟨fun s hs => ?_, by rw [hrecords]; exact h.records, by rw [hevents]; exact h.events,
    by rw [hevents]; exact h.eventIds⟩
  rw [hsources, List.mem_append, List.mem_singleton] at hs
  rcases hs with hs | rfl
  · exact h.sources s hs
  · exact insertSourceArtifact_keys hinsert

theorem of_capture (h : KeysStored db) {capture : SourceCapture} {result : SourceCaptureResult}
    (hcapture : captureSource db capture = .ok (db', result)) : KeysStored db' := by
  obtain ⟨-, -, rfl | ⟨current, outcome, -, hfacts⟩⟩ := captureSource_eq_ok hcapture
  · exact h
  obtain ⟨audit, db₁, db₂, db₃, db₄, h₁, h₂, h₃, h₄, h₅⟩ := insertCaptureFacts_steps hfacts
  obtain ⟨owner, hfragments⟩ := fragmentsAdded_of_insert h₄
  have hadded := sourceAdded_of_insert h₁ h₂
  have hstored : KeysStored db₂ := by
    refine h.of_source h₁ hadded.sources ?_ ?_
    · rcases hadded.tip with ⟨-, -, rfl⟩ | ⟨current, -, -, -, -, rfl⟩ <;> rfl
    · rcases hadded.tip with ⟨-, -, rfl⟩ | ⟨current, -, -, -, -, rfl⟩ <;> rfl
  have hbound : db₃.sources = db₂.sources ∧ db₃.records = db₂.records ∧
      db₃.events = db₂.events := by
    by_cases hcreated : outcome = .created
    · rw [if_pos hcreated] at h₃
      obtain ⟨-, rfl⟩ := Database.insertBinding_eq_ok h₃
      exact ⟨rfl, rfl, rfl⟩
    · rw [if_neg hcreated] at h₃
      cases h₃
      exact ⟨rfl, rfl, rfl⟩
  obtain rfl := hfragments.result
  obtain ⟨-, -, rfl⟩ := Database.insertAudit_eq_ok h₅
  obtain ⟨hsources, hrecords, hevents⟩ := hbound
  have hkept : KeysStored db₃ := ⟨by rw [hsources]; exact hstored.sources,
    by rw [hrecords]; exact hstored.records, by rw [hevents]; exact hstored.events,
    by rw [hevents]; exact hstored.eventIds⟩
  exact ⟨hkept.sources, hkept.records, hkept.events, hkept.eventIds⟩

theorem op (h : KeysStored db) (hc : Constraints db) (op : Op) : KeysStored (op.apply db) := by
  refine op.preserves_writes hc h (fun db' capture result hok => h.of_capture hok)
    (fun db' source hok => ?_) fun a b c hca ha hnone happlies => ha.step hca hnone happlies
  obtain ⟨-, hinsert, htip⟩ := storeSourceArtifact_eq_ok hok
  have hadded := sourceAdded_of_insert hinsert htip
  refine h.of_source hinsert hadded.sources ?_ ?_
  · rcases hadded.tip with ⟨-, -, rfl⟩ | ⟨current, -, -, -, -, rfl⟩ <;> rfl
  · rcases hadded.tip with ⟨-, -, rfl⟩ | ⟨current, -, -, -, -, rfl⟩ <;> rfl

theorem of_run (ops : List Op) : KeysStored (runOps .empty ops) := by
  have hboth := runOps_invariant (P := fun x => KeysStored x ∧ Constraints x)
    (fun _ op h => ⟨h.1.op h.2 op, Op.constraints h.2⟩)
    ⟨⟨fun _ hs => absurd hs List.not_mem_nil, fun _ hr => absurd hr List.not_mem_nil,
      fun _ he => absurd he List.not_mem_nil, .nil⟩, Constraints.empty⟩ ops
  exact hboth.1

end KeysStored

end RadishMemory
