import RadishMemory.Properties.Verification
import RadishMemory.Properties.Execution

/-!
# Operations as sequences of changes

Every operation of the library is a sequence of elementary changes of the tables, each with the
facts that its checks established (`Op.reaches`).  An invariant that every change preserves is
preserved by every operation (`Op.preserves`), so each invariant below is one case analysis over
`Change` and never looks into an operation again.
-/

namespace RadishMemory

variable [Platform] {db db' : Database}

/-! ## Attempts -/

section Attempts

omit [Platform]

theorem foldl_max_ge (rest : List Nat) (first : Nat) :
    first ≤ rest.foldl max first ∧ ∀ n ∈ rest, n ≤ rest.foldl max first := by
  induction rest generalizing first with
  | nil => simp
  | cons m rest ih =>
    obtain ⟨hfirst, hrest⟩ := ih (max first m)
    refine ⟨le_trans (le_max_left _ _) hfirst, fun n hn => ?_⟩
    rcases List.mem_cons.1 hn with rfl | hn
    · exact le_trans (le_max_right _ _) hfirst
    · exact hrest n hn

theorem foldl_max_mem (rest : List Nat) (first : Nat) :
    rest.foldl max first = first ∨ rest.foldl max first ∈ rest := by
  induction rest generalizing first with
  | nil => simp
  | cons m rest ih =>
    rcases ih (max first m) with h | h
    · rw [List.foldl_cons, h]
      rcases Nat.le_total first m with hm | hm <;> simp [hm]
    · exact .inr (List.mem_cons_of_mem _ h)

/-- The latest attempt is an attempt of the request, and no attempt is later. -/
theorem latestAttempt_eq_some {deleteRequestId : Identifier} {n : Nat}
    (h : latestAttempt db deleteRequestId = some n) :
    (∃ a ∈ db.attempts, a.deleteRequestId = deleteRequestId ∧ a.attemptOrdinal = n) ∧
      ∀ a ∈ db.attempts, a.deleteRequestId = deleteRequestId → a.attemptOrdinal ≤ n := by
  have hmem : ∀ m, m ∈ attemptOrdinals db deleteRequestId ↔
      ∃ a ∈ db.attempts, a.deleteRequestId = deleteRequestId ∧ a.attemptOrdinal = m := by
    intro m
    simp [attemptOrdinals, and_assoc]
  unfold latestAttempt at h
  split at h
  · cases h
  · rename_i first rest hlist
    cases h
    rw [hlist] at hmem
    refine ⟨(hmem _).1 ?_, fun a ha hD => ?_⟩
    · rcases foldl_max_mem rest first with heq | hin
      · rw [heq]
        exact List.mem_cons_self
      · exact List.mem_cons_of_mem _ hin
    · have hin := (hmem a.attemptOrdinal).2 ⟨a, ha, hD, rfl⟩
      obtain ⟨hfirst, hrest⟩ := foldl_max_ge rest first
      rcases List.mem_cons.1 hin with heq | hin
      · rw [heq]
        exact hfirst
      · exact hrest _ hin

theorem latestAttempt_eq_none {deleteRequestId : Identifier}
    (h : latestAttempt db deleteRequestId = none) :
    ∀ a ∈ db.attempts, a.deleteRequestId ≠ deleteRequestId := by
  intro a ha hD
  have hmem : a.attemptOrdinal ∈ attemptOrdinals db deleteRequestId := by
    simp only [attemptOrdinals, List.mem_map, List.mem_filter, beq_iff_eq]
    exact ⟨a, ⟨ha, hD⟩, rfl⟩
  unfold latestAttempt at h
  split at h
  · rename_i hnil
    rw [hnil] at hmem
    cases hmem
  · cases h

/-- The attempt that is opened next is later than every attempt so far. -/
theorem attemptOrdinal_lt_next {deleteRequestId : Identifier} {a : AttemptRow}
    (ha : a ∈ db.attempts) (hD : a.deleteRequestId = deleteRequestId) :
    a.attemptOrdinal < (latestAttempt db deleteRequestId).getD 0 + 1 := by
  cases h : latestAttempt db deleteRequestId with
  | none => exact absurd hD (latestAttempt_eq_none h a ha)
  | some n => exact Nat.lt_succ_of_le ((latestAttempt_eq_some h).2 a ha hD)

theorem latestAttempt_congr (h : db'.attempts = db.attempts) (deleteRequestId : Identifier) :
    latestAttempt db' deleteRequestId = latestAttempt db deleteRequestId := by
  rw [latestAttempt, latestAttempt, attemptOrdinals, attemptOrdinals, h]

/-- An attempt that is later than every other is the latest. -/
theorem latestAttempt_append {row : AttemptRow}
    (h : ∀ a ∈ db.attempts, a.deleteRequestId = row.deleteRequestId →
      a.attemptOrdinal ≤ row.attemptOrdinal) :
    latestAttempt { db with attempts := db.attempts ++ [row] } row.deleteRequestId =
      some row.attemptOrdinal := by
  cases hlatest : latestAttempt { db with attempts := db.attempts ++ [row] }
      row.deleteRequestId with
  | none => exact absurd rfl (latestAttempt_eq_none hlatest row (by simp))
  | some n =>
    obtain ⟨⟨a, ha, hD, rfl⟩, hmax⟩ := latestAttempt_eq_some hlatest
    have hge := hmax row (by simp) rfl
    rw [Option.some.injEq]
    rcases List.mem_append.1 ha with ha | ha
    · exact le_antisymm (h a ha hD) hge
    · rw [List.mem_singleton.1 ha]

/-- Opening an attempt of one request leaves the attempts of the others. -/
theorem latestAttempt_append_of_ne {row : AttemptRow} {deleteRequestId : Identifier}
    (h : row.deleteRequestId ≠ deleteRequestId) :
    latestAttempt { db with attempts := db.attempts ++ [row] } deleteRequestId =
      latestAttempt db deleteRequestId := by
  rw [latestAttempt, latestAttempt, attemptOrdinals, attemptOrdinals]
  simp [h]

/-- Some component of the attempt has failed. -/
def failedIn (db : Database) (deleteRequestId : Identifier) (attemptOrdinal : Nat) : Bool :=
  db.results.any fun row => row.deleteRequestId == deleteRequestId &&
    row.attemptOrdinal == attemptOrdinal && row.status == .failed

/-- Results belong to attempts. -/
def ResultsHaveAttempts (db : Database) : Prop :=
  References (fun r : ResultRow => (r.deleteRequestId, r.attemptOrdinal)) db.results
    (fun a : AttemptRow => (a.deleteRequestId, a.attemptOrdinal)) db.attempts

end Attempts

/-! ## Changes -/

/-- An elementary change of the tables. -/
inductive Change where
  | source (source : SourceArtifact)
  | binding (row : BindingRow)
  | fragments (source : SourceArtifact) (fragments : List SourceFragment)
  | audit (row : AuditRow)
  | proposal (proposal : MemoryProposal)
  | decision (decision : MemoryDecision)
  | memory (record : MemoryRecord) (initialEvent : MemoryStateEvent)
      (supersededEvents : List MemoryStateEvent)
  | event (event : MemoryStateEvent)
  | derived
  | request (request : DeleteRequest) (closure : ExecutionClosure)
  | attempt (deleteRequestId : Identifier)
  | component (request : DeleteRequest) (attemptOrdinal : Nat)
      (componentType : DeletionComponentType)
  | failure (request : DeleteRequest) (attemptOrdinal : Nat)
      (componentType : DeletionComponentType)
  | evidence (evidence : DeletionEvidence) (executionOrdinal : Nat)

/-- A source that starts its lineage or extends it at the tip. -/
structure SourceAdded (db db' : Database) (source : SourceArtifact) : Prop where
  fresh : ∀ r ∈ db.sources, r.sourceId ≠ source.params.sourceId
  freshVersion : ∀ r ∈ db.sources,
    r.versionKey ≠ (SourceRow.ofArtifact source.params).versionKey
  tip : (lineageTip db source.params.namespaceId source.params.lineageId = none ∧
      source.params.version.get = 1 ∧ db' = (db.addSource source).startLineage source) ∨
    ∃ current, lineageTip db source.params.namespaceId source.params.lineageId = some current ∧
      source.params.version.get = current.version + 1 ∧
      source.params.supersedesSourceIds = [current.sourceId] ∧
      (∃ r ∈ db.sources, r.sourceId = current.sourceId ∧
        r.namespaceId = source.params.namespaceId ∧ r.lineageId = source.params.lineageId) ∧
      db' = (db.addSource source).replaceTip current source
  tipSource : ∀ tip ∈ db.tips, tip.key ≠ (source.params.namespaceId, source.params.lineageId) →
    tip.sourceId ≠ source.params.sourceId

/-- Fragments of a stored, active source. -/
structure FragmentsAdded (db db' : Database) (source : SourceArtifact)
    (fragments : List SourceFragment) : Prop where
  stored : SourceRow.ofArtifact source.params ∈ db.sources
  active : source.params.governance.deletionState = .active
  loaded : loadSourceArtifact db source.params.namespaceId source.params.sourceId =
    .ok (some source)
  fresh : FreshFragments db fragments
  resolved : ∀ f ∈ fragments, validateSourceFragmentResolution f source = .ok ()
  result : db' = db.addFragments source fragments

/-- A capture audit of an active source whose lineage is bound. -/
structure AuditAdded (db db' : Database) (row : AuditRow) : Prop where
  source : ∃ s ∈ db.sources, s.sourceId = row.sourceId ∧ s.namespaceId = row.namespaceId ∧
    s.governance.deletionState = .active ∧ ∃ b ∈ db.bindings,
      b.namespaceId = row.namespaceId ∧ b.originBindingId = row.originBindingId ∧
      b.lineageId = s.lineageId
  result : db' = { db with captureAudit := db.captureAudit ++ [row] }

/-- A component transaction that committed. -/
structure ComponentDone (db db' : Database) (request : DeleteRequest) (attemptOrdinal : Nat)
    (componentType : DeletionComponentType) (component : DeletionTarget)
    (result : ComponentResult) (acted : Database) : Prop where
  profile : validateRequestProfile request = .ok ()
  loaded : loadRequest db request.params.namespaceId request.params.deleteRequestId =
    .ok (some request)
  planned : PlannedComponent request componentType component
  effect : ActionEffect db acted request.params.namespaceId request.params.deleteRequestId
    (failedIn db request.params.deleteRequestId attemptOrdinal) componentType
  succeeded : result.params.status = .succeeded
  key : result.params.componentKey = component.params.componentKey
  result : acted.insertResult
    (ResultRow.ofResult request.params.deleteRequestId attemptOrdinal result) = .ok db'

/-- A failed component that was recorded. -/
structure FailureRecorded (db db' : Database) (request : DeleteRequest) (attemptOrdinal : Nat)
    (componentType : DeletionComponentType) (component : DeletionTarget)
    (result : ComponentResult) : Prop where
  profile : validateRequestProfile request = .ok ()
  loaded : loadRequest db request.params.namespaceId request.params.deleteRequestId =
    .ok (some request)
  planned : PlannedComponent request componentType component
  failed : result.params.status = .failed
  key : result.params.componentKey = component.params.componentKey
  result : db.insertResult
    (ResultRow.ofResult request.params.deleteRequestId attemptOrdinal result) = .ok db'

/-- The row of an executed request. -/
theorem ComponentDone.stored {request : DeleteRequest} {attemptOrdinal : Nat}
    {componentType : DeletionComponentType} {component : DeletionTarget}
    {result : ComponentResult} {acted : Database}
    (h : ComponentDone db db' request attemptOrdinal componentType component result acted) :
    ∃ r ∈ db.requests, r.deleteRequestId = request.params.deleteRequestId ∧
      r.namespaceId = request.params.namespaceId :=
  ⟨_, lookup_mem (loadRequest_eq_ok h.loaded).2.2, rfl, rfl⟩

/-- What a change does, with what was checked before it. -/
def Change.Applies (db db' : Database) : Change → Prop
  | .source new => SourceAdded db db' new
  | .binding row => (∃ tip ∈ db.tips, tip.key = (row.namespaceId, row.lineageId)) ∧
      db.insertBinding row = .ok db'
  | .fragments owner new => FragmentsAdded db db' owner new
  | .audit row => AuditAdded db db' row
  | .proposal new => storeMemoryProposal db new = .ok db'
  | .decision new => storeMemoryDecision db new = .ok db'
  | .memory record initialEvent supersededEvents =>
    materializeAcceptedMemory db record initialEvent supersededEvents = .ok db'
  | .event new => appendMemoryStateEvent db new = .ok db'
  | .derived => ∃ tips projection recallFts, db' = db.withDerived tips projection recallFts ∧
      DerivedSound db'
  | .request new closure => StoredRequest db db' new closure
  | .attempt deleteRequestId => ∃ checkedAt n,
      insertNextAttempt deleteRequestId checkedAt db = .ok (n, db')
  | .component executed attemptOrdinal componentType => ∃ planned result acted,
      ComponentDone db db' executed attemptOrdinal componentType planned result acted
  | .failure executed attemptOrdinal componentType => ∃ planned result,
      FailureRecorded db db' executed attemptOrdinal componentType planned result
  | .evidence new executionOrdinal => EvidenceChecked db new executionOrdinal ∧
      db.insertEvidenceRow (EvidenceRow.ofEvidence executionOrdinal new.params) = .ok db'

/-- The fragments an operation writes. -/
def Op.fragments : Op → List SourceFragment
  | .captureSource capture => capture.params.fragments
  | .storeSourceFragments fragments => fragments
  | _ => []

/-- The request an operation executes. -/
def Op.executes : Op → Option Identifier
  | .executeDeletion _ deleteRequestId _ _ _ => some deleteRequestId
  | _ => none

/-- The change belongs to the operation started in `start`: it writes the operation's fragments
or executes the operation's request, and what the run conditions look at is still as it was. -/
def Change.Within (op : Op) (start db : Database) : Change → Prop
  | .fragments _ new => new = op.fragments ∧
      db.executionClosure = start.executionClosure ∧ op.executes = none
  | .attempt deleteRequestId => op.executes = some deleteRequestId ∧
      db.evidence = start.evidence
  | .component executed attemptOrdinal _ | .failure executed attemptOrdinal _ =>
      op.executes = some executed.params.deleteRequestId ∧ db.evidence = start.evidence ∧
      latestAttempt db executed.params.deleteRequestId = some attemptOrdinal
  | _ => op.executes = none

/-- Reached from `start` by changes that belong to the operation. -/
def Reaches (op : Op) (start : Database) : Database → Database → Prop :=
  Relation.ReflTransGen fun a b => ∃ c : Change, c.Within op start a ∧ c.Applies a b

theorem Reaches.single {op : Op} {start : Database} (c : Change) (hw : c.Within op start db)
    (h : c.Applies db db') : Reaches op start db db' :=
  Relation.ReflTransGen.single ⟨c, hw, h⟩

/-! ## Source writes -/

theorem sourceAdded_of_insert {source : SourceArtifact} {inserted : Database}
    (hinsert : insertSourceArtifact db source = .ok inserted)
    (htip : advanceLineageTip inserted source = .ok db') : SourceAdded db db' source := by
  obtain ⟨rfl, hfresh, hsuperseded, -⟩ := insertSourceArtifact_eq_ok hinsert
  refine ⟨fun r hr => (hfresh r hr).1, fun r hr => (hfresh r hr).2, ?_, ?_⟩
  · rcases advanceLineageTip_eq_ok htip with ⟨hnone, hversion, hdb, -⟩ |
      ⟨current, hsome, hversion, hsupersedes, -, hdb⟩
    · exact .inl ⟨hnone, hversion, hdb⟩
    · obtain ⟨target, hlookup, hns, hlineage, -⟩ :=
        validateSupersededSources_eq_ok hsuperseded current.sourceId (by rw [hsupersedes]; simp)
      exact .inr ⟨current, hsome, hversion, hsupersedes,
        ⟨target, lookup_mem hlookup, lookup_key hlookup, hns, hlineage⟩, hdb⟩
  · rintro tip hmem hkey
    rcases advanceLineageTip_eq_ok htip with ⟨-, -, -, hunused⟩ | ⟨current, hsome, -, -, hunused, -⟩
    · exact hunused tip hmem
    · refine hunused tip hmem fun heq => hkey ?_
      rw [heq]
      exact lookup_key hsome

/-- The new source is the tip of its lineage. -/
theorem SourceAdded.tip_mem {source : SourceArtifact} (h : SourceAdded db db' source) :
    ∃ tip ∈ db'.tips, tip.key = (source.params.namespaceId, source.params.lineageId) ∧
      tip.sourceId = source.params.sourceId := by
  rcases h.tip with ⟨-, -, rfl⟩ | ⟨current, hsome, -, -, -, rfl⟩
  · exact ⟨TipRow.ofSource (SourceRow.ofArtifact source.params), by simp [Database.startLineage],
      rfl, rfl⟩
  · refine ⟨{ current with
        sourceId := source.params.sourceId, version := source.params.version.get }, ?_, ?_, rfl⟩
    · exact mem_updateWhere.2 ⟨current, lookup_mem hsome, by simp⟩
    · have hkey : current.key = _ := lookup_key hsome
      exact hkey

theorem SourceAdded.sources {source : SourceArtifact} (h : SourceAdded db db' source) :
    db'.sources = db.sources ++ [SourceRow.ofArtifact source.params] := by
  rcases h.tip with ⟨-, -, rfl⟩ | ⟨current, -, -, -, -, rfl⟩ <;> rfl

/-- A source write does not touch the deletion tables, and of the entry tables only the tips. -/
theorem SourceAdded.frame {source : SourceArtifact} (h : SourceAdded db db' source) :
    db'.toDeletionTables = db.toDeletionTables ∧ db'.bindings = db.bindings := by
  rcases h.tip with ⟨-, -, rfl⟩ | ⟨current, -, -, -, -, rfl⟩ <;> exact ⟨rfl, rfl⟩

theorem fragmentsAdded_of_insert {fragments : List SourceFragment}
    (h : insertSourceFragments db fragments = .ok db') :
    ∃ source, FragmentsAdded db db' source fragments := by
  obtain ⟨namespaceId, sourceId, source, hload, hdb, hfresh, hresolved⟩ :=
    insertSourceFragments_eq_ok h
  obtain ⟨row, hlookup, rfl, hactive, rfl⟩ := loadSourceArtifact_eq_ok hload
  have hid : (SourceRow.ofArtifact source.params).sourceId = sourceId := lookup_key hlookup
  subst hid
  exact ⟨source, lookup_mem hlookup, hactive, hload, hfresh, hresolved, hdb⟩

/-- The binding of a capture, when the capture needs one. -/
theorem capture_binding_reaches {capture : SourceCapture} {outcome : SourceCaptureOutcome}
    (start : Database) (htip : ∃ tip ∈ db.tips, tip.key =
      (capture.params.source.params.namespaceId, capture.params.source.params.lineageId))
    (h : (if outcome = .created then
        insertOriginBinding db capture.params.originBindingId capture.params.source
      else .ok db) = .ok db') :
    Reaches (.captureSource capture) start db db' ∧ db'.sources = db.sources ∧
      db'.tips = db.tips ∧ db'.toDeletionTables = db.toDeletionTables ∧
      (outcome = .created → ∃ b ∈ db'.bindings,
        b.namespaceId = capture.params.source.params.namespaceId ∧
        b.originBindingId = capture.params.originBindingId ∧
        b.lineageId = capture.params.source.params.lineageId) ∧
      ∀ b ∈ db.bindings, b ∈ db'.bindings := by
  split at h
  · have hreach : Reaches (.captureSource capture) start db db' :=
      Reaches.single (.binding _) rfl ⟨htip, h⟩
    obtain ⟨-, rfl⟩ := Database.insertBinding_eq_ok h
    exact ⟨hreach, rfl, rfl, rfl, fun _ => ⟨_, List.mem_append_right _ List.mem_cons_self, rfl, rfl, rfl⟩,
      fun b hb => List.mem_append_left _ hb⟩
  · rename_i hcreated
    cases h
    exact ⟨.refl, rfl, rfl, rfl, fun hc => absurd hc hcreated, fun _ hb => hb⟩

theorem captureSource_reaches {capture : SourceCapture} {result : SourceCaptureResult}
    (h : captureSource db capture = .ok (db', result)) :
    Reaches (.captureSource capture) db db db' := by
  obtain ⟨hverify, -, rfl | ⟨current, outcome, hdecide, hfacts⟩⟩ := captureSource_eq_ok h
  · exact .refl
  obtain ⟨audit, db₁, db₂, db₃, db₄, h₁, h₂, h₃, h₄, h₅⟩ := insertCaptureFacts_steps hfacts
  have hsource := sourceAdded_of_insert h₁ h₂
  obtain ⟨tip, htip, hkey, htipSource⟩ := hsource.tip_mem
  obtain ⟨hreach, hsources, htips, htables, hcreated, hbindings⟩ :=
    capture_binding_reaches db ⟨tip, htip, hkey⟩ h₃
  obtain ⟨owner, hfragments⟩ := fragmentsAdded_of_insert h₄
  have hclosure : db₃.executionClosure = db.executionClosure := by
    rw [htables, hsource.frame.1]
  have hfragmented : db₄.sources = db₂.sources ∧ db₄.bindings = db₃.bindings ∧
      db₄.tips = db₂.tips := by
    rw [hfragments.result]
    exact ⟨hsources, rfl, htips⟩
  obtain ⟨-, -, rfl⟩ := Database.insertAudit_eq_ok h₅
  -- The final verification says that the new tip is an active source.
  have hactive : ∃ s ∈ db₄.sources, s.sourceId = capture.params.source.params.sourceId ∧
      s.namespaceId = capture.params.source.params.namespaceId ∧
      s.governance.deletionState = .active ∧
      s.lineageId = capture.params.source.params.lineageId := by
    obtain ⟨s, hs, hstate, rfl⟩ := (verifyDerivedIndex_sound hverify).tips tip
      (by change tip ∈ db₄.tips; rw [hfragmented.2.2]; exact htip)
    rw [TipRow.key, Prod.mk.injEq] at hkey
    exact ⟨s, hs, htipSource, hkey.1, hstate, hkey.2⟩
  have hbound : ∃ b ∈ db₄.bindings,
      b.namespaceId = capture.params.source.params.namespaceId ∧
      b.originBindingId = capture.params.originBindingId ∧
      b.lineageId = capture.params.source.params.lineageId := by
    rw [hfragmented.2.1]
    cases outcome with
    | created => exact hcreated rfl
    | versioned =>
      obtain ⟨b, hb, hkeys⟩ := decideCapture_versioned hdecide
      refine ⟨b, hbindings b ?_, hkeys⟩
      rw [hsource.frame.2]
      exact hb
    | idempotent => cases hfacts
  obtain ⟨s, hs, hid, hns, hstate, hlineage⟩ := hactive
  obtain ⟨b, hb, hbns, hbid, hblineage⟩ := hbound
  have hadd : Reaches (.captureSource capture) db db db₂ :=
    Reaches.single (.source _) rfl hsource
  refine hadd.trans (hreach.trans ?_)
  have hwrite : Reaches (.captureSource capture) db db₃ db₄ :=
    Reaches.single (.fragments owner _) ⟨rfl, hclosure, rfl⟩ hfragments
  refine hwrite.trans ?_
  exact Reaches.single (.audit _) rfl
    ⟨⟨s, hs, hid, hns, hstate, b, hb, hbns, hbid, hblineage.trans hlineage.symm⟩, rfl⟩

/-! ## Executions and evidence -/

omit [Platform] in
theorem failedIn_append (row : ResultRow) (deleteRequestId : Identifier) (attemptOrdinal : Nat) :
    failedIn { db with results := db.results ++ [row] } deleteRequestId attemptOrdinal =
      (failedIn db deleteRequestId attemptOrdinal ||
        (row.deleteRequestId == deleteRequestId && row.attemptOrdinal == attemptOrdinal &&
          row.status == .failed)) := by
  simp [failedIn]

/-- An action leaves the deletion tables alone. -/
theorem ActionEffect.frame {namespaceId deleteRequestId : Identifier} {hasFailed : Bool}
    {componentType : DeletionComponentType}
    (h : ActionEffect db db' namespaceId deleteRequestId hasFailed componentType) :
    db'.toDeletionTables = db.toDeletionTables := by
  cases componentType with
  | sourceBody => obtain ⟨ids, -, rfl⟩ := h; rfl
  | sourceMetadata => obtain ⟨ids, -, rfl⟩ := h; rfl
  | sourceFragment => obtain ⟨ids, -, -, rfl⟩ := h; rfl
  | memoryProposal => obtain ⟨ids, -, rfl⟩ := h; rfl
  | memoryDecision => obtain ⟨ids, -, rfl⟩ := h; rfl
  | memoryRecord => obtain ⟨ids, -, rfl⟩ := h; rfl
  | memoryStateEvent => rw [show db' = db from h]
  | fullTextIndex => obtain ⟨targets, keys, -, -, rfl⟩ := h; rfl
  | contextCache => rw [show db' = db from h]
  | minimalAudit =>
    obtain ⟨targets, lineages, sources, proposals, records, -, -, -, -, -, -, rfl⟩ := h
    rfl

theorem successfulResult_eq_ok {component : DeletionTarget} {execution : LocalDeletionExecution}
    {action : ActionResult} {result : ComponentResult}
    (h : successfulResult component execution action = .ok result) :
    result.params.status = .succeeded ∧
      result.params.componentKey = component.params.componentKey := by
  simp only [successfulResult, Except.bind_eq_ok_iff, Except.mapError_eq_ok_iff,
    ComponentResult.new, Checked.new_eq_ok_iff] at h
  obtain ⟨text, -, hparams⟩ := h
  rw [hparams]
  exact ⟨rfl, rfl⟩

theorem failedResult_eq_ok {component : DeletionTarget} {execution : LocalDeletionExecution}
    {result : ComponentResult} (h : failedResult component execution = .ok result) :
    result.params.status = .failed ∧
      result.params.componentKey = component.params.componentKey := by
  simp only [failedResult, Except.bind_eq_ok_iff, Except.mapError_eq_ok_iff,
    ComponentResult.new, Checked.new_eq_ok_iff] at h
  obtain ⟨text, -, code, -, hparams⟩ := h
  rw [hparams]
  exact ⟨rfl, rfl⟩

/-- The state of an execution after its attempt is open: it was reached by the operation's own
changes, and the flag the loop carries says what the stored results say. -/
structure ExecutionState (op : Op) (start : Database) (request : DeleteRequest)
    (attemptOrdinal : Nat) (hasFailed : Bool) (db : Database) : Prop where
  reached : Reaches op start start db
  evidence : db.evidence = start.evidence
  loaded : loadRequest db request.params.namespaceId request.params.deleteRequestId =
    .ok (some request)
  flag : hasFailed = failedIn db request.params.deleteRequestId attemptOrdinal
  latest : latestAttempt db request.params.deleteRequestId = some attemptOrdinal

theorem ExecutionState.loop {op : Op} {start : Database} {request : DeleteRequest}
    (execution : LocalDeletionExecution) (attemptOrdinal : Nat)
    (hprofile : validateRequestProfile request = .ok ())
    (hexecutes : op.executes = some request.params.deleteRequestId) :
    LoopInvariant request execution attemptOrdinal
      (ExecutionState op start request attemptOrdinal) where
  succeed hasFailed db db₁ db' componentType component action result h hplanned haction hresult
      hinsert := by
    obtain ⟨hstatus, hkey⟩ := successfulResult_eq_ok hresult
    have heffect := executeComponentAction_effect haction
    have hdone : ComponentDone db db' request attemptOrdinal componentType component result db₁ :=
      ⟨hprofile, h.loaded, hplanned, by rw [← h.flag]; exact heffect, hstatus, hkey, hinsert⟩
    obtain rfl := insertExecutionResult_eq_ok hinsert
    refine ⟨h.reached.tail ⟨.component request attemptOrdinal componentType,
      ⟨hexecutes, h.evidence, h.latest⟩, component, result, db₁, hdone⟩, ?_, ?_, ?_, ?_⟩
    · change db₁.evidence = start.evidence
      rw [heffect.frame]
      exact h.evidence
    · rw [← h.loaded]
      have hplans : SamePlans db db₁ := .of_tables heffect.frame
      refine loadRequest_congr ?_ _ _
      exact ⟨hplans.requests, hplans.requestTargets, hplans.requestComponents,
        hplans.componentTargets, hplans.executionClosure⟩
    · rw [failedIn_append]
      have hsame : failedIn db₁ request.params.deleteRequestId attemptOrdinal =
          failedIn db request.params.deleteRequestId attemptOrdinal := by
        rw [failedIn, heffect.frame, failedIn]
      simp [hsame, ← h.flag, ResultRow.ofResult, hstatus]
    · rw [← h.latest]
      exact latestAttempt_congr (by rw [heffect.frame]) _
  fail hasFailed db db' componentType component result h hplanned hresult hinsert := by
    obtain ⟨hstatus, hkey⟩ := failedResult_eq_ok hresult
    have hrecorded : FailureRecorded db db' request attemptOrdinal componentType component
        result := ⟨hprofile, h.loaded, hplanned, hstatus, hkey, hinsert⟩
    obtain rfl := insertExecutionResult_eq_ok hinsert
    refine ⟨h.reached.tail ⟨.failure request attemptOrdinal componentType,
      ⟨hexecutes, h.evidence, h.latest⟩, component, result, hrecorded⟩, h.evidence, ?_, ?_,
      h.latest⟩
    · rw [← h.loaded]
      refine loadRequest_congr ?_ _ _
      exact ⟨rfl, rfl, rfl, rfl, rfl⟩
    · rw [failedIn_append]
      simp [ResultRow.ofResult, hstatus]

/-- How an execution ends: it was made of its own changes, and the results it returns are those
of its attempt, which is the latest. -/
structure Executed (op : Op) (start : Database) (namespaceId deleteRequestId : Identifier)
    (result : Except SqliteError (List ComponentResult)) (db : Database) : Prop where
  reached : Reaches op start start db
  results : ∀ results, result = .ok results → ∃ request n,
    loadRequest db namespaceId deleteRequestId = .ok (some request) ∧
    latestAttempt db deleteRequestId = some n ∧
    (request.params.plannedComponents.mapM fun component =>
      loadExecutionResult db deleteRequestId n component) = .ok results

theorem executeDeletion_executed {namespaceId deleteRequestId : Identifier}
    {execution : LocalDeletionExecution} {faulty : DeletionComponentType → Bool}
    {breaksAfter : Option Nat} (hresults : ResultsHaveAttempts db) :
    (executeDeletion namespaceId deleteRequestId execution faulty).Safe
      (Reaches (.executeDeletion namespaceId deleteRequestId execution faulty breaksAfter) db db)
      (Executed (.executeDeletion namespaceId deleteRequestId execution faulty breaksAfter) db
        namespaceId deleteRequestId) db := by
  have hstart : Reaches (.executeDeletion namespaceId deleteRequestId execution faulty
      breaksAfter) db db db := .refl
  refine executeDeletion_safe hstart (fun e => ⟨hstart, nofun⟩) fun request hload hprofile => ?_
  obtain ⟨rfl, rfl, -⟩ := loadRequest_eq_ok hload
  refine executeRequest_safe
    (fun n => ExecutionState.loop execution n hprofile rfl)
    (fun _ _ _ hs => hs.reached) hstart (fun e db hreached => ⟨hreached, nofun⟩) ?_ ?_
  · intro n b db' hs
    exact ⟨hs.reached, fun results heq => ⟨request, n, hs.loaded, hs.latest, heq⟩⟩
  intro n db' hopen
  have hreached : Reaches (.executeDeletion request.params.namespaceId
      request.params.deleteRequestId execution faulty breaksAfter) db db db' :=
    Reaches.single (.attempt request.params.deleteRequestId) ⟨rfl, rfl⟩ ⟨_, _, hopen⟩
  obtain ⟨rfl, -, rfl⟩ := insertNextAttempt_eq_ok hopen
  refine ⟨hreached, rfl, (loadRequest_congr ?_ _ _).trans hload, ?_,
    latestAttempt_append fun a ha hD => (attemptOrdinal_lt_next ha hD).le⟩
  · exact ⟨rfl, rfl, rfl, rfl, rfl⟩
  -- The attempt is new, so nothing has failed in it.
  rw [eq_comm, failedIn, List.any_eq_false]
  intro row hrow hfailed
  simp only [Bool.and_eq_true, beq_iff_eq] at hfailed
  obtain ⟨a, ha, heq⟩ := hresults row hrow
  rw [Prod.mk.injEq] at heq
  have hlt := attemptOrdinal_lt_next ha (heq.1.trans hfailed.1.1)
  rw [heq.2, hfailed.1.2] at hlt
  exact lt_irrefl _ hlt

/-- An execution that ran to its end. -/
theorem executeDeletion_run {namespaceId deleteRequestId : Identifier}
    {execution : LocalDeletionExecution} {faulty : DeletionComponentType → Bool}
    {result : Except SqliteError (List ComponentResult)} (hresults : ResultsHaveAttempts db)
    (h : (executeDeletion namespaceId deleteRequestId execution faulty).run db = (result, db')) :
    Executed (.executeDeletion namespaceId deleteRequestId execution faulty none) db namespaceId
      deleteRequestId result db' := by
  have hsafe : (executeDeletion namespaceId deleteRequestId execution faulty).Safe
      (Reaches (.executeDeletion namespaceId deleteRequestId execution faulty none) db db)
      (Executed (.executeDeletion namespaceId deleteRequestId execution faulty none) db
        namespaceId deleteRequestId) db := executeDeletion_executed hresults
  have hend := hsafe.run
  rw [h] at hend
  exact hend

theorem executeDeletion_reaches {namespaceId deleteRequestId : Identifier}
    {execution : LocalDeletionExecution} {faulty : DeletionComponentType → Bool}
    {breaksAfter : Option Nat} (hresults : ResultsHaveAttempts db) :
    Reaches (.executeDeletion namespaceId deleteRequestId execution faulty breaksAfter) db db
      (Op.apply db (.executeDeletion namespaceId deleteRequestId execution faulty
        breaksAfter)) :=
  (executeDeletion_executed hresults).runWith .refl

theorem storeDeletionEvidence_reaches {evidence : DeletionEvidence} {breaksAfter : Option Nat} :
    Reaches (.storeDeletionEvidence evidence breaksAfter) db db
      (Op.apply db (.storeDeletionEvidence evidence breaksAfter)) := by
  have hstart : Reaches (.storeDeletionEvidence evidence breaksAfter) db db db := .refl
  refine (storeDeletionEvidence_safe (I := Reaches _ db db)
    (Q := fun _ after => Reaches _ db db after) hstart (fun _ => hstart)
    fun latest db' hchecked hrow => ?_).runWith hstart
  have hreach : Reaches (.storeDeletionEvidence evidence breaksAfter) db db db' :=
    Reaches.single (.evidence evidence latest) rfl ⟨hchecked, hrow⟩
  exact ⟨hreach, hreach⟩

/-! ## Operations -/

/-- Every operation is a sequence of changes of its own. -/
theorem Op.reaches (op : Op) (hresults : ResultsHaveAttempts db) :
    Reaches op db db (op.apply db) := by
  cases op with
  | captureSource capture =>
    refine committed_cases .refl fun db' h => ?_
    obtain ⟨⟨db'', result⟩, hcapture, rfl⟩ := Except.map_eq_ok_iff.1 h
    exact captureSource_reaches hcapture
  | storeSourceArtifact source =>
    refine committed_cases .refl fun db' h => ?_
    obtain ⟨-, hinsert, htip⟩ := storeSourceArtifact_eq_ok h
    exact Reaches.single (.source source) rfl (sourceAdded_of_insert hinsert htip)
  | storeSourceFragments fragments =>
    refine committed_cases .refl fun db' h => ?_
    obtain ⟨owner, hadded⟩ := fragmentsAdded_of_insert h
    exact Reaches.single (.fragments owner fragments) ⟨rfl, rfl, rfl⟩ hadded
  | storeMemoryProposal proposal =>
    exact committed_cases .refl fun db' h => Reaches.single (.proposal proposal) rfl h
  | storeMemoryDecision decision =>
    exact committed_cases .refl fun db' h => Reaches.single (.decision decision) rfl h
  | materializeAcceptedMemory record initialEvent supersededEvents =>
    exact committed_cases .refl fun db' h =>
      Reaches.single (.memory record initialEvent supersededEvents) rfl h
  | appendMemoryStateEvent event =>
    exact committed_cases .refl fun db' h => Reaches.single (.event event) rfl h
  | rebuildRecallDerivations =>
    exact committed_cases .refl fun db' h =>
      Reaches.single .derived rfl (rebuildRecallDerivations_eq_ok h)
  | storeDeleteRequest request =>
    refine committed_cases .refl fun db' h => ?_
    obtain ⟨closure, hstored⟩ := storeDeleteRequest_eq_ok h
    exact Reaches.single (.request request closure) rfl hstored
  | executeDeletion namespaceId deleteRequestId execution faulty breaksAfter =>
    exact executeDeletion_reaches hresults
  | storeDeletionEvidence evidence breaksAfter => exact storeDeletionEvidence_reaches

/-- What every change of an operation preserves, the operation preserves. -/
theorem Op.preserves {op : Op} {P : Database → Prop}
    (hstep : ∀ a b (c : Change), P a → c.Within op db a → c.Applies a b → P b)
    (hresults : ResultsHaveAttempts db) (h : P db) : P (op.apply db) := by
  have hreach := op.reaches hresults
  generalize op.apply db = final at hreach ⊢
  induction hreach with
  | refl => exact h
  | tail _ hlast ih =>
    obtain ⟨c, hw, happlies⟩ := hlast
    exact hstep _ _ c ih hw happlies

/-! ## The deletion tables -/

/-- What a change does to the tables of requests, attempts, results and evidence. -/
def Change.DeletionEffect (db db' : Database) : Change → Prop
  | .request new closure => db'.toDeletionTables = (db.addRequest new closure).toDeletionTables
  | .attempt deleteRequestId => ∃ checkedAt, db'.toDeletionTables =
      { db.toDeletionTables with
        attempts := db.attempts ++ [{
          deleteRequestId
          attemptOrdinal := (latestAttempt db deleteRequestId).getD 0 + 1
          checkedAt }] }
  | .component executed attemptOrdinal componentType | .failure executed attemptOrdinal
      componentType => ∃ component result,
      PlannedComponent executed componentType component ∧
      result.params.componentKey = component.params.componentKey ∧
      db'.toDeletionTables =
        { db.toDeletionTables with
          results := db.results ++
            [ResultRow.ofResult executed.params.deleteRequestId attemptOrdinal result] }
  | .evidence new executionOrdinal => db'.toDeletionTables =
      { db.toDeletionTables with
        evidence := db.evidence ++ [EvidenceRow.ofEvidence executionOrdinal new.params] }
  | _ => db'.toDeletionTables = db.toDeletionTables

theorem Change.Applies.deletionEffect {c : Change} (h : c.Applies db db') :
    c.DeletionEffect db db' := by
  cases c with
  | source new => exact (SourceAdded.frame h).1
  | binding row =>
    obtain ⟨-, rfl⟩ := Database.insertBinding_eq_ok h.2
    rfl
  | fragments owner new =>
    obtain rfl := FragmentsAdded.result h
    rfl
  | audit row =>
    obtain rfl := AuditAdded.result h
    rfl
  | proposal new =>
    obtain ⟨-, rfl, -, -⟩ := storeMemoryProposal_eq_ok h
    rfl
  | decision new =>
    obtain ⟨-, -, -, -, -, -, rfl⟩ := storeMemoryDecision_eq_ok h
    rfl
  | memory record initialEvent supersededEvents =>
    obtain ⟨proposal, superseded, hm⟩ := materializeAcceptedMemory_eq_ok h
    change db'.toDeletionTables = db.toDeletionTables
    rw [hm.derived.tables]
    rfl
  | event new =>
    obtain ⟨closure, projected, -, -, -, -, -, hderived⟩ := appendMemoryStateEvent_eq_ok h
    change db'.toDeletionTables = db.toDeletionTables
    rw [hderived.tables]
    rfl
  | derived =>
    obtain ⟨tips, projection, recallFts, rfl, -⟩ := h
    rfl
  | request new closure =>
    obtain rfl := StoredRequest.result h
    rfl
  | attempt deleteRequestId =>
    obtain ⟨checkedAt, n, hopen⟩ := h
    obtain ⟨rfl, -, rfl⟩ := insertNextAttempt_eq_ok hopen
    exact ⟨checkedAt, rfl⟩
  | component executed attemptOrdinal componentType =>
    obtain ⟨planned, result, acted, hdone⟩ := h
    obtain ⟨-, -, -, rfl⟩ := Database.insertResult_eq_ok_iff.1 hdone.result
    refine ⟨planned, result, hdone.planned, hdone.key, ?_⟩
    rw [← hdone.effect.frame]
  | failure executed attemptOrdinal componentType =>
    obtain ⟨planned, result, hrecorded⟩ := h
    obtain ⟨-, -, -, rfl⟩ := Database.insertResult_eq_ok_iff.1 hrecorded.result
    exact ⟨planned, result, hrecorded.planned, hrecorded.key, rfl⟩
  | evidence new executionOrdinal =>
    obtain ⟨-, rfl⟩ := Database.insertEvidenceRow_eq_ok h.2
    rfl

/-- Only storing a request touches the plans. -/
theorem Change.Applies.plans {c : Change} (h : c.Applies db db') :
    (∃ request closure, c = .request request closure) ∨ SamePlans db db' := by
  have heffect := h.deletionEffect
  cases c with
  | request new closure => exact .inl ⟨new, closure, rfl⟩
  | attempt deleteRequestId =>
    obtain ⟨checkedAt, heq⟩ := heffect
    exact .inr ⟨by rw [heq], by rw [heq], by rw [heq], by rw [heq], by rw [heq]⟩
  | component executed attemptOrdinal componentType =>
    obtain ⟨planned, result, -, -, heq⟩ := heffect
    exact .inr ⟨by rw [heq], by rw [heq], by rw [heq], by rw [heq], by rw [heq]⟩
  | failure executed attemptOrdinal componentType =>
    obtain ⟨planned, result, -, -, heq⟩ := heffect
    exact .inr ⟨by rw [heq], by rw [heq], by rw [heq], by rw [heq], by rw [heq]⟩
  | evidence new executionOrdinal =>
    have heq : db'.toDeletionTables = _ := heffect
    exact .inr ⟨by rw [heq], by rw [heq], by rw [heq], by rw [heq], by rw [heq]⟩
  | source new => exact .inr (SamePlans.of_tables heffect)
  | binding row => exact .inr (SamePlans.of_tables heffect)
  | fragments owner new => exact .inr (SamePlans.of_tables heffect)
  | audit row => exact .inr (SamePlans.of_tables heffect)
  | proposal new => exact .inr (SamePlans.of_tables heffect)
  | decision new => exact .inr (SamePlans.of_tables heffect)
  | memory record initialEvent supersededEvents => exact .inr (SamePlans.of_tables heffect)
  | event new => exact .inr (SamePlans.of_tables heffect)
  | derived => exact .inr (SamePlans.of_tables heffect)

/-- A frozen id stays frozen. -/
theorem Change.Applies.frozen {c : Change} (h : c.Applies db db') {D id : Identifier}
    {componentType : DeletionComponentType} (hfrozen : Frozen db D componentType id) :
    Frozen db' D componentType id := by
  rcases h.plans with ⟨request, closure, rfl⟩ | hsame
  · exact (StoredRequest.frozen_iff h).2 (.inl hfrozen)
  · rw [Frozen, hsame.executionClosure]
    exact hfrozen

end RadishMemory
