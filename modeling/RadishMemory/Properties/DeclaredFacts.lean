import RadishMemory.Construction.Samples
import RadishMemory.Properties.Completion

/-!
# What an object declares about itself

A context pack declares how many bytes of its budget it uses, and deletion evidence declares a
digest of its own contents.  The first is bounded by the limit and compared with nothing else;
the compiler of a context computes it from the items.  Of the second only the profile is checked;
what binds evidence to the work it reports is that its component results are read from the rows
that the executor wrote.
-/

namespace RadishMemory

/-! ## The budget of a pack -/

section Budget

variable [Platform]

/-- The bytes that the items of a pack deliver. -/
def deliveredBytes (items : List ContextItem) : Nat :=
  (items.map fun item => item.params.renderedContent.utf8Len).sum

/-- The bytes that the items of a pack record. -/
def recordedBytes (items : List ContextItem) : Nat :=
  (items.map fun item => item.params.truncation.renderedUtf8Bytes).sum

/-- The declared use is what the items deliver, and no more than the limit. -/
def BudgetHonoured (params : ContextPackParams) : Prop :=
  params.budget.used = deliveredBytes params.items ∧
    deliveredBytes params.items ≤ params.budget.limit

omit [Platform] in
theorem Budget.new_eq_ok_iff {limit used : Nat} {budget : Budget} :
    Budget.new limit used = .ok budget ↔ budget.limit = limit ∧ budget.used = used := by
  unfold Budget.new
  split
  · rename_i h
    rw [Except.ok.injEq]
    constructor
    · rintro rfl
      exact ⟨rfl, rfl⟩
    · obtain ⟨l, u, hle⟩ := budget
      rintro ⟨rfl, rfl⟩
      rfl
  · rename_i h
    constructor
    · intro herror
      cases herror
    · rintro ⟨rfl, rfl⟩
      exact absurd budget.withinLimit h

/-- An item records the length of what it renders. -/
theorem ContextItem.recorded (item : ContextItem) :
    item.params.truncation.renderedUtf8Bytes = item.params.renderedContent.utf8Len := by
  have hvalid := item.valid
  simp only [ContextItemParams.check, Except.bind_eq_ok_iff, Except.exists_unit_iff,
    require_eq_ok_iff] at hvalid
  exact hvalid.2.2.2.2.2.2.2.2.2

theorem recordedBytes_eq (items : List ContextItem) :
    recordedBytes items = deliveredBytes items := by
  rw [recordedBytes, deliveredBytes]
  exact congrArg List.sum (List.map_congr_left fun item _ => item.recorded)

/-- The counter of the compiler holds the sum of the recorded bytes, unless it overflows. -/
theorem contextBudgetUse_eq_ok_iff {items : List ContextItem} {used : Nat} :
    contextBudgetUse items = .ok used ↔ used = recordedBytes items ∧ used < 2 ^ 64 := by
  have hfold : ∀ (rest : List ContextItem) (total : Nat), total < 2 ^ 64 →
      (rest.foldlM (fun total item =>
        let sum := total + item.params.truncation.renderedUtf8Bytes
        if sum < 2 ^ 64 then (.ok sum : Except ContextBudgetError Nat)
        else .error .contextBudgetOverflow) total = .ok used ↔
          used = total + recordedBytes rest ∧ used < 2 ^ 64) := by
    intro rest
    induction rest with
    | nil =>
      intro total htotal
      rw [List.foldlM_nil, Except.pure_eq_ok_iff]
      simp only [recordedBytes, List.map_nil, List.sum_nil]
      omega
    | cons item rest ih =>
      intro total htotal
      have hsum : recordedBytes (item :: rest) =
          item.params.truncation.renderedUtf8Bytes + recordedBytes rest := by
        simp [recordedBytes]
      rw [List.foldlM_cons, hsum]
      dsimp only
      by_cases hfits : total + item.params.truncation.renderedUtf8Bytes < 2 ^ 64
      · rw [if_pos hfits, Except.ok_bind, ih _ hfits]
        omega
      · rw [if_neg hfits, Except.error_bind]
        constructor
        · intro herror
          cases herror
        · omega
  rw [contextBudgetUse, hfold items 0 (by decide)]
  omega

/-- The compiler gives the items the budget they use, and refuses items beyond the limit. -/
theorem contextBudget_eq_ok_iff {limit : Nat} {items : List ContextItem} {budget : Budget} :
    contextBudget limit items = .ok budget ↔
      budget.limit = limit ∧ budget.used = deliveredBytes items ∧ budget.used < 2 ^ 64 := by
  simp only [contextBudget, Except.bind_eq_ok_iff, Except.mapError_eq_ok_iff,
    contextBudgetUse_eq_ok_iff, Budget.new_eq_ok_iff, recordedBytes_eq]
  constructor
  · rintro ⟨used, ⟨hused, hfits⟩, rfl, rfl⟩
    exact ⟨rfl, hused, hfits⟩
  · rintro ⟨rfl, hused, hfits⟩
    exact ⟨budget.used, ⟨hused, hfits⟩, rfl, rfl⟩

/-- The constructor of a pack does not look at the budget. -/
theorem ContextPack.with_budget (pack : ContextPack) (budget : Budget) :
    ({ pack.params with budget } : ContextPackParams).check = .ok () :=
  pack.valid

/-- What the budget of an accepted pack says.  It is within its limit, and honoured exactly when
the declared use is the sum of what the items record, as it is in every budget that the compiler
computes; a pack is accepted with any other budget as well. -/
theorem context_budget_is_declared (pack : ContextPack) :
    pack.params.budget.used ≤ pack.params.budget.limit ∧
    (∀ item ∈ pack.params.items,
      item.params.truncation.renderedUtf8Bytes = item.params.renderedContent.utf8Len) ∧
    (BudgetHonoured pack.params ↔
      pack.params.budget.used = recordedBytes pack.params.items) ∧
    (∀ limit budget, contextBudget limit pack.params.items = .ok budget ↔
      budget.limit = limit ∧ budget.used < 2 ^ 64 ∧
        BudgetHonoured { pack.params with budget }) ∧
    ∀ budget, ({ pack.params with budget } : ContextPackParams).check = .ok () := by
  have hwithin := pack.params.budget.withinLimit
  refine ⟨hwithin, fun item _ => item.recorded, ?_, fun limit budget => ?_,
    pack.with_budget⟩
  · rw [BudgetHonoured, recordedBytes_eq]
    constructor
    · exact fun h => h.1
    · exact fun h => ⟨h, h ▸ hwithin⟩
  · have hbudget := budget.withinLimit
    rw [contextBudget_eq_ok_iff, BudgetHonoured]
    constructor
    · rintro ⟨hlimit, hused, hfits⟩
      exact ⟨hlimit, hfits, hused, hused ▸ hbudget⟩
    · rintro ⟨hlimit, hfits, hused, -⟩
      exact ⟨hlimit, hused, hfits⟩

end Budget

section

open Sample

/-- A pack that declares an empty budget and delivers five bytes is accepted. -/
theorem context_budget_can_be_exceeded :
    ∃ accepted : ContextPack, accepted.params.budget.used = 0 ∧
      accepted.params.budget.limit = 0 ∧ deliveredBytes accepted.params.items = 5 ∧
      ¬ BudgetHonoured accepted.params := by
  have hdelivered : deliveredBytes pack.params.items = 5 := by decide +kernel
  refine ⟨⟨_, pack.with_budget ⟨0, 0, le_rfl⟩⟩, rfl, rfl, hdelivered, ?_⟩
  rintro ⟨hused, -⟩
  rw [hdelivered] at hused
  cases hused

end

/-! ## The digest of an evidence -/

section Evidence

variable [Platform] {db db' : Database}

/-- The digest of an evidence is the one of what it reports. -/
def DigestMatches (evidence : DeletionEvidence) : Prop :=
  evidence.params.evidenceDigest = computeDeletionEvidenceDigest
    evidence.params.deletionEvidenceId evidence.params.deleteRequestId
    evidence.params.overallStatus evidence.params.componentResults

/-- The tables with another overall status in a stored evidence. -/
def Database.withOverallStatus (db : Database) (deletionEvidenceId : Identifier)
    (overallStatus : DeletionOverallStatus) : Database :=
  { db with
    evidence := updateWhere (·.deletionEvidenceId == deletionEvidenceId)
      (fun row => { row with overallStatus }) db.evidence }

/-- The tables with another digest in a stored evidence. -/
def Database.withDigest (db : Database) (deletionEvidenceId : Identifier)
    (evidenceDigest : Digest) : Database :=
  { db with
    evidence := updateWhere (·.deletionEvidenceId == deletionEvidenceId)
      (fun row => { row with evidenceDigest }) db.evidence }

/-- The tables with another status and count in a stored result. -/
def Database.withResult (db : Database) (key : Identifier × Nat × Identifier)
    (status : ComponentStatus) (processedCount : Nat) : Database :=
  { db with
    results := updateWhere (·.key == key)
      (fun row => { row with status, processedCount }) db.results }

/-- A change of a result that the object it belongs to does not allow: the evidence says that
everything succeeded, the status becomes or ceases to be a failure, or a success gets another
count. -/
def Contradicts (evidence : DeletionEvidence) (result : ComponentResult)
    (status : ComponentStatus) (processedCount : Nat) : Prop :=
  (evidence.params.overallStatus = .completed ∧
      ¬ (status = result.params.status ∧ processedCount = result.params.processedCount)) ∨
    (status = .failed ↔ result.params.status ≠ .failed) ∨
    (result.params.status = .succeeded ∧ status = .succeeded ∧
      processedCount ≠ result.params.processedCount)

/-- What an accepted evidence write has checked and stored. -/
structure AcceptedEvidence (db db' : Database) (evidence : DeletionEvidence) : Prop where
  profile : evidence.params.evidenceDigest.profile = .deletionEvidenceV1
  stored : ∃ latest, EvidenceChecked db evidence latest ∧
    EvidenceRow.ofEvidence latest evidence.params ∈ db'.evidence

/-- What an evidence that loads is held to. -/
structure LoadedEvidence (db : Database) (namespaceId deletionEvidenceId : Identifier)
    (evidence : DeletionEvidence) (executionOrdinal : Nat) : Prop where
  profile : evidence.params.evidenceDigest.profile = .deletionEvidenceV1
  row : lookup EvidenceRow.deletionEvidenceId db.evidence deletionEvidenceId =
    some (EvidenceRow.ofEvidence executionOrdinal evidence.params)
  results : ∃ request,
    loadRequest db namespaceId evidence.params.deleteRequestId = .ok (some request) ∧
    (request.params.plannedComponents.mapM fun component =>
        loadExecutionResult db evidence.params.deleteRequestId executionOrdinal component) =
      .ok evidence.params.componentResults
  resultChanged : ∀ result ∈ evidence.params.componentResults, ∀ status processedCount,
    Contradicts evidence result status processedCount →
      ∃ e, loadEvidence (db.withResult (evidence.params.deleteRequestId, executionOrdinal,
        result.params.componentKey) status processedCount) namespaceId deletionEvidenceId =
          .error e
  statusChanged : ∀ overallStatus, overallStatus ≠ evidence.params.overallStatus →
    overallStatus ≠ .partially → evidence.params.overallStatus ≠ .partially →
      ∃ e, loadEvidence (db.withOverallStatus deletionEvidenceId overallStatus) namespaceId
        deletionEvidenceId = .error e
  digestChanged : ∀ evidenceDigest, evidenceDigest.profile = .deletionEvidenceV1 →
    ∃ changed, changed.params = { evidence.params with evidenceDigest } ∧
      loadEvidence (db.withDigest deletionEvidenceId evidenceDigest) namespaceId
        deletionEvidenceId = .ok (some changed)

omit [Platform] in
theorem lookup_withResult (db : Database) (key : Identifier × Nat × Identifier)
    (status : ComponentStatus) (processedCount : Nat) :
    lookup ResultRow.key (db.withResult key status processedCount).results key =
      (lookup ResultRow.key db.results key).map fun row => { row with status, processedCount } := by
  refine (lookup_updateWhere (fun row => ?_) db.results).trans ?_
  · rfl
  cases hlookup : lookup ResultRow.key db.results key with
  | none => rfl
  | some row => rw [Option.map_some, if_pos (beq_iff_eq.2 (lookup_key hlookup)), Option.map_some]

omit [Platform] in
theorem lookup_withOverallStatus (db : Database) (deletionEvidenceId : Identifier)
    (overallStatus : DeletionOverallStatus) :
    lookup EvidenceRow.deletionEvidenceId
        (db.withOverallStatus deletionEvidenceId overallStatus).evidence deletionEvidenceId =
      (lookup EvidenceRow.deletionEvidenceId db.evidence deletionEvidenceId).map fun row =>
        { row with overallStatus } := by
  refine (lookup_updateWhere (fun row => ?_) db.evidence).trans ?_
  · rfl
  cases hlookup : lookup EvidenceRow.deletionEvidenceId db.evidence deletionEvidenceId with
  | none => rfl
  | some row => rw [Option.map_some, if_pos (beq_iff_eq.2 (lookup_key hlookup)), Option.map_some]

omit [Platform] in
theorem lookup_withDigest (db : Database) (deletionEvidenceId : Identifier)
    (evidenceDigest : Digest) :
    lookup EvidenceRow.deletionEvidenceId
        (db.withDigest deletionEvidenceId evidenceDigest).evidence deletionEvidenceId =
      (lookup EvidenceRow.deletionEvidenceId db.evidence deletionEvidenceId).map fun row =>
        { row with evidenceDigest } := by
  refine (lookup_updateWhere (fun row => ?_) db.evidence).trans ?_
  · rfl
  cases hlookup : lookup EvidenceRow.deletionEvidenceId db.evidence deletionEvidenceId with
  | none => rfl
  | some row => rw [Option.map_some, if_pos (beq_iff_eq.2 (lookup_key hlookup)), Option.map_some]

/-- The rows that an evidence is read from. -/
structure EvidenceRead (db : Database) (namespaceId deletionEvidenceId : Identifier)
    (evidence : DeletionEvidence) (row : EvidenceRow) (request : DeleteRequest) : Prop where
  found : lookup EvidenceRow.deletionEvidenceId db.evidence deletionEvidenceId = some row
  owned : row.namespaceId = namespaceId
  planned : loadRequest db namespaceId row.deleteRequestId = .ok (some request)
  results : (request.params.plannedComponents.mapM fun component =>
      loadExecutionResult db row.deleteRequestId row.executionOrdinal component) =
    .ok evidence.params.componentResults
  params : row = EvidenceRow.ofEvidence row.executionOrdinal evidence.params
  valid : validateDeletionEvidence request evidence = .ok ()

theorem loadEvidence_eq_ok {namespaceId deletionEvidenceId : Identifier}
    {evidence : DeletionEvidence}
    (h : loadEvidence db namespaceId deletionEvidenceId = .ok (some evidence)) :
    ∃ row request, EvidenceRead db namespaceId deletionEvidenceId evidence row request := by
  unfold loadEvidence at h
  generalize hfound : (lookup EvidenceRow.deletionEvidenceId db.evidence
    deletionEvidenceId).filter (·.namespaceId == namespaceId) = stored at h
  cases stored with
  | none => cases Except.ok.inj h
  | some row =>
    have hrow := hfound
    simp only [Option.filter_eq_some_iff, beq_iff_eq] at hrow
    simp only [Except.bind_eq_ok_iff, Except.exists_unit_iff, Except.pure_eq_ok_iff,
      Option.orError_eq_ok_iff, Except.mapError_eq_ok_iff, DeletionEvidence.new,
      Checked.new_eq_ok_iff, run_loadExecutionResults, Option.some.injEq] at h
    obtain ⟨_, hrequest, request, rfl, results, hresults, read, hparams, hvalid, rfl⟩ := h
    have hid := (loadRequest_eq_ok hrequest).1
    refine ⟨row, request, hrow.1, hrow.2, hrequest, ?_, ?_, hvalid⟩
    · rw [hparams, ← hid]
      exact hresults
    · rw [hparams]
      rfl

theorem EvidenceRead.load {namespaceId deletionEvidenceId : Identifier}
    {evidence : DeletionEvidence} {row : EvidenceRow} {request : DeleteRequest}
    (h : EvidenceRead db namespaceId deletionEvidenceId evidence row request) :
    loadEvidence db namespaceId deletionEvidenceId = .ok (some evidence) := by
  have hid := (loadRequest_eq_ok h.planned).1
  have hresults := h.results
  rw [← hid] at hresults
  unfold loadEvidence
  rw [h.found, Option.filter_some, if_pos (beq_iff_eq.2 h.owned)]
  simp only [Except.bind_eq_ok_iff, Except.exists_unit_iff, Except.pure_eq_ok_iff,
    Option.orError_eq_ok_iff, Except.mapError_eq_ok_iff, DeletionEvidence.new,
    Checked.new_eq_ok_iff, run_loadExecutionResults, Option.some.injEq]
  refine ⟨_, h.planned, request, rfl, _, hresults, evidence, ?_, h.valid, rfl⟩
  rw [h.params]
  rfl

/-- With a row in the namespace, a load that reads no evidence fails. -/
theorem loadEvidence_fails {namespaceId deletionEvidenceId : Identifier} {row : EvidenceRow}
    (hrow : lookup EvidenceRow.deletionEvidenceId db.evidence deletionEvidenceId = some row)
    (hns : row.namespaceId = namespaceId)
    (h : ∀ evidence, loadEvidence db namespaceId deletionEvidenceId ≠ .ok (some evidence)) :
    ∃ e, loadEvidence db namespaceId deletionEvidenceId = .error e := by
  cases hload : loadEvidence db namespaceId deletionEvidenceId with
  | error e => exact ⟨e, rfl⟩
  | ok stored =>
    cases stored with
    | some evidence => exact absurd hload (h evidence)
    | none =>
      unfold loadEvidence at hload
      rw [hrow, Option.filter_some, if_pos (beq_iff_eq.2 hns)] at hload
      simp only [Except.bind_eq_ok_iff, Except.pure_eq_ok_iff, reduceCtorEq, and_false,
        exists_false] at hload

/-- The facts of a stored result, as its object has them. -/
theorem loadExecutionResult_eq_ok {D : Identifier} {n : Nat} {component : DeletionTarget}
    {result : ComponentResult} (h : loadExecutionResult db D n component = .ok result) :
    ∃ row, lookup ResultRow.key db.results (D, n, component.params.componentKey) = some row ∧
      row.intoDomain component = .ok result := by
  simpa only [loadExecutionResult, Except.bind_eq_ok_iff, Option.orError_eq_ok_iff] using h

theorem ResultRow.intoDomain_params {row : ResultRow} {component : DeletionTarget}
    {result : ComponentResult} (h : row.intoDomain component = .ok result) :
    result.params.componentKey = component.params.componentKey ∧
      result.params.targetCount = component.params.targetCount ∧
      result.params.status = row.status ∧ result.params.processedCount = row.processedCount ∧
      result.params.errorCode = row.errorCode := by
  simp only [ResultRow.intoDomain, Except.mapError_eq_ok_iff, ComponentResult.new,
    Checked.new_eq_ok_iff] at h
  rw [h]
  exact ⟨rfl, rfl, rfl, rfl, rfl⟩

/-- A failure is a result with an error code. -/
theorem ComponentResult.failed_iff (result : ComponentResult) :
    result.params.status = .failed ↔ result.params.errorCode.isSome = true := by
  have hvalid := result.valid
  simp only [ComponentResultParams.check, Except.bind_eq_ok_iff, Except.exists_unit_iff,
    require_eq_ok_iff] at hvalid
  have hfailure := hvalid.2.2.1
  unfold ComponentResultParams.failureFieldsMatch at hfailure
  by_cases hfailed : result.params.status = .failed
  · rw [if_pos hfailed, Bool.and_eq_true] at hfailure
    simp only [hfailed, hfailure.1]
  · rw [if_neg hfailed, Bool.and_eq_true, Option.isNone_iff_eq_none] at hfailure
    simp only [hfailed, hfailure.1, Option.isSome_none, Bool.false_eq_true]

/-- A success has processed every target. -/
theorem ComponentResult.count_of_succeeded {result : ComponentResult}
    (h : result.params.status = .succeeded) :
    result.params.processedCount = result.params.targetCount := by
  have hvalid := result.valid
  simp only [ComponentResultParams.check, Except.bind_eq_ok_iff, Except.exists_unit_iff,
    require_eq_ok_iff] at hvalid
  exact hvalid.2.2.2.1 h

/-- The conclusion of an evidence agrees with its results and with whether it is finished. -/
theorem DeletionEvidence.status_facts (evidence : DeletionEvidence) :
    (evidence.params.overallStatus = .pending ↔ evidence.params.finishedAt.isNone = true) ∧
    (evidence.params.overallStatus = .completed →
      ∀ result ∈ evidence.params.componentResults, result.params.status = .succeeded) ∧
    (evidence.params.overallStatus = .failed →
      ∃ result ∈ evidence.params.componentResults, result.params.status = .failed) ∧
    evidence.params.evidenceDigest.profile = .deletionEvidenceV1 := by
  have hvalid := evidence.valid
  simp only [DeletionEvidenceParams.check, Except.bind_eq_ok_iff, Except.exists_unit_iff,
    require_eq_ok_iff, requireProfile] at hvalid
  obtain ⟨-, -, hfinished, -, hcompleted, hfailed, hprofile⟩ := hvalid
  exact ⟨hfinished, hcompleted, hfailed, hprofile⟩

/-- A changed result that loads is one that its evidence allows. -/
theorem not_contradicts_of_load {namespaceId deletionEvidenceId : Identifier}
    {evidence : DeletionEvidence} {row : EvidenceRow} {request : DeleteRequest}
    (hread : EvidenceRead db namespaceId deletionEvidenceId evidence row request)
    {result : ComponentResult} (hresult : result ∈ evidence.params.componentResults)
    {status : ComponentStatus} {processedCount : Nat} {changed : DeletionEvidence}
    (hload : loadEvidence (db.withResult (row.deleteRequestId, row.executionOrdinal,
      result.params.componentKey) status processedCount) namespaceId deletionEvidenceId =
        .ok (some changed)) :
    ¬ Contradicts evidence result status processedCount := by
  obtain ⟨row', request', hread'⟩ := loadEvidence_eq_ok hload
  -- The rows of the evidence and of the request are not the changed ones.
  obtain rfl : row' = row := Option.some.inj (hread'.found.symm.trans hread.found)
  have hsame : SamePlans db (db.withResult (row'.deleteRequestId, row'.executionOrdinal,
      result.params.componentKey) status processedCount) := ⟨rfl, rfl, rfl, rfl, rfl⟩
  have hrequest := hread'.planned
  rw [loadRequest_congr hsame, hread.planned, Except.ok.injEq, Option.some.injEq] at hrequest
  subst hrequest
  -- The result and its changed form come from one row and one planned component.
  obtain ⟨component, hcomponent, hold⟩ :=
    (List.mapM_eq_ok_iff.1 hread.results).exists_of_mem_right hresult
  obtain ⟨after, hafter, hnew⟩ :=
    (List.mapM_eq_ok_iff.1 hread'.results).exists_of_mem_left hcomponent
  obtain ⟨stored, hstored, hdomain⟩ := loadExecutionResult_eq_ok hold
  obtain ⟨rewritten, hrewritten, hdomain'⟩ := loadExecutionResult_eq_ok hnew
  obtain ⟨hkey, htarget, hstatus, hcount, herror⟩ := ResultRow.intoDomain_params hdomain
  obtain ⟨-, htarget', hstatus', hcount', herror'⟩ := ResultRow.intoDomain_params hdomain'
  rw [hkey, lookup_withResult, hstored, Option.map_some, Option.some.injEq] at hrewritten
  subst hrewritten
  dsimp only at hstatus' hcount' herror'
  have hoverall : changed.params.overallStatus = evidence.params.overallStatus :=
    (congrArg EvidenceRow.overallStatus hread'.params).symm.trans
      (congrArg EvidenceRow.overallStatus hread.params)
  have hsucceeded : result.params.status = .succeeded → after.params.status = .succeeded →
      processedCount = result.params.processedCount := by
    intro hwas his
    rw [← hcount', after.count_of_succeeded his, result.count_of_succeeded hwas, htarget,
      htarget']
  rintro (⟨hcompleted, hdiffers⟩ | hflips | ⟨hwas, his, hdiffers⟩)
  · have hwas := evidence.status_facts.2.1 hcompleted result hresult
    have his := changed.status_facts.2.1 (hoverall.trans hcompleted) after hafter
    exact hdiffers ⟨hstatus'.symm.trans (his.trans hwas.symm), hsucceeded hwas his⟩
  · have hfailures : status = .failed ↔ result.params.status = .failed := by
      rw [← hstatus', after.failed_iff, result.failed_iff, herror, herror']
    by_cases hfailed : result.params.status = .failed
    · exact (hflips.1 (hfailures.2 hfailed)) hfailed
    · exact hfailed (hfailures.1 (hflips.2 hfailed))
  · exact hdiffers (hsucceeded hwas (hstatus'.trans his))

/-- A changed conclusion that loads is the one the results call for. -/
theorem status_kept_of_load {namespaceId deletionEvidenceId : Identifier}
    {evidence : DeletionEvidence} {row : EvidenceRow} {request : DeleteRequest}
    (hread : EvidenceRead db namespaceId deletionEvidenceId evidence row request)
    {overallStatus : DeletionOverallStatus} {changed : DeletionEvidence}
    (hload : loadEvidence (db.withOverallStatus deletionEvidenceId overallStatus) namespaceId
      deletionEvidenceId = .ok (some changed))
    (hnew : overallStatus ≠ .partially) (hold : evidence.params.overallStatus ≠ .partially) :
    overallStatus = evidence.params.overallStatus := by
  obtain ⟨row', request', hread'⟩ := loadEvidence_eq_ok hload
  have hchanged := hread'.found
  rw [lookup_withOverallStatus, hread.found, Option.map_some, Option.some.injEq] at hchanged
  subst hchanged
  have hrequest := hread'.planned
  have hsame : SamePlans db (db.withOverallStatus deletionEvidenceId overallStatus) :=
    ⟨rfl, rfl, rfl, rfl, rfl⟩
  rw [loadRequest_congr hsame, hread.planned, Except.ok.injEq, Option.some.injEq] at hrequest
  subst hrequest
  have hresults : changed.params.componentResults = evidence.params.componentResults :=
    Except.ok.inj (hread'.results.symm.trans hread.results)
  have hoverall : changed.params.overallStatus = overallStatus :=
    (congrArg EvidenceRow.overallStatus hread'.params).symm
  have hfinished : changed.params.finishedAt = evidence.params.finishedAt :=
    (congrArg EvidenceRow.finishedAt hread'.params).symm.trans
      (congrArg EvidenceRow.finishedAt hread.params)
  obtain ⟨hpending, hcompleted, hfailed, -⟩ := evidence.status_facts
  obtain ⟨hpending', hcompleted', hfailed', -⟩ := changed.status_facts
  rw [hoverall, hfinished] at hpending'
  rw [hoverall, hresults] at hcompleted' hfailed'
  have hboth : (∀ result ∈ evidence.params.componentResults,
      result.params.status = .succeeded) → ¬ ∃ result ∈ evidence.params.componentResults,
        result.params.status = .failed := by
    rintro hall ⟨result, hresult, hstatus⟩
    rw [hall result hresult] at hstatus
    cases hstatus
  cases hwas : evidence.params.overallStatus with
  | partially => exact absurd hwas hold
  | pending => exact hpending'.2 (hpending.1 hwas)
  | completed =>
    cases overallStatus with
    | partially => exact absurd rfl hnew
    | pending => exact absurd (hwas.symm.trans (hpending.2 (hpending'.1 rfl))) (by decide)
    | failed => exact absurd (hfailed' rfl) (hboth (hcompleted hwas))
    | completed => rfl
  | failed =>
    cases overallStatus with
    | partially => exact absurd rfl hnew
    | pending => exact absurd (hwas.symm.trans (hpending.2 (hpending'.1 rfl))) (by decide)
    | failed => rfl
    | completed => exact absurd (hfailed hwas) (hboth (hcompleted' rfl))

/-- The constructor of an evidence looks at the profile of the digest only. -/
theorem DeletionEvidence.with_digest (evidence : DeletionEvidence) {evidenceDigest : Digest}
    (h : evidenceDigest.profile = .deletionEvidenceV1) :
    ({ evidence.params with evidenceDigest } : DeletionEvidenceParams).check = .ok () := by
  have hvalid := evidence.valid
  simp only [DeletionEvidenceParams.check, Except.bind_eq_ok_iff, Except.exists_unit_iff,
    requireProfile, require_eq_ok_iff] at hvalid ⊢
  obtain ⟨hnonempty, hunique, hfinished, htime, hcompleted, hfailed, -⟩ := hvalid
  exact ⟨hnonempty, hunique, hfinished, htime, hcompleted, hfailed, h⟩

/-- An evidence loads with any digest of its profile. -/
theorem EvidenceRead.load_withDigest {namespaceId deletionEvidenceId : Identifier}
    {evidence : DeletionEvidence} {row : EvidenceRow} {request : DeleteRequest}
    (hread : EvidenceRead db namespaceId deletionEvidenceId evidence row request)
    {evidenceDigest : Digest} (h : evidenceDigest.profile = .deletionEvidenceV1) :
    loadEvidence (db.withDigest deletionEvidenceId evidenceDigest) namespaceId
      deletionEvidenceId = .ok (some ⟨_, evidence.with_digest h⟩) := by
  have hfound := lookup_withDigest db deletionEvidenceId evidenceDigest
  rw [hread.found, Option.map_some] at hfound
  have hsame : SamePlans db (db.withDigest deletionEvidenceId evidenceDigest) :=
    ⟨rfl, rfl, rfl, rfl, rfl⟩
  refine EvidenceRead.load ⟨hfound, hread.owned, ?_, hread.results, ?_, hread.valid⟩
  · rw [loadRequest_congr hsame]
    exact hread.planned
  · rw [hread.params]
    rfl

theorem AcceptedEvidence.of_store {evidence : DeletionEvidence}
    (h : (storeDeletionEvidence evidence).run db = (.ok (), db')) :
    AcceptedEvidence db db' evidence := by
  obtain ⟨latest, hchecked, hinsert⟩ := storeDeletionEvidence_eq_ok h
  refine ⟨evidence.status_facts.2.2.2, latest, hchecked, ?_⟩
  have hrows := congrArg (·.evidence) ((Database.insertEvidenceRow_eq_ok hinsert).2)
  dsimp only at hrows
  rw [hrows]
  exact List.mem_append_right _ List.mem_cons_self

theorem LoadedEvidence.of_load {namespaceId deletionEvidenceId : Identifier}
    {evidence : DeletionEvidence}
    (h : loadEvidence db namespaceId deletionEvidenceId = .ok (some evidence)) :
    ∃ n, LoadedEvidence db namespaceId deletionEvidenceId evidence n := by
  obtain ⟨row, request, hread⟩ := loadEvidence_eq_ok h
  have howner : row.deleteRequestId = evidence.params.deleteRequestId :=
    congrArg EvidenceRow.deleteRequestId hread.params
  refine ⟨row.executionOrdinal, evidence.status_facts.2.2.2, ?_, ?_, ?_, ?_, ?_⟩
  · rw [← hread.params]
    exact hread.found
  · rw [← howner]
    exact ⟨request, hread.planned, hread.results⟩
  · intro result hresult status processedCount hcontradicts
    rw [← howner]
    refine loadEvidence_fails hread.found hread.owned fun changed hload => ?_
    exact not_contradicts_of_load hread hresult hload hcontradicts
  · intro overallStatus hdiffers hnew hold
    have hlookup := lookup_withOverallStatus db deletionEvidenceId overallStatus
    rw [hread.found, Option.map_some] at hlookup
    refine loadEvidence_fails hlookup hread.owned fun changed hload => ?_
    exact hdiffers (status_kept_of_load hread hload hnew hold)
  · exact fun evidenceDigest hprofile => ⟨_, rfl, hread.load_withDigest hprofile⟩

/-- Evidence is bound to the results that the executor stored, and not by its digest: an accepted
evidence repeats the results of the latest attempt and concludes what they call for, an evidence
that loads is read from the results of its attempt, and a change of these results or of the
conclusion that makes the two disagree makes the load fail. -/
theorem evidence_repeats_stored_results :
    (∀ (db db' : Database) (evidence : DeletionEvidence),
      (storeDeletionEvidence evidence).run db = (.ok (), db') →
        AcceptedEvidence db db' evidence) ∧
    ∀ (db : Database) (namespaceId deletionEvidenceId : Identifier)
      (evidence : DeletionEvidence),
      loadEvidence db namespaceId deletionEvidenceId = .ok (some evidence) →
        ∃ n, LoadedEvidence db namespaceId deletionEvidenceId evidence n :=
  ⟨fun _ _ _ h => .of_store h, fun _ _ _ _ h => LoadedEvidence.of_load h⟩

end Evidence

section

open Sample

/-- The evidence of the first file, evaluated: it loads once it is stored, and it is accepted with
the digest of another text as well. -/
theorem firstEvidence_evaluated :
    (loadEvidence (runOps .empty firstCompleted) namespaceId
        (identifier "evidence-1")).toOption.any (fun stored => stored.isSome) = true ∧
      ((storeDeletionEvidence relabelledFirst).run
        (runOps .empty (firstRequested ++ [executeFirst]))).1.toOption.isSome = true ∧
      completedFirst.params.evidenceDigest ≠ relabelledFirst.params.evidenceDigest := by
  decide +kernel

theorem firstEvidence_load : ∃ evidence,
    loadEvidence (runOps .empty firstCompleted) namespaceId (identifier "evidence-1") =
      .ok (some evidence) := by
  have hload := firstEvidence_evaluated.1
  generalize loadEvidence (runOps .empty firstCompleted) namespaceId
    (identifier "evidence-1") = outcome at hload ⊢
  cases outcome with
  | error e => cases hload
  | ok stored =>
    cases stored with
    | none => cases hload
    | some evidence => exact ⟨evidence, rfl⟩

/-- Evidence with the digest of another text is accepted, and evidence loads after its digest was
exchanged for the one of another text. -/
theorem evidence_digest_is_not_verified :
    (¬ ∀ db evidence, ((storeDeletionEvidence evidence).run db).1 = .ok () →
      DigestMatches evidence) ∧
    ¬ ∀ db namespaceId deletionEvidenceId evidence,
      loadEvidence db namespaceId deletionEvidenceId = .ok (some evidence) →
        DigestMatches evidence := by
  obtain ⟨-, hstore, hdiffers⟩ := firstEvidence_evaluated
  constructor
  · intro hall
    have hrelabelled : ((storeDeletionEvidence relabelledFirst).run
        (runOps .empty (firstRequested ++ [executeFirst]))).1 = .ok () := by
      generalize ((storeDeletionEvidence relabelledFirst).run
        (runOps .empty (firstRequested ++ [executeFirst]))).1 = result at hstore ⊢
      cases result with
      | error e => cases hstore
      | ok u => rfl
    have hmatches := hall _ completedFirst (congrArg Prod.fst firstCompleted_run)
    exact hdiffers (hmatches.trans (hall _ relabelledFirst hrelabelled).symm)
  · intro hall
    obtain ⟨evidence, hload⟩ := firstEvidence_load
    obtain ⟨row, request, hread⟩ := loadEvidence_eq_ok hload
    have hprofile : completedFirst.params.evidenceDigest.profile = .deletionEvidenceV1 := rfl
    have hprofile' : relabelledFirst.params.evidenceDigest.profile = .deletionEvidenceV1 := rfl
    have hfirst := hread.load_withDigest hprofile
    have hsecond := hread.load_withDigest hprofile'
    exact hdiffers ((hall _ _ _ _ hfirst).trans (hall _ _ _ _ hsecond).symm)

/-- The evidence of the first file repeats the stored results. -/
theorem evidence_repeats_stored_results_of_one_file :
    AcceptedEvidence (runOps .empty (firstRequested ++ [executeFirst]))
      (runOps .empty firstCompleted) completedFirst ∧
    ∃ evidence n, LoadedEvidence (runOps .empty firstCompleted) namespaceId
      (identifier "evidence-1") evidence n := by
  obtain ⟨evidence, hload⟩ := firstEvidence_load
  refine ⟨evidence_repeats_stored_results.1 _ _ _ firstCompleted_run, evidence, ?_⟩
  exact evidence_repeats_stored_results.2 _ _ _ _ hload

end

end RadishMemory
