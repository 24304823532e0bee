import RadishMemory.Properties.ActionEffects
import RadishMemory.Construction.Library

/-!
# Rules for executions and evidence writes

`executeRequest` is a loop of transactions.  `executeRequest_safe` is its rule: a loop invariant
that every kind of transaction keeps holds after every access, so it holds however the execution
ends.  `storeDeletionEvidence_safe` is the rule of an evidence write.
-/

namespace RadishMemory

variable [Platform] {db db' : Database}

/-! ## Reads -/

theorem loadRequestCall_readOnly (namespaceId deleteRequestId : Identifier) :
    (loadRequestCall namespaceId deleteRequestId).ReadOnly := by
  refine (Program.readOnly_read _ _).bind fun stored => ?_
  cases stored with
  | none => exact Program.readOnly_pure none
  | some row =>
    refine (Program.readOnly_read _ _).bind fun targetRefs => ?_
    refine (Program.readOnly_read _ _).bind fun rows => ?_
    refine Program.ReadOnly.bind ?_ fun components => ?_
    · refine Program.readOnly_mapM (fun entry => ?_) _
      refine (Program.readOnly_ofExcept _).bind fun _ => ?_
      exact (Program.readOnly_read _ _).bind fun _ => Program.readOnly_ofExcept _
    · exact (Program.readOnly_ofExcept _).bind fun request => Program.readOnly_pure _

theorem loadCheckedRequest_readOnly (namespaceId deleteRequestId : Identifier) :
    (loadCheckedRequest namespaceId deleteRequestId).ReadOnly :=
  (loadRequestCall_readOnly namespaceId deleteRequestId).bind fun _ =>
    (Program.readOnly_ofExcept _).bind fun _ =>
      (Program.readOnly_ofExcept _).bind fun _ => Program.readOnly_pure _

theorem loadExecutionResults_readOnly (kind : AccessKind) (request : DeleteRequest)
    (attemptOrdinal : Nat) : (loadExecutionResults kind request attemptOrdinal).ReadOnly :=
  Program.readOnly_mapM (fun _ => Program.readOnly_read _ _) _

theorem run_loadExecutionResults (kind : AccessKind) (request : DeleteRequest)
    (attemptOrdinal : Nat) (db : Database) :
    (loadExecutionResults kind request attemptOrdinal).run db =
      (request.params.plannedComponents.mapM fun component =>
        loadExecutionResult db request.params.deleteRequestId attemptOrdinal component, db) :=
  Program.run_mapM_readOnly (fun _ => Program.readOnly_read _ _) _ db

/-- One planned component of a stored request. -/
def loadComponent (db : Database) (deleteRequestId : Identifier) (entry : ComponentRow × Nat) :
    Except SqliteError DeletionTarget := do
  require (entry.1.ordinal = entry.2) storedDeletion
  let targets ← loadChildren storedDeletion db.componentTargets
    (deleteRequestId, entry.1.componentKey)
  entry.1.intoDomain targets

/-- Loading a request without interference is a function of the request tables. -/
theorem loadRequest_eq (db : Database) (namespaceId deleteRequestId : Identifier) :
    loadRequest db namespaceId deleteRequestId =
      match (lookup RequestRow.deleteRequestId db.requests deleteRequestId).filter
        (·.namespaceId == namespaceId) with
      | none => .ok none
      | some row => do
        let targetRefs ← loadChildren storedDeletion db.requestTargets deleteRequestId
        let plannedComponents ← (componentRowsOf db deleteRequestId).zipIdx.mapM
          (loadComponent db deleteRequestId)
        let request ← row.intoDomain targetRefs plannedComponents
        return some request := by
  have hcomponent : ∀ entry, (loadRequestComponent deleteRequestId entry).ReadOnly := fun entry =>
    (Program.readOnly_ofExcept _).bind fun _ =>
      (Program.readOnly_read _ _).bind fun _ => Program.readOnly_ofExcept _
  have hpure : ∀ entry, ((loadRequestComponent deleteRequestId entry).run db).1 =
      loadComponent db deleteRequestId entry := by
    rintro ⟨row, expected⟩
    rw [loadRequestComponent, loadComponent, Program.run_bind, Program.run_ofExcept]
    cases require (row.ordinal = expected) storedDeletion with
    | error e => rfl
    | ok u =>
      dsimp only
      rw [Program.run_bind, query, Program.run_read, Except.ok_bind]
      cases loadChildren storedDeletion db.componentTargets (deleteRequestId, row.componentKey)
        with
      | error e => rfl
      | ok targets => rfl
  rw [loadRequest, loadRequestCall, Program.run_bind, query, Program.run_read]
  dsimp only [pure, Except.pure]
  cases (lookup RequestRow.deleteRequestId db.requests deleteRequestId).filter
    (·.namespaceId == namespaceId) with
  | none => rfl
  | some row =>
    dsimp only
    rw [Program.run_bind, query, Program.run_read]
    cases loadChildren storedDeletion db.requestTargets deleteRequestId with
    | error e => rfl
    | ok targetRefs =>
      dsimp only
      rw [Program.run_bind, query, Program.run_read]
      dsimp only
      rw [Program.run_bind, Program.run_mapM_readOnly hcomponent]
      simp only [hpure, Except.ok_bind]
      cases (componentRowsOf db deleteRequestId).zipIdx.mapM
        (loadComponent db deleteRequestId) with
      | error e => rfl
      | ok components =>
        dsimp only
        rw [Program.run_bind, Program.run_ofExcept, Except.ok_bind]
        cases row.intoDomain targetRefs components with
        | error e => rfl
        | ok request => rfl

omit [Platform] in
/-- The tables of requests, their plans and their closures are the same. -/
structure SamePlans (db db' : Database) : Prop where
  requests : db'.requests = db.requests
  requestTargets : db'.requestTargets = db.requestTargets
  requestComponents : db'.requestComponents = db.requestComponents
  componentTargets : db'.componentTargets = db.componentTargets
  executionClosure : db'.executionClosure = db.executionClosure

omit [Platform] in
theorem SamePlans.of_tables (h : db'.toDeletionTables = db.toDeletionTables) :
    SamePlans db db' where
  requests := by rw [h]
  requestTargets := by rw [h]
  requestComponents := by rw [h]
  componentTargets := by rw [h]
  executionClosure := by rw [h]

/-- Loading a request looks at the plans only. -/
theorem loadRequest_congr (h : SamePlans db db') (namespaceId deleteRequestId : Identifier) :
    loadRequest db' namespaceId deleteRequestId = loadRequest db namespaceId deleteRequestId := by
  have hcomponent : loadComponent db' deleteRequestId = loadComponent db deleteRequestId := by
    funext entry
    rw [loadComponent, loadComponent, h.componentTargets]
  rw [loadRequest_eq, loadRequest_eq, hcomponent, componentRowsOf, componentRowsOf, h.requests,
    h.requestTargets, h.requestComponents]

/-- The row a loaded request was read from. -/
theorem loadRequest_eq_ok {namespaceId deleteRequestId : Identifier} {request : DeleteRequest}
    (h : loadRequest db namespaceId deleteRequestId = .ok (some request)) :
    request.params.deleteRequestId = deleteRequestId ∧ request.params.namespaceId = namespaceId ∧
      lookup RequestRow.deleteRequestId db.requests deleteRequestId =
        some (RequestRow.ofRequest request.params) := by
  rw [loadRequest_eq] at h
  split at h
  · cases h
  · rename_i row hrow
    simp only [Option.filter_eq_some_iff, beq_iff_eq] at hrow
    obtain ⟨hlookup, hns⟩ := hrow
    simp only [Except.bind_eq_ok_iff, Except.pure_eq_ok_iff, Option.some.injEq,
      RequestRow.intoDomain, Except.mapError_eq_ok_iff, DeleteRequest.new,
      Checked.new_eq_ok_iff] at h
    obtain ⟨targets, -, components, -, r, hparams, rfl⟩ := h
    have hid := lookup_key hlookup
    rw [hparams]
    exact ⟨hid, hns, hlookup⟩

/-- The request an execution or an evidence write works with. -/
theorem run_loadCheckedRequest (namespaceId deleteRequestId : Identifier) (db : Database) :
    ((loadCheckedRequest namespaceId deleteRequestId).run db).1 = (do
      let stored ← loadRequest db namespaceId deleteRequestId
      let request ← stored.orError (.deletionInvariant .missingDeleteRequest)
      validateRequestProfile request
      return request) := by
  have hstate := (loadRequestCall_readOnly namespaceId deleteRequestId).run_snd db
  rw [loadCheckedRequest, Program.run_bind, loadRequest]
  cases hload : (loadRequestCall namespaceId deleteRequestId).run db with
  | mk result db₁ =>
    cases result with
    | error e => rfl
    | ok stored =>
      change (Program.run (Program.ofExcept _ >>= _) db₁).1 = _
      rw [Program.run_bind, Program.run_ofExcept, Except.ok_bind]
      cases stored.orError (SqliteError.deletionInvariant .missingDeleteRequest) with
      | error e => rfl
      | ok request =>
        change (Program.run (Program.ofExcept _ >>= _) db₁).1 = _
        rw [Program.run_bind, Program.run_ofExcept, Except.ok_bind]
        cases validateRequestProfile request with
        | error e => rfl
        | ok u => rfl

theorem loadCheckedRequest_eq_ok {namespaceId deleteRequestId : Identifier}
    {request : DeleteRequest}
    (h : ((loadCheckedRequest namespaceId deleteRequestId).run db).1 = .ok request) :
    loadRequest db namespaceId deleteRequestId = .ok (some request) ∧
      validateRequestProfile request = .ok () := by
  rw [run_loadCheckedRequest] at h
  simp only [Except.bind_eq_ok_iff, Except.exists_unit_iff, Option.orError_eq_ok_iff,
    Except.pure_eq_ok_iff] at h
  obtain ⟨_, hload, r, rfl, hprofile, rfl⟩ := h
  exact ⟨hload, hprofile⟩

/-! ## One component -/

/-- The planned component of a type. -/
def PlannedComponent (request : DeleteRequest) (componentType : DeletionComponentType)
    (component : DeletionTarget) : Prop :=
  request.params.plannedComponents.find? (fun component =>
    component.params.componentType == componentType) = some component

/-- What the component transactions and the failure records of an attempt keep.  `hasFailed`
is the flag the loop carries. -/
structure LoopInvariant (request : DeleteRequest) (execution : LocalDeletionExecution)
    (attemptOrdinal : Nat) (J : Bool → Database → Prop) : Prop where
  succeed : ∀ hasFailed db db₁ db' componentType component action result,
    J hasFailed db → PlannedComponent request componentType component →
    executeComponentAction db request.params.namespaceId request.params.deleteRequestId
      componentType attemptOrdinal hasFailed = .ok (action, db₁) →
    successfulResult component execution action = .ok result →
    insertExecutionResult db₁ request.params.deleteRequestId attemptOrdinal result = .ok db' →
    J hasFailed db'
  fail : ∀ hasFailed db db' componentType component result,
    J hasFailed db → PlannedComponent request componentType component →
    failedResult component execution = .ok result →
    insertExecutionResult db request.params.deleteRequestId attemptOrdinal result = .ok db' →
    J true db'

theorem componentTransaction_cases {request : DeleteRequest}
    {execution : LocalDeletionExecution} {attemptOrdinal : Nat} {hasFailed faulty succeeded : Bool}
    {component : DeletionTarget} {componentType : DeletionComponentType}
    (h : componentTransaction request execution attemptOrdinal hasFailed faulty component
      componentType db = .ok (succeeded, db')) :
    (succeeded = false ∧ db' = db) ∨ ∃ db₁ action result, succeeded = true ∧
      executeComponentAction db request.params.namespaceId request.params.deleteRequestId
        componentType attemptOrdinal hasFailed = .ok (action, db₁) ∧
      successfulResult component execution action = .ok result ∧
      insertExecutionResult db₁ request.params.deleteRequestId attemptOrdinal result =
        .ok db' := by
  simp only [componentTransaction] at h
  split at h
  · cases h
    exact .inl ⟨rfl, rfl⟩
  · split at h
    · rename_i action db₁ haction
      simp only [Except.bind_eq_ok_iff, Except.pure_eq_ok_iff, Prod.mk.injEq] at h
      obtain ⟨result, hresult, db₂, hinsert, rfl, rfl⟩ := h
      exact .inr ⟨db₁, action, result, rfl, haction, hresult, hinsert⟩
    · cases h
      exact .inl ⟨rfl, rfl⟩

theorem executeComponent_safe {request : DeleteRequest} {execution : LocalDeletionExecution}
    {faulty : DeletionComponentType → Bool} {attemptOrdinal : Nat} {hasFailed : Bool}
    {componentType : DeletionComponentType} {I : Database → Prop} {J : Bool → Database → Prop}
    (hJ : LoopInvariant request execution attemptOrdinal J) (hI : ∀ b db, J b db → I db)
    (h : J hasFailed db) :
    (executeComponent request execution faulty attemptOrdinal hasFailed componentType).Safe I
      (fun r s => match r with
        | .ok b => J b s
        | .error _ => I s) db := by
  refine Program.safe_bind (Program.safe_ofExcept ?_)
  cases hfind : (request.params.plannedComponents.find? fun component =>
      component.params.componentType == componentType) with
  | none => exact hI _ _ h
  | some component =>
    refine Program.safe_bind (Program.safe_transact ?_ ?_)
    · intro succeeded db₁ hok
      rcases componentTransaction_cases hok with ⟨rfl, rfl⟩ |
        ⟨db₂, action, result, rfl, haction, hresult, hinsert⟩
      · refine ⟨hI _ _ h, ?_⟩
        refine Program.safe_bind (Program.safe_ofExcept ?_)
        cases hresult : failedResult component execution with
        | error e => exact hI _ _ h
        | ok result =>
          refine Program.safe_bind (Program.safe_transact ?_ fun e _ => ⟨hI _ _ h, hI _ _ h⟩)
          intro _ db₂ hinsert
          simp only [failureTransaction, Except.bind_eq_ok_iff, Except.pure_eq_ok_iff,
            Prod.mk.injEq, true_and] at hinsert
          obtain ⟨db₃, hinsert, rfl⟩ := hinsert
          have htrue := hJ.fail hasFailed db₁ db₃ componentType component result h hfind hresult
            hinsert
          exact ⟨hI _ _ htrue, htrue⟩
      · have hnext := hJ.succeed hasFailed db db₂ db₁ componentType component action result h
          hfind haction hresult hinsert
        exact ⟨hI _ _ hnext, hnext⟩
    · intro e _
      exact ⟨hI _ _ h, hI _ _ h⟩

/-! ## Whole executions -/

theorem foldlM_executeComponent_safe {request : DeleteRequest}
    {execution : LocalDeletionExecution} {faulty : DeletionComponentType → Bool}
    {attemptOrdinal : Nat} {order : List DeletionComponentType} {hasFailed : Bool}
    {I : Database → Prop} {J : Bool → Database → Prop}
    (hJ : LoopInvariant request execution attemptOrdinal J) (hI : ∀ b db, J b db → I db)
    (h : J hasFailed db) :
    (order.foldlM (executeComponent request execution faulty attemptOrdinal) hasFailed).Safe I
      (fun r s => match r with
        | .ok b => J b s
        | .error _ => I s) db := by
  induction order generalizing db hasFailed with
  | nil => exact h
  | cons componentType rest ih =>
    rw [List.foldlM_cons]
    refine Program.safe_bind ((executeComponent_safe hJ hI h).mono ?_)
    intro r s hr
    cases r with
    | ok b => exact ih hr
    | error e => exact hr

/-- The rule of an execution on its request: `J` is the loop invariant of the attempt, and the
results that are read back at the end are those of the state the loop left. -/
theorem executeRequest_safe {request : DeleteRequest} {execution : LocalDeletionExecution}
    {faulty : DeletionComponentType → Bool} {I : Database → Prop}
    {Q : Except SqliteError (List ComponentResult) → Database → Prop}
    {J : Nat → Bool → Database → Prop}
    (hJ : ∀ attemptOrdinal, LoopInvariant request execution attemptOrdinal (J attemptOrdinal))
    (hI : ∀ n b db, J n b db → I db) (h : I db) (herror : ∀ e db, I db → Q (.error e) db)
    (hresults : ∀ n b db, J n b db → Q (request.params.plannedComponents.mapM fun component =>
      loadExecutionResult db request.params.deleteRequestId n component) db)
    (hattempt : ∀ n db', insertNextAttempt request.params.deleteRequestId execution.checkedAt db =
      .ok (n, db') → J n false db') :
    (executeRequest request execution faulty).Safe I Q db := by
  refine Program.safe_bind (Program.safe_transact ?_ fun e _ => ⟨h, herror e _ h⟩)
  intro n db₁ hopen
  have hstart := hattempt n db₁ hopen
  refine ⟨hI _ _ _ hstart, Program.safe_bind ?_⟩
  refine (foldlM_executeComponent_safe (hJ n) (hI n) hstart).mono ?_
  intro r s hr
  cases r with
  | error e => exact herror e s hr
  | ok b =>
    refine (loadExecutionResults_readOnly _ _ _).safe (hI _ _ _ hr) ?_
    rw [run_loadExecutionResults]
    exact hresults n b s hr

/-- The rule of an execution: its reads change nothing, and the rest is `executeRequest` on the
request they found. -/
theorem executeDeletion_safe {namespaceId deleteRequestId : Identifier}
    {execution : LocalDeletionExecution} {faulty : DeletionComponentType → Bool}
    {I : Database → Prop} {Q : Except SqliteError (List ComponentResult) → Database → Prop}
    (h : I db) (herror : ∀ e, Q (.error e) db)
    (hrequest : ∀ request, loadRequest db namespaceId deleteRequestId = .ok (some request) →
      validateRequestProfile request = .ok () →
      (executeRequest request execution faulty).Safe I Q db) :
    (executeDeletion namespaceId deleteRequestId execution faulty).Safe I Q db := by
  refine Program.safe_bind ((loadCheckedRequest_readOnly namespaceId deleteRequestId).safe h ?_)
  cases hload : ((loadCheckedRequest namespaceId deleteRequestId).run db).1 with
  | error e => exact herror e
  | ok request =>
    obtain ⟨hstored, hprofile⟩ := loadCheckedRequest_eq_ok hload
    exact hrequest request hstored hprofile

omit [Platform] in
theorem insertNextAttempt_eq_ok {deleteRequestId : Identifier} {checkedAt : Timestamp} {n : Nat}
    (h : insertNextAttempt deleteRequestId checkedAt db = .ok (n, db')) :
    n = (latestAttempt db deleteRequestId).getD 0 + 1 ∧
      (∃ r ∈ db.requests, r.deleteRequestId = deleteRequestId) ∧
      db' = { db with
        attempts := db.attempts ++ [{ deleteRequestId, attemptOrdinal := n, checkedAt }] } := by
  simp only [insertNextAttempt, Except.bind_eq_ok_iff, Except.pure_eq_ok_iff,
    Prod.mk.injEq] at h
  obtain ⟨db₁, hinsert, rfl, rfl⟩ := h
  obtain ⟨-, -, hrequest, rfl⟩ := Database.insertAttempt_eq_ok_iff.1 hinsert
  exact ⟨rfl, Database.hasRequest_iff.1 hrequest, rfl⟩

theorem insertExecutionResult_eq_ok {deleteRequestId : Identifier} {attemptOrdinal : Nat}
    {result : ComponentResult}
    (h : insertExecutionResult db deleteRequestId attemptOrdinal result = .ok db') :
    db' = { db with
      results := db.results ++ [ResultRow.ofResult deleteRequestId attemptOrdinal result] } :=
  (Database.insertResult_eq_ok_iff.1 h).2.2.2

/-! ## Evidence -/

/-- What an evidence write has checked when it inserts its row. -/
structure EvidenceChecked (db : Database) (evidence : DeletionEvidence) (latest : Nat) :
    Prop where
  isLatest : latestAttempt db evidence.params.deleteRequestId = some latest
  results : ∃ request,
    loadRequest db evidence.params.namespaceId evidence.params.deleteRequestId =
      .ok (some request) ∧ validateRequestProfile request = .ok () ∧
    ∃ persisted, (request.params.plannedComponents.mapM fun component =>
        loadExecutionResult db request.params.deleteRequestId latest component) =
      .ok persisted ∧ validateEvidenceResults evidence.params persisted = .ok ()
  tip : (evidenceTip db evidence.params.deleteRequestId).map EvidenceRow.deletionEvidenceId =
    evidence.params.previousEvidenceId

/-- The rule of an evidence write: the database stays as it is until one row is inserted. -/
theorem storeDeletionEvidence_safe {evidence : DeletionEvidence} {I : Database → Prop}
    {Q : Except SqliteError Unit → Database → Prop} (h : I db) (herror : ∀ e, Q (.error e) db)
    (hinsert : ∀ latest db', EvidenceChecked db evidence latest →
      db.insertEvidenceRow (EvidenceRow.ofEvidence latest evidence.params) = .ok db' →
      I db' ∧ Q (.ok ()) db') :
    (storeDeletionEvidence evidence).Safe I Q db := by
  refine Program.safe_bind ((loadCheckedRequest_readOnly _ _).safe h ?_)
  cases hload : ((loadCheckedRequest evidence.params.namespaceId
      evidence.params.deleteRequestId).run db).1 with
  | error e => exact herror e
  | ok request =>
    obtain ⟨hstored, hprofile⟩ := loadCheckedRequest_eq_ok hload
    refine Program.safe_bind (Program.safe_ofExcept ?_)
    cases (validateDeletionEvidence request evidence).mapError deletionCore with
    | error e => exact herror e
    | ok u =>
      refine Program.safe_bind (Program.safe_read h ?_)
      cases hlatest : latestAttempt db evidence.params.deleteRequestId with
      | none => exact herror _
      | some latest =>
        refine Program.safe_bind ((loadExecutionResults_readOnly _ _ _).safe h ?_)
        rw [run_loadExecutionResults]
        cases hresults : (request.params.plannedComponents.mapM fun component =>
            loadExecutionResult db request.params.deleteRequestId latest component) with
        | error e => exact herror e
        | ok persisted =>
          refine Program.safe_bind (Program.safe_ofExcept ?_)
          cases hvalid : validateEvidenceResults evidence.params persisted with
          | error e => exact herror e
          | ok u =>
            refine Program.safe_bind (Program.safe_read h ?_)
            refine Program.safe_bind (Program.safe_ofExcept ?_)
            by_cases htip : (evidenceTip db evidence.params.deleteRequestId).map
                EvidenceRow.deletionEvidenceId = evidence.params.previousEvidenceId
            · rw [require_of htip]
              refine Program.safe_transact ?_ fun e _ => ⟨h, herror e⟩
              intro _ db' hok
              simp only [insertEvidence, Except.bind_eq_ok_iff, Except.pure_eq_ok_iff,
                Prod.mk.injEq, true_and] at hok
              obtain ⟨db₁, hrow, rfl⟩ := hok
              exact hinsert latest db₁ ⟨hlatest,
                ⟨request, hstored, hprofile, persisted, hresults, hvalid⟩, htip⟩ hrow
            · rw [require_of_not htip]
              exact herror _

/-- What a successful evidence write checked and did. -/
theorem storeDeletionEvidence_eq_ok {evidence : DeletionEvidence}
    (h : (storeDeletionEvidence evidence).run db = (.ok (), db')) :
    ∃ latest, EvidenceChecked db evidence latest ∧
      db.insertEvidenceRow (EvidenceRow.ofEvidence latest evidence.params) = .ok db' := by
  have hrun := (storeDeletionEvidence_safe (I := fun _ => True)
    (Q := fun result after => result = .ok () → ∃ latest, EvidenceChecked db evidence latest ∧
      db.insertEvidenceRow (EvidenceRow.ofEvidence latest evidence.params) = .ok after)
    trivial (fun _ herror => nomatch herror)
    fun latest after hchecked hrow => ⟨trivial, fun _ => ⟨latest, hchecked, hrow⟩⟩).run
  rw [h] at hrun
  exact hrun rfl

end RadishMemory
