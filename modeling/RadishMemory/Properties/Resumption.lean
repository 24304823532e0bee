import RadishMemory.Properties.Recall
import RadishMemory.Properties.Scope

/-!
# Resuming the deletion of a lineage

`deleteSourceLineage` finds the targets of a lineage through its tip.  Its first commit stores the
request and removes the tip, so from then on the lineage resolves to nothing, and no later call
with its id gets past the first query (`LineageClosed.cannot_finish`).  A call that fails before
this commit leaves the database as it was.
-/

namespace RadishMemory

section Library

variable [Platform] {db db' : Database} {namespaceId lineageId : Identifier}

/-! ## Closed lineages -/

omit [Platform] in
/-- A stored request has frozen a source of the lineage. -/
def LineageClosed (db : Database) (namespaceId lineageId : Identifier) : Prop :=
  ∃ D, ∃ s ∈ db.sources, s.namespaceId = namespaceId ∧ s.lineageId = lineageId ∧
    Frozen db D .sourceMetadata s.sourceId

/-- A source stays where it is. -/
theorem Change.Applies.source_stays (hc : Constraints db) {c : Change}
    (happlies : c.Applies db db') {s : SourceRow} (hs : s ∈ db.sources) :
    ∃ new ∈ db'.sources, new.place = s.place :=
  ⟨sourceTable.on db c s, (sourceTable_sound.mem_rows hc happlies).2 (.inl ⟨s, hs, rfl⟩),
    sourceTable_on_place c s⟩

theorem LineageClosed.step (hc : Constraints db) {c : Change} (happlies : c.Applies db db')
    (h : LineageClosed db namespaceId lineageId) : LineageClosed db' namespaceId lineageId := by
  obtain ⟨D, s, hs, hns, hlineage, hfrozen⟩ := h
  obtain ⟨new, hnew, hplace⟩ := happlies.source_stays hc hs
  rw [SourceRow.place, SourceRow.place, Prod.mk.injEq, Prod.mk.injEq] at hplace
  refine ⟨D, new, hnew, hplace.2.1.trans hns, hplace.2.2.trans hlineage, ?_⟩
  rw [hplace.1]
  exact happlies.frozen hfrozen

omit [Platform] in
/-- A closed lineage has no tip. -/
theorem LineageClosed.no_tip (h : LibraryInvariant db)
    (hclosed : LineageClosed db namespaceId lineageId) :
    lineageTip db namespaceId lineageId = none := by
  obtain ⟨D, s, hs, rfl, rfl, hfrozen⟩ := hclosed
  rw [lineageTip, lookup_eq_none_iff]
  exact (h.closedLineages D s hs hfrozen).1

/-- A closed lineage resolves to nothing. -/
theorem LineageClosed.no_targets (h : LibraryInvariant db)
    (hclosed : LineageClosed db namespaceId lineageId) {targets : List ObjectRef}
    (hresolve : resolveSourceLineageDeletionTargets db namespaceId lineageId = .ok targets) :
    targets = [] := by
  simp only [resolveSourceLineageDeletionTargets, listSourceVersions, Except.bind_eq_ok_iff,
    Except.pure_eq_ok_iff, listSourceVersionsWith, hclosed.no_tip h, Except.ok.injEq] at hresolve
  obtain ⟨_, ⟨_, -, rfl⟩, rfl⟩ := hresolve
  rfl

/-- The lineage that a request is for is closed once the request is stored. -/
theorem StoredRequest.lineageClosed {request : DeleteRequest} {closure : ExecutionClosure}
    (h : LibraryInvariant db) (hstored : StoredRequest db db' request closure)
    {targets : List ObjectRef} (hrefs : request.params.targetRefs = targets)
    (hresolve : resolveSourceLineageDeletionTargets db namespaceId lineageId = .ok targets)
    (hsome : targets ≠ []) : LineageClosed db' namespaceId lineageId := by
  simp only [resolveSourceLineageDeletionTargets, listSourceVersions, Except.bind_eq_ok_iff,
    Except.pure_eq_ok_iff] at hresolve
  obtain ⟨versions, ⟨_, -, hversions⟩, rfl⟩ := hresolve
  cases versions with
  | nil => exact absurd rfl hsome
  | cons version rest =>
    -- The first version is a row of the lineage and a target of the request.
    obtain ⟨row, hrow, hid⟩ : ∃ row ∈ activeVersions db namespaceId lineageId,
        row.sourceId = version.sourceId := by
      simp only [listSourceVersionsWith] at hversions
      split at hversions
      · cases hversions
      simp only [Except.bind_eq_ok_iff, List.mapM_eq_ok_iff, Except.exists_unit_iff,
        Except.pure_eq_ok_iff] at hversions
      obtain ⟨_, hall, -, rfl⟩ := hversions
      obtain ⟨⟨row, index⟩, hentry, hone⟩ :=
        List.Forall₂.exists_of_mem_right hall List.mem_cons_self
      simp only [loadVersionSummary, Except.bind_eq_ok_iff, Except.exists_unit_iff,
        Option.orError_eq_ok_iff, Except.mapError_eq_ok_iff, SourceVersionSummary.fromSource,
        Except.pure_eq_ok_iff] at hone
      obtain ⟨-, _, hload, source, rfl, -, -, rfl⟩ := hone
      have hmem := List.fst_mem_of_mem_zipIdx hentry
      rw [List.mem_insertionSort] at hmem
      exact ⟨row, hmem, (active_source hload).1.symm⟩
    have htarget : version.sourceId ∈ request.params.sourceTargets := by
      rw [DeleteRequestParams.sourceTargets, mem_idsOfType, hrefs, resolveLineageTargets,
        List.isEmpty_cons, if_neg Bool.false_ne_true, mem_sortRefs, List.mem_append, List.mem_dedup]
      exact .inl List.mem_cons_self
    rw [activeVersions, List.mem_filter] at hrow
    simp only [Bool.and_eq_true, beq_iff_eq] at hrow
    obtain ⟨hsource, ⟨hns, hlineage⟩, -⟩ := hrow
    have happlies : (Change.request request closure).Applies db db' := hstored
    obtain ⟨new, hnew, hplace⟩ := happlies.source_stays h.constraints hsource
    rw [SourceRow.place, SourceRow.place, Prod.mk.injEq, Prod.mk.injEq] at hplace
    refine ⟨request.params.deleteRequestId, new, hnew, hplace.2.1.trans hns,
      hplace.2.2.trans hlineage, hstored.frozen_source_iff.2 (.inr ⟨rfl, ?_⟩)⟩
    rw [hplace.1, hid]
    exact htarget

/-! ## The steps of a call -/

/-- What a call computes before it writes: the request and what is kept for its execution. -/
def plannedDeletion (config : LocalLibraryConfig) (runtime : DeletionRuntime)
    (lineageId : Identifier) (db : Database) :
    Except ApplicationError (DeleteRequest × Identifier × Timestamp × Timestamp) :=
  ((prepareDeletion config runtime lineageId).run db).1

/-- The first access of a call reads the targets; the rest of its preparation reads nothing. -/
theorem prepareDeletion_eq (config : LocalLibraryConfig) (runtime : DeletionRuntime)
    (lineageId : Identifier) : prepareDeletion config runtime lineageId =
      Program.read .other (plannedDeletion config runtime lineageId) := by
  rw [prepareDeletion]
  refine congrArg (Program.access AccessKind.other id) (funext fun db => ?_)
  refine Program.Settled.eq_done ?_ db
  refine Program.Settled.bind ⟨_, rfl⟩ fun targetRefs => ?_
  refine (Program.settled_ofExcept _).bind fun _ => ?_
  refine (Program.settled_ofExcept _).bind fun plannedComponents => ?_
  refine (Program.settled_ofExcept _).bind fun requestedAt => ?_
  refine (Program.settled_ofExcept _).bind fun startedAt => ?_
  refine (Program.settled_ofExcept _).bind fun finishedAt => ?_
  refine (Program.settled_ofExcept _).bind fun deleteRequestId => ?_
  refine (Program.settled_ofExcept _).bind fun deletionEvidenceId => ?_
  refine (Program.settled_ofExcept _).bind fun request => ?_
  exact Program.settled_pure _

/-- What a planned request was made from. -/
theorem plannedDeletion_eq_ok {config : LocalLibraryConfig} {runtime : DeletionRuntime}
    {planned : DeleteRequest × Identifier × Timestamp × Timestamp}
    (h : plannedDeletion config runtime lineageId db = .ok planned) :
    ∃ targets, resolveSourceLineageDeletionTargets db config.namespaceId lineageId = .ok targets ∧
      targets ≠ [] ∧ planned.1.params.targetRefs = targets := by
  simp only [plannedDeletion, prepareDeletion, storageCall, canonicalCall, query,
    Program.run_bind_eq_ok_iff, Program.run_mapError, Program.run_read, Program.run_ofExcept,
    Program.run_pure, Except.mapError_eq_ok_iff, Except.exists_unit_iff, require_eq_ok_iff,
    LocalLibraryConfig.request, DeleteRequest.new, Checked.new_eq_ok_iff, Except.ok.injEq] at h
  obtain ⟨targets, hresolve, hsome, _, -, _, -, _, -, _, -, _, -, _, -, request, hparams, rfl⟩ := h
  refine ⟨targets, hresolve, hsome, ?_⟩
  rw [hparams]

/-- The call as its accesses: the read of the targets, the commit of the request and the rest. -/
theorem deleteSourceLineage_eq (config : LocalLibraryConfig) (runtime : DeletionRuntime)
    (faulty : DeletionComponentType → Bool) (lineageId : Identifier) :
    deleteSourceLineage config runtime faulty lineageId =
      .access .other id fun db => match plannedDeletion config runtime lineageId db with
        | .error e => .done (.error e)
        | .ok (request, deletionEvidenceId, startedAt, finishedAt) =>
          .access .other (fun db => committed db (storeDeleteRequest db request)) fun db =>
            match storeDeleteRequest db request with
            | .error e => .done (.error (.storage e))
            | .ok _ => finishDeletion config request.params.deleteRequestId deletionEvidenceId
                startedAt finishedAt faulty := by
  rw [deleteSourceLineage, prepareDeletion_eq]
  refine congrArg (Program.access AccessKind.other id) (funext fun db => ?_)
  change Program.bind (.done (plannedDeletion config runtime lineageId db)) _ = _
  cases plannedDeletion config runtime lineageId db with
  | error e => rfl
  | ok planned =>
    obtain ⟨request, deletionEvidenceId, startedAt, finishedAt⟩ := planned
    have hcommit : Program.commit (fun db => storeDeleteRequest db request >>= fun db =>
        (pure ((), db) : Except SqliteError (Unit × Database))) =
        fun db => committed db (storeDeleteRequest db request) := by
      funext db
      unfold Program.commit committed
      dsimp only
      cases storeDeleteRequest db request with
      | error e => rfl
      | ok stored => rfl
    change Program.access _ (Program.commit _) _ = Program.access _ _ _
    rw [hcommit]
    refine congrArg (Program.access AccessKind.other _) (funext fun db => ?_)
    change Program.bind (.done (((Prod.fst <$> (storeDeleteRequest db request >>= _)) :
      Except SqliteError Unit).mapError _)) _ = _
    cases storeDeleteRequest db request with
    | error e => rfl
    | ok stored => rfl

/-! ## Calls that fail -/

/-- The library is in order and the lineage is closed. -/
structure Unresolvable (namespaceId lineageId : Identifier) (db : Database) : Prop where
  library : LibraryInvariant db
  closed : LineageClosed db namespaceId lineageId

theorem Unresolvable.step (h : Unresolvable namespaceId lineageId db) {c : Change}
    (happlies : c.Applies db db') : Unresolvable namespaceId lineageId db' :=
  ⟨h.library.step happlies, h.closed.step h.library.constraints happlies⟩

theorem Unresolvable.reaches {op : Op} {start : Database} (h : Unresolvable namespaceId lineageId db)
    (hreaches : Reaches op start db db') : Unresolvable namespaceId lineageId db' := by
  induction hreaches with
  | refl => exact h
  | tail _ hlast ih =>
    obtain ⟨c, -, happlies⟩ := hlast
    exact ih.step happlies

/-- However the rest of the call ends, the lineage stays closed. -/
theorem Unresolvable.finishDeletion (h : Unresolvable namespaceId lineageId db)
    (config : LocalLibraryConfig) (deleteRequestId deletionEvidenceId : Identifier)
    (startedAt finishedAt : Timestamp) (faulty : DeletionComponentType → Bool) :
    (finishDeletion config deleteRequestId deletionEvidenceId startedAt finishedAt faulty).Safe
      (Unresolvable namespaceId lineageId) (fun _ after => Unresolvable namespaceId lineageId after)
      db := by
  have hexecuted : (executeDeletion config.namespaceId deleteRequestId (config.execution startedAt)
      faulty).Safe (Reaches (.executeDeletion config.namespaceId deleteRequestId
        (config.execution startedAt) faulty none) db db)
      (Executed (.executeDeletion config.namespaceId deleteRequestId (config.execution startedAt)
        faulty none) db config.namespaceId deleteRequestId) db :=
    executeDeletion_executed h.library.constraints.resultAttempts
  refine Program.safe_bind (hexecuted.mapError (fun _ hreached => h.reaches hreached) ?_)
  intro result after hafter
  have hclosed := h.reaches hafter.reached
  cases result with
  | error e => exact hclosed
  | ok results =>
    refine Program.safe_bind (Program.safe_ofExcept ?_)
    cases config.evidence deletionEvidenceId deleteRequestId startedAt finishedAt results with
    | error e => exact hclosed
    | ok evidence =>
      have hwrite : (storeDeletionEvidence evidence).Safe (Unresolvable namespaceId lineageId)
          (fun _ after => Unresolvable namespaceId lineageId after) after := by
        refine storeDeletionEvidence_safe hclosed (fun _ => hclosed) fun latest final hchecked hrow => ?_
        have hfinal := hclosed.step (c := .evidence evidence latest) ⟨hchecked, hrow⟩
        exact ⟨hfinal, hfinal⟩
      refine Program.safe_bind (hwrite.mapError (fun _ hs => hs) fun written final hfinal => ?_)
      cases written with
      | error e => exact hfinal
      | ok u => exact Program.safe_pure hfinal

/-- The answers of a clock that runs forward. -/
def DeletionRuntime.Monotone (runtime : DeletionRuntime) : Prop :=
  ∃ requestedAt startedAt finishedAt, runtime.requestedAt = some requestedAt ∧
    runtime.startedAt = some startedAt ∧ runtime.finishedAt = some finishedAt ∧
    ¬ startedAt < requestedAt ∧ ¬ finishedAt < startedAt

/-- A call without faults and with a clock that runs forward ends with stored evidence that the
deletion of the lineage is complete. -/
def CanFinish (config : LocalLibraryConfig) (lineageId : Identifier) (db : Database) : Prop :=
  ∃ runtime evidence db', runtime.Monotone ∧
    (deleteSourceLineage config runtime (fun _ => false) lineageId).run db = (.ok evidence, db') ∧
    evidence.params.overallStatus = .completed ∧
    ∃ e ∈ db'.evidence, e.deletionEvidenceId = evidence.params.deletionEvidenceId

theorem Unresolvable.cannot_finish {config : LocalLibraryConfig}
    (h : Unresolvable config.namespaceId lineageId db) : ¬ CanFinish config lineageId db := by
  rintro ⟨runtime, evidence, db', -, hrun, -⟩
  rw [deleteSourceLineage_eq, Program.run] at hrun
  cases hplanned : plannedDeletion config runtime lineageId db with
  | error e =>
    rw [hplanned] at hrun
    cases hrun
  | ok planned =>
    obtain ⟨targets, hresolve, hsome, -⟩ := plannedDeletion_eq_ok hplanned
    exact hsome (h.closed.no_targets h.library hresolve)

/-- The call gets to its first commit: the request that it plans is stored. -/
def RequestCommits (config : LocalLibraryConfig) (runtime : DeletionRuntime)
    (lineageId : Identifier) (breaksAfter : Option Nat) (db : Database) : Prop :=
  (∀ n, breaksAfter = some n → 2 ≤ n) ∧ ∃ planned stored,
    plannedDeletion config runtime lineageId db = .ok planned ∧
      storeDeleteRequest db planned.1 = .ok stored

/-- A call that does not get to its first commit changes nothing. -/
theorem deleteSourceLineage_unchanged {config : LocalLibraryConfig} {runtime : DeletionRuntime}
    {faulty : DeletionComponentType → Bool} {breaksAfter : Option Nat} {fault : ApplicationError}
    {result : Except ApplicationError DeletionEvidence}
    (hrun : (deleteSourceLineage config runtime faulty lineageId).runWith fault breaksAfter db =
      (result, db')) (hnot : ¬ RequestCommits config runtime lineageId breaksAfter db) :
    db' = db := by
  rw [deleteSourceLineage_eq, Program.runWith_access] at hrun
  by_cases hfirst : breaksAfter = some 0
  · rw [if_pos hfirst] at hrun
    exact (congrArg Prod.snd hrun).symm
  rw [if_neg hfirst] at hrun
  dsimp only [id] at hrun
  cases hplanned : plannedDeletion config runtime lineageId db with
  | error e =>
    rw [hplanned] at hrun
    dsimp only at hrun
    rw [Program.runWith_done] at hrun
    exact (congrArg Prod.snd hrun).symm
  | ok planned =>
    rw [hplanned] at hrun
    dsimp only at hrun
    rw [Program.runWith_access] at hrun
    by_cases hsecond : breaksAfter.map (· - 1) = some 0
    · rw [if_pos hsecond] at hrun
      exact (congrArg Prod.snd hrun).symm
    rw [if_neg hsecond] at hrun
    cases hstored : storeDeleteRequest db planned.1 with
    | error e =>
      rw [hstored] at hrun
      dsimp only [committed] at hrun
      rw [Program.runWith_done] at hrun
      exact (congrArg Prod.snd hrun).symm
    | ok stored =>
      refine absurd ⟨fun n hn => ?_, planned, stored, hplanned, hstored⟩ hnot
      rw [hn, Option.some.injEq] at hfirst
      rw [hn, Option.map_some, Option.some.injEq] at hsecond
      omega

/-- A call that gets to its first commit leaves the lineage closed. -/
theorem deleteSourceLineage_unresolvable {config : LocalLibraryConfig} {runtime : DeletionRuntime}
    {faulty : DeletionComponentType → Bool} {breaksAfter : Option Nat} {fault : ApplicationError}
    {result : Except ApplicationError DeletionEvidence}
    {planned : DeleteRequest × Identifier × Timestamp × Timestamp} {stored : Database}
    (h : LibraryInvariant db) (hlate : ∀ n, breaksAfter = some n → 2 ≤ n)
    (hplanned : plannedDeletion config runtime lineageId db = .ok planned)
    (hstored : storeDeleteRequest db planned.1 = .ok stored)
    (hrun : (deleteSourceLineage config runtime faulty lineageId).runWith fault breaksAfter db =
      (result, db')) : Unresolvable config.namespaceId lineageId db' := by
  obtain ⟨targets, hresolve, hsome, hrefs⟩ := plannedDeletion_eq_ok hplanned
  obtain ⟨closure, hclosed⟩ := storeDeleteRequest_eq_ok hstored
  have happlies : (Change.request planned.1 closure).Applies db stored := hclosed
  have hstart : Unresolvable config.namespaceId lineageId stored :=
    ⟨h.step happlies, hclosed.lineageClosed h hrefs hresolve hsome⟩
  have hfirst : breaksAfter ≠ some 0 := fun heq => by
    have := hlate 0 heq
    omega
  have hsecond : breaksAfter.map (· - 1) ≠ some 0 := by
    intro heq
    obtain ⟨n, hn, hzero⟩ := Option.map_eq_some_iff.1 heq
    have := hlate n hn
    omega
  rw [deleteSourceLineage_eq, Program.runWith_access, if_neg hfirst] at hrun
  dsimp only [id] at hrun
  rw [hplanned] at hrun
  dsimp only at hrun
  rw [Program.runWith_access, if_neg hsecond, hstored] at hrun
  dsimp only [committed] at hrun
  have hend : (Program.runWith fault _ _ stored).2 = db' := congrArg Prod.snd hrun
  rw [← hend]
  exact (hstart.finishDeletion _ _ _ _ _ _).runWith hstart

/-- A call that changed the database cannot be made up for. -/
theorem cannot_finish_of_changed {config : LocalLibraryConfig} {runtime : DeletionRuntime}
    {faulty : DeletionComponentType → Bool} {breaksAfter : Option Nat} {fault : ApplicationError}
    {result : Except ApplicationError DeletionEvidence} (h : LibraryInvariant db)
    (hrun : (deleteSourceLineage config runtime faulty lineageId).runWith fault breaksAfter db =
      (result, db')) (hchanged : db' ≠ db) : ¬ CanFinish config lineageId db' := by
  by_cases hcommits : RequestCommits config runtime lineageId breaksAfter db
  · obtain ⟨hlate, planned, stored, hplanned, hstored⟩ := hcommits
    exact (deleteSourceLineage_unresolvable h hlate hplanned hstored hrun).cannot_finish
  · exact absurd (deleteSourceLineage_unchanged hrun hcommits) hchanged

/-- A call that fails leaves the database as it was, or leaves a deletion that can be finished,
exactly when it fails before its first commit. -/
theorem failed_deletion_can_be_finished_iff (ops : List Op) (config : LocalLibraryConfig)
    (runtime : DeletionRuntime) (faulty : DeletionComponentType → Bool) (lineageId : Identifier)
    (breaksAfter : Option Nat) (e : ApplicationError) (db' : Database)
    (hfailed : (deleteSourceLineage config runtime faulty lineageId).runWith
      (.storage storageError) breaksAfter (runOps .empty ops) = (.error e, db')) :
    (db' = runOps .empty ops ∨ CanFinish config lineageId db') ↔
      ¬ RequestCommits config runtime lineageId breaksAfter (runOps .empty ops) := by
  have hlibrary := libraryInvariant_of_run ops
  generalize runOps .empty ops = db at hlibrary hfailed ⊢
  have hunchanged : ¬ RequestCommits config runtime lineageId breaksAfter db → db' = db :=
    deleteSourceLineage_unchanged hfailed
  constructor
  · rintro hor ⟨hlate, planned, stored, hplanned, hstored⟩
    obtain ⟨targets, hresolve, hsome, hrefs⟩ := plannedDeletion_eq_ok hplanned
    have hstuck := deleteSourceLineage_unresolvable hlibrary hlate hplanned hstored hfailed
    rcases hor with rfl | hfinish
    · exact hsome (hstuck.closed.no_targets hstuck.library hresolve)
    · exact hstuck.cannot_finish hfinish
  · exact fun hnot => .inl (hunchanged hnot)

end Library

section Run

open Sample

/-- The deletion of the first file under a clock that runs backwards, and under a store that
breaks down before the first commit, evaluated. -/
theorem firstInterrupted_evaluated :
    ((deleteSourceLineage config backwardRuntime (fun _ => false) (identifier "lineage-1")).run
      (runOps .empty [captureFirst])).1.toOption.isNone = true ∧
    (((deleteSourceLineage config backwardRuntime (fun _ => false) (identifier "lineage-1")).run
      (runOps .empty [captureFirst])).2.requests.length = 1 ∧
      (runOps .empty [captureFirst]).requests = []) ∧
    ((deleteSourceLineage config backwardRuntime (fun _ => false)
      (identifier "lineage-1")).runWith (.storage storageError) (some 1)
      (runOps .empty [captureFirst])).1.toOption.isNone = true := by
  decide +kernel

/-- A run that failed. -/
theorem failed_of_evaluated {ε α : Type} {x : Except ε α × Database}
    (h : x.1.toOption.isNone = true) : ∃ e, x = (.error e, x.2) := by
  obtain ⟨result, after⟩ := x
  cases result with
  | error e => exact ⟨e, rfl⟩
  | ok a => cases h

/-- A store that breaks down before the first commit leaves the first file as it was. -/
theorem failed_deletion_can_be_finished_of_one_file :
    ∃ e db', (deleteSourceLineage config backwardRuntime (fun _ => false)
        (identifier "lineage-1")).runWith (.storage storageError) (some 1)
        (runOps .empty [captureFirst]) = (.error e, db') ∧
      (db' = runOps .empty [captureFirst] ∨ CanFinish config (identifier "lineage-1") db') := by
  obtain ⟨-, -, hfailed⟩ := firstInterrupted_evaluated
  obtain ⟨e, hrun⟩ := failed_of_evaluated hfailed
  refine ⟨e, _, hrun, (failed_deletion_can_be_finished_iff [captureFirst] config backwardRuntime
    (fun _ => false) (identifier "lineage-1") (some 1) e _ hrun).2 ?_⟩
  rintro ⟨hlate, -⟩
  exact absurd (hlate 1 rfl) (by decide)

/-- The clock goes back after the request for the first file is stored: the call fails, the
request stays behind, and no later call gets to it. -/
theorem interrupted_deletion_is_stuck :
    ∃ e db', (deleteSourceLineage config backwardRuntime (fun _ => false)
        (identifier "lineage-1")).runWith (.storage storageError) none
        (runOps .empty [captureFirst]) = (.error e, db') ∧
      ¬ (db' = runOps .empty [captureFirst] ∨ CanFinish config (identifier "lineage-1") db') := by
  obtain ⟨hfailed, ⟨hone, hnone⟩, -⟩ := firstInterrupted_evaluated
  obtain ⟨e, hrun⟩ := failed_of_evaluated hfailed
  rw [← Program.runWith_none (.storage storageError)] at hrun hone
  have hchanged : ((deleteSourceLineage config backwardRuntime (fun _ => false)
      (identifier "lineage-1")).runWith (.storage storageError) none
      (runOps .empty [captureFirst])).2 ≠ runOps .empty [captureFirst] := by
    intro hsame
    rw [hsame, hnone] at hone
    cases hone
  refine ⟨e, _, hrun, ?_⟩
  rw [not_or]
  exact ⟨hchanged, cannot_finish_of_changed (libraryInvariant_of_run _) hrun hchanged⟩

end Run

end RadishMemory
