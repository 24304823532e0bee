import RadishMemory.Construction.Sqlite.RecordClosure
import RadishMemory.Properties.MemoryProtocol
import RadishMemory.Construction.Samples
import Mathlib.Logic.Relation

/-!
# Reading a record closure ends

A call that goes on to the superseded records has put its own record in the set, and that record
was not there before.  So the active records outside the set become fewer with every level, and the
calls nest no deeper than there are records.  Every call leaves the set as it found it.  A read that
succeeds has read every record below it on a path of distinct records, so none of them lies on a
cycle.
-/

namespace RadishMemory

open Visiting

variable {db : Database} {namespaceId : Identifier}

/-! ## The records that are not being visited -/

/-- The ids of the stored records. -/
def recordIds (db : Database) : Finset Identifier :=
  (db.records.map RecordRow.memoryId).toFinset

/-- How many stored records are not in the set. -/
def unvisited (db : Database) (visiting : Finset Identifier) : Nat :=
  (recordIds db \ visiting).card

theorem unvisited_le (db : Database) (visiting : Finset Identifier) :
    unvisited db visiting ≤ db.records.length := by
  have hcard := (db.records.map RecordRow.memoryId).toFinset_card_le
  rw [List.length_map] at hcard
  exact (Finset.card_le_card Finset.sdiff_subset).trans hcard

theorem unvisited_insert {memoryId : Identifier} {row : RecordRow}
    {visiting : Finset Identifier} (hrow : activeRecordRow db namespaceId memoryId = some row)
    (hnew : memoryId ∉ visiting) :
    unvisited db (insert memoryId visiting) < unvisited db visiting := by
  have hstored : memoryId ∈ recordIds db := by
    obtain ⟨hlookup, -⟩ := activeRecordRow_eq_some_iff.1 hrow
    have hmem := List.mem_map_of_mem (f := RecordRow.memoryId) (lookup_mem hlookup)
    rw [lookup_key hlookup] at hmem
    exact List.mem_toFinset.2 hmem
  apply Finset.card_lt_card
  rw [Finset.sdiff_insert]
  exact Finset.erase_ssubset (Finset.mem_sdiff.2 ⟨hstored, hnew⟩)

section Reading

variable [Platform] {loadSource : SourceLoader}

/-! ## Every call ends and leaves the set as it was -/

/-- What a call settles on, given what the calls for the superseded records settle on. -/
def closureResult (loadSource : SourceLoader) (db : Database) (namespaceId : Identifier)
    (inner : Identifier → Except SqliteError (Option RecordClosure)) (row : RecordRow) :
    Except SqliteError RecordClosure := do
  let loaded ← loadRecordBase loadSource db namespaceId row
  if loaded.proposal.params.operation = .supersede then
    let targets ← loaded.record.params.supersedesMemoryIds.mapM fun targetId => do
      let closure ← inner targetId
      let (target, targetEvents) ← closure.orError storedMismatch
      let event ← (closingEvent loaded.record target targetEvents).orError storedMismatch
      return ({ record := target, supersededEvent := event } : SupersededTarget)
    (validateMemorySupersession loaded.proposal loaded.record targets).mapError
      fun _ => storedMismatch
    return (loaded.record, loaded.events)
  else return (loaded.record, loaded.events)

theorem settles_closureOfRow {loadTarget : Identifier → RecordReader (Option RecordClosure)}
    {inner : Identifier → Except SqliteError (Option RecordClosure)} {row : RecordRow}
    {visiting : Finset Identifier}
    (h : ∀ targetId, Settles (loadTarget targetId) visiting (inner targetId)) :
    Settles (RecordReader.closureOfRow loadSource db namespaceId loadTarget row) visiting
      (closureResult loadSource db namespaceId inner row) := by
  unfold RecordReader.closureOfRow closureResult
  refine (settles_settled _).bind fun loaded _ => ?_
  split
  · refine Settles.bind (Settles.mapM fun targetId _ => ?_) fun targets _ => ?_
    · refine (h targetId).bind fun closure _ => (settles_settled _).bind fun found _ => ?_
      exact (settles_settled _).bind fun event _ => settles_pure _
    · exact (settles_settled _).bind fun _ _ => settles_pure _
  · exact settles_pure _

theorem loadMemoryRecordClosureInner_of_row {bound : Nat} {memoryId : Identifier}
    {visiting : List Identifier} {row : RecordRow}
    (hrow : activeRecordRow db namespaceId memoryId = some row) (hnew : memoryId ∉ visiting) :
    loadMemoryRecordClosureInner loadSource db namespaceId (bound + 1) memoryId visiting =
      (closureResult loadSource db namespaceId (fun targetId =>
        loadMemoryRecordClosureInner loadSource db namespaceId bound targetId
          (memoryId :: visiting)) row).map some := by
  rw [loadMemoryRecordClosureInner, hrow]
  dsimp only
  rw [require_of hnew, Except.ok_bind]
  unfold closureResult
  cases loadRecordBase loadSource db namespaceId row with
  | error e => rfl
  | ok loaded =>
    rw [Except.ok_bind, Except.ok_bind]
    split
    · generalize (loaded.record.params.supersedesMemoryIds.mapM _ :
        Except SqliteError (List SupersededTarget)) = targets
      cases targets with
      | error e => rfl
      | ok targets =>
        rw [Except.ok_bind, Except.ok_bind]
        cases validateMemorySupersession loaded.proposal loaded.record targets with
        | error e => rfl
        | ok checked => rfl
    · rfl

theorem loadMemoryRecordClosureInner_of_visiting {bound : Nat} {memoryId : Identifier}
    {visiting : List Identifier} {row : RecordRow}
    (hrow : activeRecordRow db namespaceId memoryId = some row) (hmem : memoryId ∈ visiting) :
    loadMemoryRecordClosureInner loadSource db namespaceId (bound + 1) memoryId visiting =
      .error storedMismatch := by
  rw [loadMemoryRecordClosureInner, hrow]
  dsimp only
  rw [require_of_not (not_not_intro hmem), Except.error_bind]

/-- One call settles on what the reader without a set returns, if the calls below it do. -/
theorem settles_closureCall {loadTarget : Identifier → RecordReader (Option RecordClosure)}
    {bound : Nat} {memoryId : Identifier} {visiting : List Identifier}
    (h : ∀ row, activeRecordRow db namespaceId memoryId = some row → memoryId ∉ visiting →
      ∀ targetId, Settles (loadTarget targetId) (memoryId :: visiting).toFinset
        (loadMemoryRecordClosureInner loadSource db namespaceId bound targetId
          (memoryId :: visiting))) :
    Settles (RecordReader.closureCall loadSource db namespaceId loadTarget memoryId)
      visiting.toFinset
      (loadMemoryRecordClosureInner loadSource db namespaceId (bound + 1) memoryId visiting) := by
  unfold RecordReader.closureCall
  cases hrow : activeRecordRow db namespaceId memoryId with
  | none =>
    rw [loadMemoryRecordClosureInner, hrow]
    exact settles_pure none
  | some row =>
    by_cases hmem : memoryId ∈ visiting
    · rw [loadMemoryRecordClosureInner_of_visiting hrow hmem]
      exact settles_again (List.mem_toFinset.2 hmem)
    · rw [loadMemoryRecordClosureInner_of_row hrow hmem]
      have hbody : Settles (RecordReader.closureOfRow loadSource db namespaceId loadTarget row)
          (memoryId :: visiting).toFinset _ := settles_closureOfRow (h row hrow hmem)
      rw [List.toFinset_cons] at hbody
      exact settles_entered (fun hin => hmem (List.mem_toFinset.1 hin)) hbody

/-- A call settles on what the reader without a set returns, as soon as the depth allowed reaches
the number of records outside the set. -/
theorem settles_closure {depth : Nat} {memoryId : Identifier} {visiting : List Identifier}
    (hdepth : unvisited db visiting.toFinset ≤ depth) :
    Settles (RecordReader.loadMemoryRecordClosureInner loadSource db namespaceId depth memoryId)
      visiting.toFinset
      (loadMemoryRecordClosureInner loadSource db namespaceId (depth + 1) memoryId visiting) := by
  induction depth generalizing memoryId visiting with
  | zero =>
    refine settles_closureCall fun row hrow hnew targetId => ?_
    have hless := unvisited_insert hrow (mt List.mem_toFinset.1 hnew)
    omega
  | succ depth ih =>
    refine settles_closureCall fun row hrow hnew targetId => ih ?_
    have hless := unvisited_insert hrow (mt List.mem_toFinset.1 hnew)
    rw [List.toFinset_cons]
    omega

theorem closure_congr {bound other : Nat} {memoryId : Identifier} {visiting : List Identifier}
    (h : ∀ row, activeRecordRow db namespaceId memoryId = some row → memoryId ∉ visiting →
      ∀ targetId,
        loadMemoryRecordClosureInner loadSource db namespaceId bound targetId
          (memoryId :: visiting) =
        loadMemoryRecordClosureInner loadSource db namespaceId other targetId
          (memoryId :: visiting)) :
    loadMemoryRecordClosureInner loadSource db namespaceId (bound + 1) memoryId visiting =
      loadMemoryRecordClosureInner loadSource db namespaceId (other + 1) memoryId visiting := by
  cases hrow : activeRecordRow db namespaceId memoryId with
  | none =>
    rw [loadMemoryRecordClosureInner, loadMemoryRecordClosureInner, hrow]
  | some row =>
    by_cases hmem : memoryId ∈ visiting
    · rw [loadMemoryRecordClosureInner_of_visiting hrow hmem,
        loadMemoryRecordClosureInner_of_visiting hrow hmem]
    · rw [loadMemoryRecordClosureInner_of_row hrow hmem,
        loadMemoryRecordClosureInner_of_row hrow hmem, funext (h row hrow hmem)]

/-- Once the depth allowed is enough, more depth changes nothing. -/
theorem closure_stable {depth more : Nat} {memoryId : Identifier} {visiting : List Identifier}
    (hdepth : unvisited db visiting.toFinset ≤ depth)
    (hmore : unvisited db visiting.toFinset ≤ more) :
    loadMemoryRecordClosureInner loadSource db namespaceId (depth + 1) memoryId visiting =
      loadMemoryRecordClosureInner loadSource db namespaceId (more + 1) memoryId visiting := by
  induction depth generalizing more memoryId visiting with
  | zero =>
    refine closure_congr fun row hrow hnew => ?_
    have hless := unvisited_insert hrow (mt List.mem_toFinset.1 hnew)
    omega
  | succ depth ih =>
    refine closure_congr fun row hrow hnew targetId => ?_
    have hless := unvisited_insert hrow (mt List.mem_toFinset.1 hnew)
    cases more with
    | zero => omega
    | succ more =>
      rw [← List.toFinset_cons] at hless
      exact ih (by omega) (by omega)

/-! ## Cycles -/

/-- Reading the one record goes on to the other: the one is active and validates, and it superseded
the other. -/
def ReadsOn (loadSource : SourceLoader) (db : Database)
    (namespaceId memoryId targetId : Identifier) : Prop :=
  ∃ row loaded, activeRecordRow db namespaceId memoryId = some row ∧
    loadRecordBase loadSource db namespaceId row = .ok loaded ∧
    targetId ∈ loaded.record.params.supersedesMemoryIds

theorem ReadsOn.of_any {memoryId targetId : Identifier}
    (h : ((activeRecordRow db namespaceId memoryId).bind fun row =>
      (loadRecordBase loadSource db namespaceId row).toOption).any (fun loaded =>
        decide (targetId ∈ loaded.record.params.supersedesMemoryIds)) = true) :
    ReadsOn loadSource db namespaceId memoryId targetId := by
  simp only [Option.any_eq_true, Option.bind_eq_some_iff, decide_eq_true_eq] at h
  obtain ⟨loaded, ⟨row, hrow, hbase⟩, hmem⟩ := h
  exact ⟨row, loaded, hrow, Except.ok_of_toOption hbase, hmem⟩

/-- A record that superseded others came from a proposal to supersede. -/
theorem operation_of_supersedes {row : RecordRow} {loaded : LoadedRecord} {targetId : Identifier}
    (hbase : loadRecordBase loadSource db namespaceId row = .ok loaded)
    (hmem : targetId ∈ loaded.record.params.supersedesMemoryIds) :
    loaded.proposal.params.operation = .supersede := by
  obtain ⟨root, tip, decision, initial, hread⟩ := loadRecordBase_eq_ok hbase
  have hset := (validateMemoryMaterialization_eq_ok hread.materialized).targets
  simp only [sameIdentifierSet, Bool.and_eq_true, List.all_eq_true, decide_eq_true_eq] at hset
  rw [hread.projected] at hmem
  have htarget := hset.1 targetId hmem
  cases hoperation : loaded.proposal.params.operation with
  | supersede => rfl
  | create =>
    have hvalid := loaded.proposal.valid
    simp only [MemoryProposalParams.check, Except.bind_eq_ok_iff, Except.exists_unit_iff,
      require_eq_ok_iff, targetsAreValid, hoperation, List.isEmpty_iff] at hvalid
    rw [hvalid.2.2.2] at htarget
    cases htarget

/-- A call that settles on a record has one from every record it goes on to. -/
theorem closureResult_target {inner : Identifier → Except SqliteError (Option RecordClosure)}
    {row : RecordRow} {loaded : LoadedRecord} {closure : RecordClosure} {targetId : Identifier}
    (h : closureResult loadSource db namespaceId inner row = .ok closure)
    (hbase : loadRecordBase loadSource db namespaceId row = .ok loaded)
    (hmem : targetId ∈ loaded.record.params.supersedesMemoryIds) :
    ∃ target, inner targetId = .ok (some target) := by
  unfold closureResult at h
  rw [hbase, Except.ok_bind, if_pos (operation_of_supersedes hbase hmem)] at h
  simp only [Except.bind_eq_ok_iff, List.mapM_eq_ok_iff] at h
  obtain ⟨targets, htargets, -⟩ := h
  obtain ⟨_, -, htarget⟩ := List.Forall₂.exists_of_mem_left htargets hmem
  simp only [Option.orError_eq_ok_iff, Prod.exists] at htarget
  obtain ⟨_, hinner, _, _, rfl, -⟩ := htarget
  exact ⟨_, hinner⟩

/-- A read that succeeds has read every record it goes on to, with its own record in the set. -/
theorem closure_target {bound : Nat} {memoryId targetId : Identifier}
    {visiting : List Identifier} {closure : RecordClosure}
    (h : loadMemoryRecordClosureInner loadSource db namespaceId bound memoryId visiting =
      .ok (some closure))
    (htarget : ReadsOn loadSource db namespaceId memoryId targetId) :
    memoryId ∉ visiting ∧ ∃ inner target,
      loadMemoryRecordClosureInner loadSource db namespaceId inner targetId
        (memoryId :: visiting) = .ok (some target) := by
  obtain ⟨row, loaded, hrow, hbase, hmem⟩ := htarget
  cases bound with
  | zero => cases h
  | succ bound =>
    by_cases hin : memoryId ∈ visiting
    · rw [loadMemoryRecordClosureInner_of_visiting hrow hin] at h
      cases h
    · rw [loadMemoryRecordClosureInner_of_row hrow hin] at h
      cases hresult : closureResult loadSource db namespaceId (fun targetId =>
          loadMemoryRecordClosureInner loadSource db namespaceId bound targetId
            (memoryId :: visiting)) row with
      | error e =>
        rw [hresult] at h
        cases h
      | ok found =>
        exact ⟨hin, bound, closureResult_target hresult hbase hmem⟩

/-- Along a path from a record that a read succeeds for, every read succeeds, with the first record
in the set. -/
theorem closure_path {bound : Nat} {memoryId targetId : Identifier} {visiting : List Identifier}
    {closure : RecordClosure}
    (h : loadMemoryRecordClosureInner loadSource db namespaceId bound memoryId visiting =
      .ok (some closure))
    (hpath : Relation.TransGen (ReadsOn loadSource db namespaceId) memoryId targetId) :
    ∃ inner above target,
      loadMemoryRecordClosureInner loadSource db namespaceId inner targetId above =
        .ok (some target) ∧ memoryId ∈ above := by
  induction hpath with
  | single hstep =>
    obtain ⟨-, inner, target, htarget⟩ := closure_target h hstep
    exact ⟨inner, _, target, htarget, List.mem_cons_self⟩
  | tail _ hstep ih =>
    obtain ⟨_, above, _, hbefore, hmem⟩ := ih
    obtain ⟨-, inner, target, htarget⟩ := closure_target hbefore hstep
    exact ⟨inner, _, target, htarget, List.mem_cons_of_mem _ hmem⟩

/-- A cycle that reading the record comes to, through records that validate. -/
def CycleBelow (loadSource : SourceLoader) (db : Database) (namespaceId memoryId : Identifier) :
    Prop :=
  ∃ id, Relation.ReflTransGen (ReadsOn loadSource db namespaceId) memoryId id ∧
    Relation.TransGen (ReadsOn loadSource db namespaceId) id id

/-- The record itself goes on to some other. -/
theorem CycleBelow.readsOn {memoryId : Identifier}
    (h : CycleBelow loadSource db namespaceId memoryId) :
    ∃ targetId, ReadsOn loadSource db namespaceId memoryId targetId := by
  obtain ⟨id, hreach, hcycle⟩ := h
  have hpath := hcycle.trans_right hreach
  obtain ⟨targetId, hstep, -⟩ := Relation.TransGen.head'_iff.1 hpath
  exact ⟨targetId, hstep⟩

theorem CycleBelow.fails {bound : Nat} {memoryId : Identifier} {visiting : List Identifier}
    (h : CycleBelow loadSource db namespaceId memoryId) (closure : RecordClosure) :
    loadMemoryRecordClosureInner loadSource db namespaceId bound memoryId visiting ≠
      .ok (some closure) := by
  intro hread
  obtain ⟨id, hreach, hcycle⟩ := h
  have hreadId : ∃ inner above target,
      loadMemoryRecordClosureInner loadSource db namespaceId inner id above =
        .ok (some target) := by
    rcases Relation.reflTransGen_iff_eq_or_transGen.1 hreach with rfl | hpath
    · exact ⟨bound, visiting, closure, hread⟩
    · obtain ⟨inner, above, target, htarget, -⟩ := closure_path hread hpath
      exact ⟨inner, above, target, htarget⟩
  obtain ⟨_, _, _, hreadId⟩ := hreadId
  -- Once around the cycle the read is back at a record that is in the set already.
  obtain ⟨inner, above, target, hagain, hmem⟩ := closure_path hreadId hcycle
  obtain ⟨next, hstep, -⟩ := Relation.TransGen.head'_iff.1 hcycle
  exact (closure_target hagain hstep).1 hmem

theorem CycleBelow.error {memoryId : Identifier}
    (h : CycleBelow loadSource db namespaceId memoryId) (bound : Nat)
    (visiting : List Identifier) :
    ∃ e, loadMemoryRecordClosureInner loadSource db namespaceId (bound + 1) memoryId visiting =
      .error e := by
  obtain ⟨_, row, _, hrow, -⟩ := h.readsOn
  cases hresult : loadMemoryRecordClosureInner loadSource db namespaceId (bound + 1) memoryId
      visiting with
  | error e => exact ⟨e, rfl⟩
  | ok found =>
    cases found with
    | some closure => exact absurd hresult (h.fails closure)
    | none =>
      by_cases hmem : memoryId ∈ visiting
      · rw [loadMemoryRecordClosureInner_of_visiting hrow hmem] at hresult
        cases hresult
      · rw [loadMemoryRecordClosureInner_of_row hrow hmem] at hresult
        cases hclosure : closureResult loadSource db namespaceId (fun targetId =>
            loadMemoryRecordClosureInner loadSource db namespaceId bound targetId
              (memoryId :: visiting)) row with
        | error e =>
          rw [hclosure] at hresult
          cases hresult
        | ok closure =>
          rw [hclosure] at hresult
          cases hresult

/-! ## The code's read -/

/-- What holds of the call for a record with a set of records being visited. -/
structure ClosureReading (loadSource : SourceLoader) (db : Database)
    (namespaceId memoryId : Identifier) (visiting : Finset Identifier) : Prop where
  /-- No call is deeper than the number of stored records, and the set is left as it was. -/
  ends : ∃ result, (RecordReader.loadMemoryRecordClosureInner loadSource db namespaceId
    db.records.length memoryId).run.run visiting = some (result, visiting)
  /-- A call without a limit does the same. -/
  unlimited : ∀ depth, db.records.length ≤ depth →
    (RecordReader.loadMemoryRecordClosureInner loadSource db namespaceId depth
      memoryId).run.run visiting =
    (RecordReader.loadMemoryRecordClosureInner loadSource db namespaceId db.records.length
      memoryId).run.run visiting
  cyclic : CycleBelow loadSource db namespaceId memoryId →
    ∃ e, (RecordReader.loadMemoryRecordClosureInner loadSource db namespaceId
      db.records.length memoryId).run.run visiting = some (.error e, visiting)

/-- Whatever the tables hold, reading a record closure ends: at most as deep as there are records,
with the set as it was, and with an error where it comes to a cycle. -/
theorem record_closure_reading_ends (loadSource : SourceLoader) (db : Database)
    (namespaceId memoryId : Identifier) (visiting : Finset Identifier) :
    ClosureReading loadSource db namespaceId memoryId visiting := by
  obtain ⟨listed, rfl⟩ : ∃ l : List Identifier, l.toFinset = visiting :=
    ⟨visiting.toList, Finset.toList_toFinset visiting⟩
  have hunvisited := unvisited_le db listed.toFinset
  have hsettles := fun depth (h : db.records.length ≤ depth) =>
    (settles_closure (hunvisited.trans h) :
      Settles (RecordReader.loadMemoryRecordClosureInner loadSource db namespaceId depth memoryId)
        listed.toFinset _)
  refine ⟨⟨_, hsettles _ (Nat.le_refl _)⟩, fun depth hdepth => ?_, fun hcycle => ?_⟩
  · refine (hsettles depth hdepth).trans ?_
    rw [closure_stable (hunvisited.trans hdepth) hunvisited]
    exact (hsettles _ (Nat.le_refl _)).symm
  · obtain ⟨e, herror⟩ := hcycle.error (db.records.length) listed
    exact ⟨e, (hsettles _ (Nat.le_refl _)).trans (by rw [herror])⟩

end Reading

/-! ## Two records that superseded each other -/

section Knot

open Sample

namespace Sample

/-- The two records. -/
def knotted : List Identifier :=
  [identifier "knot-1", identifier "knot-2"]

def knotProposal (memoryId targetId : Identifier) : MemoryProposalParams :=
  proposalParams memoryId packRecord.params.sourceFragmentRefs [targetId] fromStart

def knotRecord (memoryId targetId : Identifier) : MemoryRecordParams :=
  recordParams memoryId memoryId ⟨2, by decide⟩ memoryId memoryId memoryId
    packRecord.params.sourceFragmentRefs [targetId] fromStart

/-- A library with two records, each of which is the target of the other.  The proposal, the
decision and the event of a record have its id. -/
def knot : Database :=
  let pairs := knotted.zip knotted.reverse
  let cites := knotted.flatMap fun id => packRecord.params.sourceFragmentRefs.map fun fragmentId =>
    { owner := id, ordinal := 0, value := fragmentId }
  let links := pairs.map fun pair => { owner := pair.1, ordinal := 0, value := pair.2 }
  { runOps .empty [captureFirst] with
    proposals := pairs.map fun pair => .ofProposal (knotProposal pair.1 pair.2)
    proposalFragments := cites
    proposalTargets := links
    decisions := knotted.map fun id => (accept id id id).params
    records := pairs.map fun pair => .ofRecord (knotRecord pair.1 pair.2)
    recordFragments := cites
    recordSupersedes := links
    events := knotted.map fun id => .ofEvent (confirmed id id id).params }

end Sample

example : ∃ memoryId, CycleBelow loadSourceArtifact knot Sample.namespaceId memoryId := by
  have hto : ReadsOn loadSourceArtifact knot Sample.namespaceId (identifier "knot-1")
      (identifier "knot-2") := .of_any (by decide +kernel)
  have hback : ReadsOn loadSourceArtifact knot Sample.namespaceId (identifier "knot-2")
      (identifier "knot-1") := .of_any (by decide +kernel)
  exact ⟨_, _, .refl, .tail (.single hto) hback⟩

end Knot

end RadishMemory
