import RadishMemory.Construction.Sqlite.DeletionStore

/-!
# Runs of the plaintext library

The operations of the plaintext store, and what a sequence of them does to the database.  An
operation that fails rolls its transaction back; only an execution and an evidence write consist
of several commits, and a storage breakdown can cut them short.

`Along` says that every operation of a run meets a condition in the state it is applied to.
-/

namespace RadishMemory

variable [Platform]

/-- An operation on the library, with the faults it meets. -/
inductive Op where
  | captureSource (capture : SourceCapture)
  | storeSourceArtifact (source : SourceArtifact)
  | storeSourceFragments (fragments : List SourceFragment)
  | storeMemoryProposal (proposal : MemoryProposal)
  | storeMemoryDecision (decision : MemoryDecision)
  | materializeAcceptedMemory (record : MemoryRecord) (initialEvent : MemoryStateEvent)
      (supersededEvents : List MemoryStateEvent)
  | appendMemoryStateEvent (event : MemoryStateEvent)
  | rebuildRecallDerivations
  | storeDeleteRequest (request : DeleteRequest)
  | executeDeletion (namespaceId deleteRequestId : Identifier)
      (execution : LocalDeletionExecution) (faulty : DeletionComponentType → Bool)
      (breaksAfter : Option Nat)
  | storeDeletionEvidence (evidence : DeletionEvidence) (breaksAfter : Option Nat)

/-- The database a transaction leaves: its result, or what was there when it failed. -/
def committed (db : Database) (result : Except SqliteError Database) : Database :=
  match result with
  | .ok db' => db'
  | .error _ => db

def Op.apply (db : Database) : Op → Database
  | .captureSource capture => committed db (Prod.fst <$> RadishMemory.captureSource db capture)
  | .storeSourceArtifact source => committed db (RadishMemory.storeSourceArtifact db source)
  | .storeSourceFragments fragments =>
    committed db (RadishMemory.storeSourceFragments db fragments)
  | .storeMemoryProposal proposal =>
    committed db (RadishMemory.storeMemoryProposal db proposal)
  | .storeMemoryDecision decision =>
    committed db (RadishMemory.storeMemoryDecision db decision)
  | .materializeAcceptedMemory record initialEvent supersededEvents =>
    committed db
      (RadishMemory.materializeAcceptedMemory db record initialEvent supersededEvents)
  | .appendMemoryStateEvent event => committed db (RadishMemory.appendMemoryStateEvent db event)
  | .rebuildRecallDerivations => committed db (RadishMemory.rebuildRecallDerivations db)
  | .storeDeleteRequest request => committed db (RadishMemory.storeDeleteRequest db request)
  | .executeDeletion namespaceId deleteRequestId execution faulty breaksAfter =>
    ((RadishMemory.executeDeletion namespaceId deleteRequestId execution faulty).runWith
      storageError breaksAfter db).2
  | .storeDeletionEvidence evidence breaksAfter =>
    ((RadishMemory.storeDeletionEvidence evidence).runWith storageError breaksAfter db).2

theorem Op.apply_storeDeletionEvidence (db : Database) (evidence : DeletionEvidence) :
    Op.apply db (.storeDeletionEvidence evidence none) =
      ((RadishMemory.storeDeletionEvidence evidence).run db).2 := rfl

/-- The database after a sequence of operations. -/
def runOps (db : Database) (ops : List Op) : Database :=
  ops.foldl Op.apply db

/-- Every operation of the sequence meets the condition in the state it is applied to. -/
def Along (cond : Database → Op → Prop) : Database → List Op → Prop
  | _, [] => True
  | db, op :: rest => cond db op ∧ Along cond (op.apply db) rest

instance Along.decidable {cond : Database → Op → Prop} [∀ db op, Decidable (cond db op)] :
    ∀ (db : Database) (ops : List Op), Decidable (Along cond db ops)
  | _, [] => .isTrue trivial
  | db, op :: rest =>
    haveI : Decidable (Along cond (op.apply db) rest) := Along.decidable (op.apply db) rest
    inferInstanceAs (Decidable (cond db op ∧ Along cond (op.apply db) rest))

@[simp] theorem runOps_nil (db : Database) : runOps db [] = db := rfl

@[simp] theorem runOps_cons (db : Database) (op : Op) (ops : List Op) :
    runOps db (op :: ops) = runOps (op.apply db) ops := rfl

theorem runOps_append (db : Database) (ops ops' : List Op) :
    runOps db (ops ++ ops') = runOps (runOps db ops) ops' :=
  List.foldl_append

/-- What every conforming operation preserves holds after every conforming run. -/
theorem runOps_preserves {cond : Database → Op → Prop} {P : Database → Prop}
    (hstep : ∀ db op, P db → cond db op → P (op.apply db)) {db : Database} {ops : List Op}
    (hP : P db) (hcond : Along cond db ops) : P (runOps db ops) := by
  induction ops generalizing db with
  | nil => exact hP
  | cons op rest ih => exact ih (hstep db op hP hcond.1) hcond.2

/-- What every operation preserves holds after every run. -/
theorem runOps_invariant {P : Database → Prop}
    (hstep : ∀ (db : Database) (op : Op), P db → P (op.apply db))
    {db : Database} (hP : P db) (ops : List Op) : P (runOps db ops) := by
  induction ops generalizing db with
  | nil => exact hP
  | cons op rest ih => exact ih (hstep db op hP)

theorem Along.append {cond : Database → Op → Prop} {db : Database} {ops ops' : List Op} :
    Along cond db (ops ++ ops') ↔ Along cond db ops ∧ Along cond (runOps db ops) ops' := by
  induction ops generalizing db with
  | nil => simp [Along]
  | cons op rest ih => simp [Along, ih, and_assoc]

theorem Along.mono {cond cond' : Database → Op → Prop} {db : Database} {ops : List Op}
    (h : Along cond db ops) (himp : ∀ db op, cond db op → cond' db op) : Along cond' db ops := by
  induction ops generalizing db with
  | nil => trivial
  | cons op rest ih => exact ⟨himp _ _ h.1, ih h.2⟩

/-- A condition on the operations alone. -/
theorem Along.of_forall {cond : Database → Op → Prop} {ops : List Op}
    (h : ∀ op ∈ ops, ∀ db, cond db op) (db : Database) : Along cond db ops := by
  induction ops generalizing db with
  | nil => trivial
  | cons op rest ih =>
    exact ⟨h op List.mem_cons_self db, ih (fun op hop => h op (List.mem_cons_of_mem _ hop)) _⟩

omit [Platform] in
/-- A transaction either leaves the database alone or commits its result. -/
theorem committed_cases {db : Database} {result : Except SqliteError Database}
    {P : Database → Prop} (hsame : P db) (hok : ∀ db', result = .ok db' → P db') :
    P (committed db result) := by
  cases h : result with
  | error e => exact hsame
  | ok db' => exact hok db' h

end RadishMemory
