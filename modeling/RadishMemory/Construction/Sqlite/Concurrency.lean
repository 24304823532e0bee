import RadishMemory.Construction.Sqlite.DeletionStore
import RadishMemory.Framework.Interleaving

/-!
# Two connections

Two connections execute delete requests and store evidence on one database.  A query outside a
transaction and a whole transaction are one access each; any access of the one connection may come
between two accesses of the other.
-/

namespace RadishMemory

inductive Connection where
  | first
  | second
deriving DecidableEq

/-- The database and what each connection is doing. -/
abbrev Connections :=
  Interleaving Connection AccessKind Database SqliteError

variable [Platform]

/-- A call whose result is dropped. -/
def discard {α : Type} (call : Call α) : Call PUnit := do
  let _ ← call
  return ⟨⟩

/-- The calls that a connection issues. -/
inductive DeletionCall : Call PUnit → Prop
  | executeDeletion (namespaceId deleteRequestId : Identifier)
      (execution : LocalDeletionExecution) (faulty : DeletionComponentType → Bool) :
      DeletionCall (discard (executeDeletion namespaceId deleteRequestId execution faulty))
  | storeDeletionEvidence (evidence : DeletionEvidence) :
      DeletionCall (discard (storeDeletionEvidence evidence))

/-- Both connections are open and idle. -/
def Connections.opened (db : Database) : Connections :=
  { store := db, running := fun _ => .done (.ok ⟨⟩) }

omit [Platform] in
/-- No evidence for a request is inserted while the other connection is between its read of the
latest attempt and its read of the chain tip for the same request, or is about to insert evidence
without a predecessor for it. -/
def Undisturbed (waiting acting : AccessKind) : Prop :=
  ∀ D previous, acting = .evidenceInsert D previous →
    waiting ≠ .evidenceRead D ∧ waiting ≠ .evidenceInsert D none

end RadishMemory
