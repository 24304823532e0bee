import RadishMemory.Construction.Sqlite.MemoryStore
import RadishMemory.Framework.Visiting

/-!
# Reading a record closure, with the set of records being visited

`loadMemoryRecordClosureInner` once more, with the set that the calls of the code share.  A call
takes its record out of the set again on its way out, after an error too.  The number says how many
calls may be open below a call; the code itself sets no such limit.
-/

namespace RadishMemory

open Visiting

variable [Platform]

/-- A reader of the memory tables over the ids of the records it is visiting. -/
abbrev RecordReader (α : Type) :=
  Visiting Identifier SqliteError α

namespace RecordReader

/-- What a call does between putting its record in the set and taking it out again. -/
def closureOfRow (loadSource : SourceLoader) (db : Database) (namespaceId : Identifier)
    (loadTarget : Identifier → RecordReader (Option RecordClosure)) (row : RecordRow) :
    RecordReader RecordClosure := do
  let loaded ← settled (loadRecordBase loadSource db namespaceId row)
  if loaded.proposal.params.operation = .supersede then
    let targets ← loaded.record.params.supersedesMemoryIds.mapM fun targetId => do
      let closure ← loadTarget targetId
      let (target, targetEvents) ← settled (closure.orError storedMismatch)
      let event ← settled <|
        (closingEvent loaded.record target targetEvents).orError storedMismatch
      return ({ record := target, supersededEvent := event } : SupersededTarget)
    settled <| (validateMemorySupersession loaded.proposal loaded.record targets).mapError
      fun _ => storedMismatch
    return (loaded.record, loaded.events)
  else return (loaded.record, loaded.events)

/-- One call.  `loadTarget` is the call for each record that this one superseded. -/
def closureCall (loadSource : SourceLoader) (db : Database) (namespaceId : Identifier)
    (loadTarget : Identifier → RecordReader (Option RecordClosure)) (memoryId : Identifier) :
    RecordReader (Option RecordClosure) :=
  match activeRecordRow db namespaceId memoryId with
  | none => return none
  | some row => do
    if ← enter memoryId then
      let result ← attempt (closureOfRow loadSource db namespaceId loadTarget row)
      leave memoryId
      settled (result.map some)
    else throw storedMismatch

/-- The outermost call is at depth 0, and no call may be deeper than the limit. -/
def loadMemoryRecordClosureInner (loadSource : SourceLoader) (db : Database)
    (namespaceId : Identifier) : Nat → Identifier → RecordReader (Option RecordClosure)
  | 0 => closureCall loadSource db namespaceId fun _ => tooDeep
  | depth + 1 => closureCall loadSource db namespaceId
      (loadMemoryRecordClosureInner loadSource db namespaceId depth)

end RecordReader

end RadishMemory
