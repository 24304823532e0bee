import RadishMemory.Construction.Core.Model
import RadishMemory.Framework.Codes

/-!
# The digest of a deletion plan

`plan_digest` hashes what SQLite holds of one deletion request in five tables.  It reads the
tables with `SELECT *`, so the rows are modelled as SQLite returns them, value by value with the
type each value is stored with, and not as the typed rows of the schema.

SQLite stores no text or blob of more than 2³¹ - 1 bytes and no table of more than 2⁶³ - 1 rows;
`SqlBytes` and `PlanTables` carry these bounds.
-/

namespace RadishMemory

/-- The bytes of a stored text or blob. -/
abbrev SqlBytes :=
  { bytes : List UInt8 // bytes.length < 2 ^ 31 }

/-- A stored value; a real is its 64 bits. -/
inductive SqlValue where
  | null
  | integer (value : Int64)
  | real (bits : UInt64)
  | text (bytes : SqlBytes)
  | blob (bytes : SqlBytes)
deriving DecidableEq

/-- The tables that hold a deletion plan. -/
inductive PlanTable where
  | deleteRequests
  | deleteRequestTargets
  | deleteRequestComponents
  | deleteComponentTargets
  | deleteExecutionClosure
deriving DecidableEq, Repr

namespace PlanTable

def all : List PlanTable :=
  [deleteRequests, deleteRequestTargets, deleteRequestComponents, deleteComponentTargets,
    deleteExecutionClosure]

def name : PlanTable → String
  | deleteRequests => "radishmemory_delete_requests"
  | deleteRequestTargets => "radishmemory_delete_request_targets"
  | deleteRequestComponents => "radishmemory_delete_request_components"
  | deleteComponentTargets => "radishmemory_delete_component_targets"
  | deleteExecutionClosure => "radishmemory_delete_execution_closure"

/-- The columns of the schema; the first of each table is `delete_request_id`. -/
def columns : PlanTable → Nat
  | deleteRequests => 13
  | deleteRequestTargets => 4
  | deleteRequestComponents => 10
  | deleteComponentTargets => 5
  | deleteExecutionClosure => 5

end PlanTable

abbrev PlanRow (table : PlanTable) :=
  { values : List SqlValue // values.length = table.columns }

/-- The rows of the five tables, in the order in which SQLite returns them. -/
structure PlanTables where
  rows : (table : PlanTable) → List (PlanRow table)
  rowsFit : ∀ table, (rows table).length < 2 ^ 63

/-- `WHERE delete_request_id = ?1`. -/
def PlanRow.isOf {table : PlanTable} (request : String) (row : PlanRow table) : Bool :=
  match row.val.head? with
  | some (.text bytes) => decide (bytes.val = utf8Bytes request)
  | _ => false

def PlanTables.select (db : PlanTables) (request : String) (table : PlanTable) :
    List (PlanRow table) :=
  (db.rows table).filter (PlanRow.isOf request)

/-- The type tag of a value, the length of its bytes in eight, and the bytes. -/
def encodeValue : SqlValue → List UInt8
  | .null => 0 :: framed []
  | .integer value => 1 :: framed (bigEndian 8 value.toUInt64.toNat)
  | .real bits => 2 :: framed (bigEndian 8 bits.toNat)
  | .text bytes => 3 :: framed bytes.val
  | .blob bytes => 4 :: framed bytes.val

def encodeRow {table : PlanTable} (row : PlanRow table) : List UInt8 :=
  row.val.flatMap encodeValue

/-- The encoded rows, sorted as byte strings. -/
def sortedRows {table : PlanTable} (rows : List (PlanRow table)) : List (List UInt8) :=
  (rows.map encodeRow).mergeSort fun a b => decide (a ≤ b)

/-- The name of a table, the number of its rows, and each of them after its length. -/
def encodeTable (table : PlanTable) (rows : List (PlanRow table)) : List UInt8 :=
  utf8Bytes table.name ++ countedList framed (sortedRows rows)

/-- The string that is hashed. -/
def planBytes (db : PlanTables) (request : String) : List UInt8 :=
  utf8Bytes "radishmemory.object-deletion-plan/1" ++
    PlanTable.all.flatMap fun table => encodeTable table (db.select request table)

def planDigest [Platform] (db : PlanTables) (request : String) : Sha256Hex :=
  (computeExactBytesDigest (planBytes db request)).value

end RadishMemory
