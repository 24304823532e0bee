import RadishMemory.Construction.Sqlite.PlanDigest
import Mathlib.Data.List.Sort
import Mathlib.Data.List.Perm.Basic

/-!
# A plan digest binds the whole plan

The string that `plan_digest` hashes is read back in one way: tables are in a fixed order, each
with the number of its rows, each row with its length and each value with its type and length.
The encoded rows are sorted, so the string says which rows there are and how often, and not in
which order SQLite returned them.
-/

namespace RadishMemory

/-! ## Values and rows -/

/-- The tag and the bytes of a value. -/
def SqlValue.tagged : SqlValue → UInt8 × List UInt8
  | .null => (0, [])
  | .integer value => (1, bigEndian 8 value.toUInt64.toNat)
  | .real bits => (2, bigEndian 8 bits.toNat)
  | .text bytes => (3, bytes.val)
  | .blob bytes => (4, bytes.val)

theorem encodeValue_eq (value : SqlValue) :
    encodeValue value = value.tagged.1 :: framed value.tagged.2 := by
  cases value <;> rfl

example : encodeValue (.integer 258) = 1 :: framed [0, 0, 0, 0, 0, 0, 1, 2] := by
  decide +kernel

theorem SqlValue.tagged_fits (value : SqlValue) : value.tagged.2.length < 2 ^ 31 := by
  cases value with
  | null => decide
  | integer value => simp [SqlValue.tagged]
  | real bits => simp [SqlValue.tagged]
  | text bytes => exact bytes.property
  | blob bytes => exact bytes.property

theorem SqlValue.tagged_inj {a b : SqlValue} (h : a.tagged = b.tagged) : a = b := by
  cases a <;> cases b <;> simp [SqlValue.tagged] at h ⊢
  · rename_i a b
    have hbits := bigEndian_inj a.toUInt64.toNat_lt b.toUInt64.toNat_lt h
    exact Int64.toBitVec_inj.1 (congrArg UInt64.toBitVec (UInt64.toNat_inj.1 hbits))
  · rename_i a b
    exact UInt64.toNat_inj.1 (bigEndian_inj a.toNat_lt b.toNat_lt h)
  · exact Subtype.ext h
  · exact Subtype.ext h

theorem tells_encodeValue : Tells (fun _ => True) encodeValue id := by
  intro a b r s _ _ heq
  rw [encodeValue_eq, encodeValue_eq, List.cons_append, List.cons_append] at heq
  obtain ⟨htag, hrest⟩ := List.cons.inj heq
  have ha := a.tagged_fits
  have hb := b.tagged_fits
  obtain ⟨hbytes, hlater⟩ := tells_framed _ _ r s (by omega) (by omega) hrest
  exact ⟨SqlValue.tagged_inj (Prod.ext htag hbytes), hlater⟩

theorem encodeRow_injective {table : PlanTable} :
    Function.Injective (encodeRow : PlanRow table → List UInt8) := by
  intro row row' h
  refine Subtype.ext (tells_encodeValue.flatMap_inj (fun value => ?_) (by simp) (by simp) h)
  rw [encodeValue_eq]
  exact List.cons_ne_nil _ _

theorem length_flatMap_encodeValue_le (values : List SqlValue) :
    (values.flatMap encodeValue).length ≤ values.length * (2 ^ 31 + 9) := by
  induction values with
  | nil => simp
  | cons value values ih =>
    have hfits := value.tagged_fits
    have hvalue : (encodeValue value).length = value.tagged.2.length + 9 := by
      simp [encodeValue_eq, framed]
      omega
    rw [List.flatMap_cons, List.length_append, hvalue, List.length_cons, Nat.succ_mul]
    omega

/-- A row of at most thirteen values is far shorter than its eight bytes of length can say. -/
theorem length_encodeRow_lt {table : PlanTable} (row : PlanRow table) :
    (encodeRow row).length < 2 ^ 64 := by
  have hlength := length_flatMap_encodeValue_le row.val
  have hcolumns : row.val.length ≤ 13 := by
    rw [row.property]
    cases table <;> decide
  unfold encodeRow
  omega

/-! ## Tables -/

theorem sortedRows_perm {table : PlanTable} (rows : List (PlanRow table)) :
    (sortedRows rows).Perm (rows.map encodeRow) :=
  List.mergeSort_perm _ _

/-- Encoded rows sort to the same list when they are the same rows. -/
theorem sortedRows_eq_iff {table : PlanTable} {rows rows' : List (PlanRow table)} :
    sortedRows rows = sortedRows rows' ↔ rows.Perm rows' := by
  constructor
  · intro h
    have hcodes : (rows.map encodeRow).Perm (rows'.map encodeRow) :=
      (sortedRows_perm rows).symm.trans (h ▸ sortedRows_perm rows')
    exact (List.map_perm_map_iff encodeRow_injective).1 hcodes
  · intro h
    have hsorted : ∀ rows : List (PlanRow table), (sortedRows rows).Pairwise fun a b =>
        decide (a ≤ b) = true := by
      intro rows
      refine List.pairwise_mergeSort (fun a b c hab hbc => ?_) (fun a b => ?_) _
      · exact decide_eq_true (List.le_trans (of_decide_eq_true hab) (of_decide_eq_true hbc))
      · simpa using List.le_total a b
    have hcodes : (sortedRows rows).Perm (sortedRows rows') :=
      (sortedRows_perm rows).trans ((h.map encodeRow).trans (sortedRows_perm rows').symm)
    refine hcodes.eq_of_pairwise (fun a b _ _ hab hba => ?_) (hsorted rows) (hsorted rows')
    exact List.le_antisymm (of_decide_eq_true hab) (of_decide_eq_true hba)

/-- The code of a table says its rows, in any order, and where it ends. -/
theorem encodeTable_append_inj {table : PlanTable} {rows rows' : List (PlanRow table)}
    {r s : List UInt8} (hrows : rows.length < 2 ^ 63) (hrows' : rows'.length < 2 ^ 63)
    (h : encodeTable table rows ++ r = encodeTable table rows' ++ s) :
    rows.Perm rows' ∧ r = s := by
  rw [encodeTable, encodeTable, List.append_assoc, List.append_assoc] at h
  have hfits : ∀ rows : List (PlanRow table), rows.length < 2 ^ 63 →
      (sortedRows rows).length < 2 ^ 64 ∧ ∀ code ∈ sortedRows rows, code.length < 2 ^ 64 := by
    intro rows hlength
    refine ⟨?_, fun code hcode => ?_⟩
    · rw [(sortedRows_perm rows).length_eq, List.length_map]
      omega
    · obtain ⟨row, -, rfl⟩ := List.mem_map.1 ((sortedRows_perm rows).mem_iff.1 hcode)
      exact length_encodeRow_lt row
  obtain ⟨hsorted, hrest⟩ := tells_framed.counted _ _ r s (hfits rows hrows) (hfits rows' hrows')
    (List.append_cancel_left h)
  exact ⟨sortedRows_eq_iff.1 (by simpa using hsorted), hrest⟩

/-! ## The plan -/

theorem PlanTables.length_select_lt (db : PlanTables) (request : String) (table : PlanTable) :
    (db.select request table).length < 2 ^ 63 :=
  (List.length_filter_le _ _).trans_lt (db.rowsFit table)

/-- Tables one after the other, the same in both, have the same rows. -/
theorem encodeTables_inj {db db' : PlanTables} {request : String} {tables : List PlanTable}
    (h : (tables.flatMap fun table => encodeTable table (db.select request table)) =
      tables.flatMap fun table => encodeTable table (db'.select request table)) :
    ∀ table ∈ tables, (db.select request table).Perm (db'.select request table) := by
  induction tables with
  | nil => simp
  | cons table tables ih =>
    obtain ⟨hperm, hrest⟩ := encodeTable_append_inj (db.length_select_lt request table)
      (db'.length_select_lt request table) h
    simpa using ⟨hperm, ih hrest⟩

/-- What `plan_digest` hashes does not depend on the order of rows, and differs as soon as one of
the five tables holds other rows of the request. -/
theorem plan_bytes_bind_the_plan (db db' : PlanTables) (request : String) :
    planBytes db request = planBytes db' request ↔
      ∀ table, (db.select request table).Perm (db'.select request table) := by
  constructor
  · intro h table
    have hall : table ∈ PlanTable.all := by cases table <;> decide
    exact encodeTables_inj (List.append_cancel_left h) table hall
  · intro h
    have htable : ∀ table, encodeTable table (db.select request table) =
        encodeTable table (db'.select request table) := by
      intro table
      rw [encodeTable, encodeTable, sortedRows_eq_iff.2 (h table)]
    simp only [planBytes, htable]

end RadishMemory
