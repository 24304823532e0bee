import Mathlib.Data.List.Induction
import Mathlib.Algebra.Order.Ring.Nat

/-!
# Byte strings

Numbers in a fixed number of bytes, most significant byte first; tagged fields, each with the
length of its value in four bytes; and a string cut into chunks.  Each of the three is written in
one way only: the bytes determine the number, the fields (`fields_append_inj`) and, for chunks of
which only the last may be short, the chunks (`chunks_flatten`).
-/

universe u

/-- A fact about every byte, from its 256 cases. -/
theorem forall_byte {P : UInt8 → Prop} (h : ∀ n : Fin 256, P (UInt8.ofFin n)) (b : UInt8) : P b :=
  h b.toFin

/-! ## Strings of a fixed length -/

/-- The byte strings of length `n`. -/
abbrev FixedBytes (n : Nat) :=
  { bytes : List UInt8 // bytes.length = n }

/-- The string, if it has length `n`. -/
def FixedBytes.ofList (n : Nat) (bytes : List UInt8) : Option (FixedBytes n) :=
  if h : bytes.length = n then some ⟨bytes, h⟩ else none

theorem FixedBytes.ofList_eq_some_iff {n : Nat} {bytes : List UInt8} {fixed : FixedBytes n} :
    FixedBytes.ofList n bytes = some fixed ↔ fixed.val = bytes := by
  unfold FixedBytes.ofList
  split
  · rw [Option.some.injEq, Subtype.ext_iff, eq_comm]
  · rename_i h
    constructor
    · intro hnone
      cases hnone
    · rintro rfl
      exact absurd fixed.property h

@[simp] theorem FixedBytes.ofList_val {n : Nat} (fixed : FixedBytes n) :
    FixedBytes.ofList n fixed.val = some fixed :=
  FixedBytes.ofList_eq_some_iff.2 rfl

/-! ## Numbers -/

/-- The last `width` bytes of a number, most significant first. -/
def bigEndian : Nat → Nat → List UInt8
  | 0, _ => []
  | width + 1, n => bigEndian width (n / 256) ++ [UInt8.ofNat n]

def ofBigEndian (bytes : List UInt8) : Nat :=
  bytes.foldl (fun n byte => n * 256 + byte.toNat) 0

@[simp] theorem bigEndian_length (width n : Nat) : (bigEndian width n).length = width := by
  induction width generalizing n with
  | zero => rfl
  | succ width ih => rw [bigEndian, List.length_append, ih, List.length_singleton]

theorem ofBigEndian_append_singleton (bytes : List UInt8) (byte : UInt8) :
    ofBigEndian (bytes ++ [byte]) = ofBigEndian bytes * 256 + byte.toNat := by
  rw [ofBigEndian, List.foldl_append]
  rfl

theorem ofBigEndian_bigEndian {width n : Nat} (h : n < 256 ^ width) :
    ofBigEndian (bigEndian width n) = n := by
  induction width generalizing n with
  | zero =>
    rw [pow_zero] at h
    have hzero : n = 0 := by omega
    rw [hzero]
    rfl
  | succ width ih =>
    rw [pow_succ] at h
    have hrest : n / 256 < 256 ^ width := by omega
    rw [bigEndian, ofBigEndian_append_singleton, ih hrest, UInt8.toNat_ofNat']
    omega

theorem bigEndian_ofBigEndian (bytes : List UInt8) :
    bigEndian bytes.length (ofBigEndian bytes) = bytes := by
  induction bytes using List.reverseRecOn with
  | nil => rfl
  | append_singleton bytes byte ih =>
    have hbyte := byte.toNat_lt
    have hhigh : (ofBigEndian bytes * 256 + byte.toNat) / 256 = ofBigEndian bytes := by omega
    have hlow : UInt8.ofNat (ofBigEndian bytes * 256 + byte.toNat) = byte := by
      apply UInt8.toNat_inj.1
      rw [UInt8.toNat_ofNat']
      omega
    rw [List.length_append, List.length_singleton, bigEndian, ofBigEndian_append_singleton, hhigh,
      hlow, ih]

theorem ofBigEndian_lt (bytes : List UInt8) : ofBigEndian bytes < 256 ^ bytes.length := by
  induction bytes using List.reverseRecOn with
  | nil => exact Nat.one_pos
  | append_singleton bytes byte ih =>
    have hbyte := byte.toNat_lt
    rw [ofBigEndian_append_singleton, List.length_append, List.length_singleton, pow_succ]
    omega

theorem bigEndian_inj {width n m : Nat} (hn : n < 256 ^ width) (hm : m < 256 ^ width)
    (h : bigEndian width n = bigEndian width m) : n = m := by
  rw [← ofBigEndian_bigEndian hn, h, ofBigEndian_bigEndian hm]

/-! ## Fields -/

/-- A tag, the length of the value in four bytes, and the value. -/
def taggedField (tag : UInt8) (value : List UInt8) : List UInt8 :=
  tag :: (bigEndian 4 value.length ++ value)

def taggedFields (fields : List (UInt8 × List UInt8)) : List UInt8 :=
  fields.flatMap fun field => taggedField field.1 field.2

/-- The length of every value fits in its four bytes. -/
def FieldsFit (fields : List (UInt8 × List UInt8)) : Prop :=
  ∀ field ∈ fields, field.2.length < 2 ^ 32

/-- A writer that appends one field after the other. -/
theorem foldl_taggedField (fields : List (UInt8 × List UInt8)) (out : List UInt8) :
    fields.foldl (fun out field => out ++ taggedField field.1 field.2) out =
      out ++ taggedFields fields := by
  induction fields generalizing out with
  | nil => rw [List.foldl_nil, taggedFields, List.flatMap_nil, List.append_nil]
  | cons field fields ih =>
    rw [List.foldl_cons, ih, taggedFields, taggedFields, List.flatMap_cons, List.append_assoc]

theorem taggedFields_append (fields fields' : List (UInt8 × List UInt8)) :
    taggedFields (fields ++ fields') = taggedFields fields ++ taggedFields fields' :=
  List.flatMap_append

theorem taggedFields_singleton (tag : UInt8) (value : List UInt8) :
    taggedFields [(tag, value)] = taggedField tag value :=
  List.flatMap_singleton ..

@[simp] theorem taggedField_length (tag : UInt8) (value : List UInt8) :
    (taggedField tag value).length = 5 + value.length := by
  rw [taggedField, List.length_cons, List.length_append, bigEndian_length]
  omega

theorem taggedFields_length (fields : List (UInt8 × List UInt8)) :
    (taggedFields fields).length = (fields.map fun field => 5 + field.2.length).sum := by
  rw [taggedFields, List.length_flatMap]
  simp

theorem FieldsFit.append {fields fields' : List (UInt8 × List UInt8)} (h : FieldsFit fields)
    (h' : FieldsFit fields') : FieldsFit (fields ++ fields') := by
  intro field hfield
  rcases List.mem_append.1 hfield with hfield | hfield
  · exact h field hfield
  · exact h' field hfield

/-- The first field of a string and what follows it. -/
theorem taggedField_append_inj {tag tag' : UInt8} {value value' rest rest' : List UInt8}
    (hvalue : value.length < 2 ^ 32) (hvalue' : value'.length < 2 ^ 32)
    (h : taggedField tag value ++ rest = taggedField tag' value' ++ rest') :
    tag = tag' ∧ value = value' ∧ rest = rest' := by
  rw [taggedField, taggedField, List.cons_append, List.cons_append, List.append_assoc,
    List.append_assoc] at h
  obtain ⟨htag, htail⟩ := List.cons.inj h
  obtain ⟨hsize, hbody⟩ := List.append_inj htail (by rw [bigEndian_length, bigEndian_length])
  have hlength : value.length = value'.length := bigEndian_inj hvalue hvalue' hsize
  obtain ⟨hsame, hrest⟩ := List.append_inj hbody hlength
  exact ⟨htag, hsame, hrest⟩

/-- As many fields as expected, and what follows them, are determined by the string. -/
theorem taggedFields_append_inj {fields fields' : List (UInt8 × List UInt8)}
    {rest rest' : List UInt8} (hlength : fields.length = fields'.length)
    (hfit : FieldsFit fields) (hfit' : FieldsFit fields')
    (h : taggedFields fields ++ rest = taggedFields fields' ++ rest') :
    fields = fields' ∧ rest = rest' := by
  induction fields generalizing fields' with
  | nil =>
    cases fields' with
    | nil => exact ⟨rfl, h⟩
    | cons field' fields' => cases hlength
  | cons field fields ih =>
    cases fields' with
    | nil => cases hlength
    | cons field' fields' =>
      rw [taggedFields, taggedFields, List.flatMap_cons, List.flatMap_cons, List.append_assoc,
        List.append_assoc] at h
      obtain ⟨htag, hvalue, htail⟩ := taggedField_append_inj (hfit field List.mem_cons_self)
        (hfit' field' List.mem_cons_self) h
      obtain ⟨hfields, hrest⟩ := ih (Nat.succ.inj hlength)
        (fun f hf => hfit f (List.mem_cons_of_mem _ hf))
        (fun f hf => hfit' f (List.mem_cons_of_mem _ hf)) htail
      rw [hfields, Prod.ext htag hvalue]
      exact ⟨rfl, hrest⟩

theorem taggedFields_inj {fields fields' : List (UInt8 × List UInt8)}
    (hlength : fields.length = fields'.length) (hfit : FieldsFit fields)
    (hfit' : FieldsFit fields') (h : taggedFields fields = taggedFields fields') :
    fields = fields' := by
  have happended : taggedFields fields ++ [] = taggedFields fields' ++ [] := by rw [h]
  exact (taggedFields_append_inj hlength hfit hfit' happended).1

/-! ## Chunks -/

variable {α : Type u}

/-- The list cut after every `n` entries. -/
def chunks (n : Nat) (l : List α) : List (List α) :=
  (List.range ((l.length + n - 1) / n)).map fun i => (l.drop (i * n)).take n

@[simp] theorem chunks_length (n : Nat) (l : List α) :
    (chunks n l).length = (l.length + n - 1) / n := by
  rw [chunks, List.length_map, List.length_range]

theorem chunks_nil {n : Nat} (hn : 0 < n) : chunks n ([] : List α) = [] := by
  have hnone : (([] : List α).length + n - 1) / n = 0 := by
    rw [List.length_nil, Nat.zero_add]
    exact Nat.div_eq_of_lt (by omega)
  rw [chunks, hnone, List.range_zero, List.map_nil]

/-- The first chunk of a list that has one. -/
theorem chunks_cons {n : Nat} (hn : 0 < n) {l : List α} (hl : 0 < l.length) :
    chunks n l = l.take n :: chunks n (l.drop n) := by
  have hcount : (l.length + n - 1) / n = ((l.drop n).length + n - 1) / n + 1 := by
    rw [List.length_drop]
    by_cases hshort : l.length ≤ n
    · have hlast : l.length + n - 1 = (l.length - 1) + n := by omega
      rw [Nat.sub_eq_zero_of_le hshort, hlast, Nat.add_div_right _ hn,
        Nat.div_eq_of_lt (by omega : l.length - 1 < n),
        Nat.div_eq_of_lt (by omega : 0 + n - 1 < n)]
    · have hmore : l.length + n - 1 = (l.length - n + n - 1) + n := by omega
      rw [hmore, Nat.add_div_right _ hn]
  rw [chunks, hcount, List.range_succ_eq_map, List.map_cons, List.map_map, Nat.zero_mul,
    List.drop_zero, chunks]
  refine congrArg _ (List.map_congr_left fun i _ => ?_)
  rw [Function.comp_apply, List.drop_drop, Nat.succ_mul, Nat.add_comm]

/-- The chunks put together again. -/
theorem flatten_chunks {n : Nat} (hn : 0 < n) (l : List α) : (chunks n l).flatten = l := by
  induction hk : l.length using Nat.strong_induction_on generalizing l with
  | _ k ih =>
    by_cases hl : 0 < l.length
    · rw [chunks_cons hn hl, List.flatten_cons,
        ih (l.drop n).length (by rw [List.length_drop]; omega) _ rfl, List.take_append_drop]
    · obtain rfl : l = [] := List.eq_nil_of_length_eq_zero (by omega)
      rw [chunks_nil hn, List.flatten_nil]

/-- Pieces of which only the last may be short are the chunks of their concatenation. -/
theorem chunks_flatten {n : Nat} {pieces : List (List α)} {last : List α}
    (hpieces : ∀ piece ∈ pieces, piece.length = n) (hlast : 0 < last.length)
    (hshort : last.length ≤ n) :
    chunks n (pieces ++ [last]).flatten = pieces ++ [last] := by
  have hn : 0 < n := Nat.lt_of_lt_of_le hlast hshort
  induction pieces with
  | nil =>
    rw [List.nil_append, List.flatten_singleton, chunks_cons hn hlast,
      List.take_of_length_le hshort, List.drop_of_length_le hshort, chunks_nil hn]
  | cons piece pieces ih =>
    have hpiece := hpieces piece List.mem_cons_self
    have hrest := ih fun p hp => hpieces p (List.mem_cons_of_mem _ hp)
    rw [List.cons_append, List.flatten_cons, chunks_cons hn (by rw [List.length_append]; omega),
      ← hpiece, List.take_left, List.drop_left, hpiece, hrest]

/-- The chunks of a list of a multiple of `n` entries are all full. -/
theorem length_of_mem_chunks {n : Nat} (hn : 0 < n) {k : Nat} {l : List α}
    (hl : l.length = k * n) : ∀ chunk ∈ chunks n l, chunk.length = n := by
  induction k generalizing l with
  | zero =>
    rw [Nat.zero_mul] at hl
    rw [List.eq_nil_of_length_eq_zero hl, chunks_nil hn]
    intro chunk hchunk
    cases hchunk
  | succ k ih =>
    rw [Nat.succ_mul] at hl
    rw [chunks_cons hn (by omega)]
    intro chunk hchunk
    rcases List.mem_cons.1 hchunk with rfl | hchunk
    · rw [List.length_take]
      omega
    · exact ih (by rw [List.length_drop]; omega) chunk hchunk
