import RadishMemory.Construction.SourceVault.Envelope
import RadishMemory.Construction.SourceVault.VaultSamples
import RadishMemory.Properties.AssociatedData

/-!
# The envelope codec

A decoded envelope is the encoding of what it was decoded to, an encoded object is decoded to
itself, and no byte string makes the decoder panic.  `take` carries all of it: a field is taken
exactly from a string that begins with it.
-/

namespace RadishMemory

/-! ## Calls without a panic -/

/-- The call ends with a value or an error. -/
def NoPanic {α : Type} (call : Except Fault α) : Prop :=
  call ≠ .error .panicked

namespace NoPanic

variable {α β : Type}

theorem ok (a : α) : NoPanic (.ok a) := by
  intro h
  cases h

theorem error (e : SourceVaultError) : NoPanic (.error (.returned e) : Except Fault α) := by
  intro h
  cases h

theorem bind {call : Except Fault α} {next : α → Except Fault β} (h : NoPanic call)
    (hnext : ∀ a, call = .ok a → NoPanic (next a)) : NoPanic (call >>= next) := by
  cases call with
  | error fault =>
    rw [Except.error_bind]
    intro heq
    exact h (congrArg Except.error (Except.error.inj heq))
  | ok a => exact hnext a rfl

theorem require {cond : Prop} [Decidable cond] (e : SourceVaultError) :
    NoPanic (require cond (.returned e)) := by
  by_cases h : cond
  · rw [require_of h]
    exact ok ()
  · rw [require_of_not h]
    exact error e

theorem orError (o : Option α) (e : SourceVaultError) : NoPanic (o.orError (.returned e)) := by
  cases o with
  | none => exact error e
  | some a => exact ok a

end NoPanic

section Slices

variable {α : Type} {values result : List α} {bound : Nat}

@[simp] theorem sliceTo_eq_ok_iff :
    sliceTo values bound = .ok result ↔ bound ≤ values.length ∧ values.take bound = result := by
  unfold sliceTo
  split
  · simp [*]
  · simp [*]

@[simp] theorem sliceFrom_eq_ok_iff :
    sliceFrom values bound = .ok result ↔ bound ≤ values.length ∧ values.drop bound = result := by
  unfold sliceFrom
  split
  · simp [*]
  · simp [*]

theorem sliceTo_noPanic (h : bound ≤ values.length) : NoPanic (sliceTo values bound) := by
  rw [sliceTo, if_pos h]
  exact .ok _

theorem sliceFrom_noPanic (h : bound ≤ values.length) : NoPanic (sliceFrom values bound) := by
  rw [sliceFrom, if_pos h]
  exact .ok _

/-- A slice without its last entry is what stands before that entry. -/
theorem sliceInit_eq_ok_iff :
    sliceInit values = .ok result ↔ ∃ last, values = result ++ [last] := by
  unfold sliceInit
  rcases List.eq_nil_or_concat' values with rfl | ⟨front, last, rfl⟩
  · simp
  · have hlength : (front ++ [last]).length - 1 = front.length := by simp
    have hnonempty : (front ++ [last]).isEmpty = false := by simp
    rw [hnonempty, if_neg Bool.false_ne_true, sliceTo_eq_ok_iff, hlength, List.take_left]
    constructor
    · rintro ⟨-, rfl⟩
      exact ⟨last, rfl⟩
    · rintro ⟨last', heq⟩
      have hfront : front = result := (List.append_inj' heq rfl).1
      exact ⟨by simp, hfront⟩

end Slices

namespace Envelope

/-! ## Taking fields -/

/-- An input that is long enough has a tag, four bytes of length, and the rest. -/
theorem exists_header {input : Input} (h : 5 ≤ input.length) :
    ∃ first size body, size.length = 4 ∧ input = first :: (size ++ body) := by
  cases input with
  | nil => exact absurd h (by decide)
  | cons first tail =>
    rw [List.length_cons] at h
    exact ⟨first, tail.take 4, tail.drop 4, by rw [List.length_take]; omega,
      by rw [List.take_append_drop]⟩

/-- What `take` does with such an input. -/
theorem take_header {first tag : UInt8} {size body : List UInt8} (hsize : size.length = 4) :
    take (first :: (size ++ body)) tag =
      if first = tag ∧ ofBigEndian size ≤ body.length then
        .ok (body.take (ofBigEndian size), body.drop (ofBigEndian size))
      else .error (.returned malformed) := by
  have hlength : 5 ≤ (first :: (size ++ body)).length := by
    rw [List.length_cons, List.length_append]
    omega
  have hheader : sliceTo (first :: (size ++ body)) 5 = .ok (first :: size) := by
    rw [sliceTo, if_pos hlength, List.take_succ_cons, ← hsize, List.take_left]
  have hfrom : sliceFrom (first :: size) 1 = .ok size := by
    rw [sliceFrom, if_pos (by rw [List.length_cons]; omega)]
    rfl
  have hbody : getFrom (first :: (size ++ body)) 5 = .ok body := by
    rw [getFrom, if_pos hlength, List.drop_succ_cons, ← hsize, List.drop_left]
  have hindex : index (first :: (size ++ body)) 0 = .ok first := rfl
  rw [take, require_of hlength, Except.ok_bind, hindex, Except.ok_bind]
  by_cases htag : first = tag
  · rw [require_of htag, Except.ok_bind, hheader, Except.ok_bind, hfrom, Except.ok_bind, hbody,
      Except.ok_bind]
    by_cases hfits : ofBigEndian size ≤ body.length
    · rw [getTo, if_pos hfits, Except.ok_bind, sliceFrom, if_pos hfits, if_pos ⟨htag, hfits⟩]
      rfl
    · rw [getTo, if_neg hfits, if_neg (fun h => hfits h.2)]
      rfl
  · rw [require_of_not htag, if_neg (fun h => htag h.1)]
    rfl

theorem take_short {input : Input} {tag : UInt8} (h : ¬ 5 ≤ input.length) :
    take input tag = .error (.returned malformed) := by
  rw [take, require_of_not h]
  rfl

/-- A field is taken from a string that begins with it, and from no other. -/
theorem take_eq_ok_iff {input : Input} {tag : UInt8} {value : List UInt8} {rest : Input} :
    take input tag = .ok (value, rest) ↔
      input = taggedField tag value ++ rest ∧ value.length < 2 ^ 32 := by
  constructor
  · intro h
    by_cases hlength : 5 ≤ input.length
    · obtain ⟨first, size, body, hsize, rfl⟩ := exists_header hlength
      rw [take_header hsize] at h
      split at h
      · rename_i hfits
        obtain ⟨rfl, hfits⟩ := hfits
        obtain ⟨rfl, rfl⟩ := Prod.mk.inj (Except.ok.inj h)
        have hbound := ofBigEndian_lt size
        have hvalue : (body.take (ofBigEndian size)).length = ofBigEndian size := by
          rw [List.length_take]
          omega
        have hencoded := bigEndian_ofBigEndian size
        rw [hsize] at hbound hencoded
        refine ⟨?_, by rw [hvalue]; exact hbound⟩
        rw [taggedField, hvalue, hencoded, List.cons_append, List.append_assoc,
          List.take_append_drop]
      · cases h
    · rw [take_short hlength] at h
      cases h
  · rintro ⟨rfl, hvalue⟩
    rw [taggedField, List.cons_append, List.append_assoc,
      take_header (bigEndian_length 4 value.length), ofBigEndian_bigEndian hvalue, if_pos,
      List.take_left, List.drop_left]
    rw [List.length_append]
    exact ⟨rfl, Nat.le_add_right _ _⟩

theorem take_noPanic (input : Input) (tag : UInt8) : NoPanic (take input tag) := by
  by_cases hlength : 5 ≤ input.length
  · obtain ⟨first, size, body, hsize, rfl⟩ := exists_header hlength
    rw [take_header hsize]
    split
    · exact .ok _
    · exact .error _
  · rw [take_short hlength]
    exact .error _

/-- Fields with expected values are taken from a string that begins with them. -/
theorem takeExpected_eq_ok_iff {error : SourceVaultError} {fields : List (UInt8 × List UInt8)}
    {input rest : Input} :
    takeExpected error input fields = .ok rest ↔
      input = taggedFields fields ++ rest ∧ FieldsFit fields := by
  induction fields generalizing input with
  | nil =>
    rw [takeExpected, Except.ok.injEq]
    simp [taggedFields, FieldsFit]
  | cons entry fields ih =>
    obtain ⟨tag, expected⟩ := entry
    simp only [takeExpected, Except.bind_eq_ok_iff, Except.exists_unit_iff, require_eq_ok_iff,
      Prod.exists, take_eq_ok_iff, ih]
    constructor
    · rintro ⟨value, after, ⟨rfl, hvalue⟩, rfl, rfl, hfit⟩
      refine ⟨?_, ?_⟩
      · rw [taggedFields, taggedFields, List.flatMap_cons, List.append_assoc]
      · intro field hfield
        rcases List.mem_cons.1 hfield with rfl | hfield
        · exact hvalue
        · exact hfit field hfield
    · rintro ⟨rfl, hfit⟩
      refine ⟨expected, taggedFields fields ++ rest, ⟨?_, hfit _ List.mem_cons_self⟩, rfl, rfl,
        fun field hfield => hfit field (List.mem_cons_of_mem _ hfield)⟩
      rw [taggedFields, taggedFields, List.flatMap_cons, List.append_assoc]

theorem takeExpected_noPanic (error : SourceVaultError) (fields : List (UInt8 × List UInt8))
    (input : Input) : NoPanic (takeExpected error input fields) := by
  induction fields generalizing input with
  | nil => exact .ok _
  | cons entry fields ih =>
    refine (take_noPanic _ _).bind fun taken _ => ?_
    exact (NoPanic.require _).bind fun _ _ => ih _

theorem takeFixed_eq_ok_iff {n : Nat} {input rest : Input} {tag : UInt8} {fixed : FixedBytes n} :
    takeFixed n input tag = .ok (fixed, rest) ↔
      input = taggedField tag fixed.val ++ rest ∧ n < 2 ^ 32 := by
  simp only [takeFixed, Except.bind_eq_ok_iff, Except.pure_eq_ok_iff, Option.orError_eq_ok_iff,
    FixedBytes.ofList_eq_some_iff, Prod.exists, take_eq_ok_iff, Prod.mk.injEq]
  constructor
  · rintro ⟨value, after, ⟨rfl, hvalue⟩, taken, rfl, rfl, rfl⟩
    exact ⟨rfl, taken.property ▸ hvalue⟩
  · rintro ⟨rfl, hn⟩
    exact ⟨fixed.val, rest, ⟨rfl, fixed.property.symm ▸ hn⟩, fixed, rfl, rfl, rfl⟩

theorem takeFixed_noPanic (n : Nat) (input : Input) (tag : UInt8) :
    NoPanic (takeFixed n input tag) := by
  refine (take_noPanic _ _).bind fun taken _ => ?_
  exact (NoPanic.orError _ _).bind fun _ _ => .ok _

theorem validateMetadata_noPanic (metadata : ObjectMetadata) :
    NoPanic (validateMetadata metadata) :=
  (NoPanic.require _).bind fun _ _ => .require _

/-- No byte string makes the decoder panic. -/
theorem decode_noPanic (bytes : List UInt8) (expected : ObjectMetadata) :
    NoPanic (decode bytes expected) := by
  refine (validateMetadata_noPanic _).bind fun _ _ => ?_
  refine (NoPanic.require _).bind fun _ hmagic => ?_
  refine NoPanic.bind (sliceFrom_noPanic ?_) fun input _ => ?_
  · have hnoncePre := congrArg List.length (require_eq_ok_iff.1 hmagic).2
    rw [List.length_take] at hnoncePre
    omega
  refine (takeExpected_noPanic _ _ _).bind fun input _ => ?_
  refine (takeExpected_noPanic _ _ _).bind fun input _ => ?_
  refine (take_noPanic _ _).bind fun segmentBytes _ => ?_
  refine (NoPanic.require _).bind fun _ _ => ?_
  refine (takeFixed_noPanic _ _ _).bind fun streamNoncePrefix _ => ?_
  refine (takeFixed_noPanic _ _ _).bind fun wrapNonce _ => ?_
  refine (takeFixed_noPanic _ _ _).bind fun wrappedDek _ => ?_
  refine (take_noPanic _ _).bind fun ciphertext _ => ?_
  exact (NoPanic.require _).bind fun _ _ => .ok _

/-! ## The bytes of an envelope -/

def allFields (metadata : ObjectMetadata) (object : SealedObject) : List (UInt8 × List UInt8) :=
  profileFields ++ metadataFields metadata ++ sealedFields object

/-- The string that an object is written as. -/
def envelopeBytes (metadata : ObjectMetadata) (object : SealedObject) : List UInt8 :=
  magic ++ taggedFields (allFields metadata object) ++ taggedField 16 object.segments.flatten

theorem encode_eq (metadata : ObjectMetadata) (object : SealedObject) :
    encode metadata object =
      (validateMetadata metadata >>= fun _ => .ok (envelopeBytes metadata object)) := by
  have hfields : (allFields metadata object).foldl
      (fun out entry => field out entry.1 entry.2) magic =
        magic ++ taggedFields (allFields metadata object) :=
    foldl_taggedField _ _
  have hsegments : taggedField 16 object.segments.flatten =
      (16 :: bigEndian 4 (object.segments.map List.length).sum) ++ object.segments.flatten := by
    rw [taggedField, List.length_flatten, List.cons_append]
  unfold encode
  rw [envelopeBytes, hsegments, ← List.append_assoc, ← hfields]
  rfl

theorem encode_eq_ok_iff {metadata : ObjectMetadata} {object : SealedObject}
    {bytes : List UInt8} :
    encode metadata object = .ok bytes ↔
      validateMetadata metadata = .ok () ∧ bytes = envelopeBytes metadata object := by
  rw [encode_eq]
  simp only [Except.bind_eq_ok_iff, Except.exists_unit_iff, Except.ok.injEq]
  exact and_congr_right fun _ => eq_comm

theorem profileFields_fit : FieldsFit profileFields := by
  have hall : (profileFields.all fun field => decide (field.2.length < 2 ^ 32)) = true := by
    decide +kernel
  intro field hfield
  exact of_decide_eq_true (List.all_eq_true.1 hall field hfield)

theorem metadataFields_fit (metadata : ObjectMetadata) : FieldsFit (metadataFields metadata) := by
  have hbounded := metadata_bounded metadata
  have hdigest := metadata.params.exactDigest.property
  simp only [List.mem_cons, List.not_mem_nil, or_false, forall_eq_or_imp, forall_eq] at hbounded
  simp only [FieldsFit, metadataFields, List.mem_cons, List.not_mem_nil, or_false,
    forall_eq_or_imp, forall_eq, bigEndian_length, hdigest]
  omega

theorem sealedFields_fit (object : SealedObject) : FieldsFit (sealedFields object) := by
  have hnoncePre := object.streamNoncePrefix.property
  have hnonce := object.wrapNonce.property
  have hwrapped := object.wrappedDek.property
  simp only [FieldsFit, sealedFields, List.mem_cons, List.not_mem_nil, or_false,
    forall_eq_or_imp, forall_eq, bigEndian_length, hnoncePre, hnonce, hwrapped,
    streamNoncePrefixBytes, wrapNonceBytes, keyBytes, aeadTagBytes]
  omega

/-- The string in the order in which the decoder takes it apart. -/
theorem envelopeBytes_eq (metadata : ObjectMetadata) (object : SealedObject) :
    envelopeBytes metadata object =
      magic ++ (taggedFields profileFields ++ (taggedFields (metadataFields metadata) ++
        (taggedField 12 (bigEndian 4 segmentPlaintextBytes) ++
        (taggedField 13 object.streamNoncePrefix.val ++ (taggedField 14 object.wrapNonce.val ++
        (taggedField 15 object.wrappedDek.val ++
        (taggedField 16 object.segments.flatten ++ []))))))) := by
  have hsealed : taggedFields (sealedFields object) =
      taggedField 12 (bigEndian 4 segmentPlaintextBytes) ++
      (taggedField 13 object.streamNoncePrefix.val ++ (taggedField 14 object.wrapNonce.val ++
      (taggedField 15 object.wrappedDek.val ++ []))) := rfl
  rw [envelopeBytes, allFields, taggedFields_append, taggedFields_append, hsealed]
  simp only [List.append_assoc, List.append_nil]

/-- What the decoder accepts. -/
theorem decode_eq_ok_iff {bytes : List UInt8} {expected : ObjectMetadata}
    {object : SealedObject} :
    decode bytes expected = .ok object ↔
      validateMetadata expected = .ok () ∧ bytes.length ≤ maxEnvelopeBytes ∧
      bytes = envelopeBytes expected object ∧
      object.segments =
        chunks (segmentPlaintextBytes + aeadTagBytes) object.segments.flatten ∧
      object.segments.flatten.length = expected.params.plaintextLen.toNat +
        segmentCount expected.params.plaintextLen.toNat * aeadTagBytes ∧
      object.segments.flatten.length < 2 ^ 32 := by
  simp only [decode, Except.bind_eq_ok_iff, Except.exists_unit_iff, Except.pure_eq_ok_iff,
    require_eq_ok_iff, sliceFrom_eq_ok_iff, takeExpected_eq_ok_iff, takeFixed_eq_ok_iff,
    take_eq_ok_iff, Prod.exists, List.isEmpty_iff]
  have hpositive : 0 < segmentPlaintextBytes + aeadTagBytes := by decide
  constructor
  · rintro ⟨hvalid, ⟨hbound, hmagic⟩, input, ⟨-, hinput⟩, input₁, ⟨rfl, -⟩, input₂, ⟨rfl, -⟩, _,
      input₃, ⟨rfl, -⟩, rfl, streamNoncePrefix, input₄, ⟨rfl, -⟩, wrapNonce, input₅, ⟨rfl, -⟩,
      wrappedDek, input₆, ⟨rfl, -⟩, ciphertext, input₇, ⟨rfl, hfits⟩, ⟨rfl, hlength⟩, rfl⟩
    have hflatten := flatten_chunks hpositive ciphertext
    refine ⟨hvalid, hbound, ?_, ?_, ?_, ?_⟩
    · rw [envelopeBytes_eq, hflatten, ← hinput]
      exact (List.take_append_drop magic.length bytes).symm.trans (by rw [hmagic])
    · rw [hflatten]
    · rw [hflatten]
      exact hlength
    · rw [hflatten]
      exact hfits
  · rintro ⟨hvalid, hbound, rfl, hsegments, hlength, hfits⟩
    refine ⟨hvalid, ⟨hbound, ?_⟩, _, ⟨?_, rfl⟩, _, ⟨?_, profileFields_fit⟩, _,
      ⟨rfl, metadataFields_fit _⟩, _, _, ⟨rfl, by rw [bigEndian_length]; decide⟩, rfl,
      object.streamNoncePrefix, _, ⟨rfl, by decide⟩, object.wrapNonce, _, ⟨rfl, by decide⟩,
      object.wrappedDek, _, ⟨rfl, by decide⟩, object.segments.flatten, _, ⟨rfl, hfits⟩,
      ⟨rfl, hlength⟩, ?_⟩
    · rw [envelopeBytes_eq, List.take_left]
    · rw [envelopeBytes_eq, List.length_append]
      exact Nat.le_add_right _ _
    · rw [envelopeBytes_eq, List.drop_left]
    · rw [← hsegments]

/-! ## Segments -/

/-- The lengths of the segments of a plaintext. -/
structure SegmentLayout (plaintextLen : Nat) (full : List (List UInt8)) (last : List UInt8) :
    Prop where
  count : full.length + 1 = expectedSegmentCount plaintextLen
  full : ∀ segment ∈ full, segment.length = segmentPlaintextBytes + aeadTagBytes
  last : last.length = finalPlaintextLen plaintextLen + aeadTagBytes

theorem validateSegmentLayout_eq_ok_iff {plaintextLen : Nat} {segments : List (List UInt8)} :
    validateSegmentLayout plaintextLen segments = .ok () ↔
      ∃ full last, segments = full ++ [last] ∧ SegmentLayout plaintextLen full last := by
  simp only [validateSegmentLayout, Except.bind_eq_ok_iff, Except.exists_unit_iff,
    require_eq_ok_iff, sliceInit_eq_ok_iff]
  constructor
  · rintro ⟨hcount, full, ⟨last, rfl⟩, hfull, hlast⟩
    rw [List.getLast?_concat, Option.map_some, Option.some.injEq] at hlast
    rw [List.length_append, List.length_singleton] at hcount
    exact ⟨full, last, rfl, hcount, hfull, hlast⟩
  · rintro ⟨full, last, rfl, hlayout⟩
    refine ⟨?_, full, ⟨last, rfl⟩, hlayout.full, ?_⟩
    · rw [List.length_append, List.length_singleton]
      exact hlayout.count
    · rw [List.getLast?_concat, Option.map_some, hlayout.last]

/-- The two formulas for the number of segments agree. -/
theorem segmentCount_eq (n : Nat) : segmentCount n = expectedSegmentCount n := by
  unfold segmentCount expectedSegmentCount segmentPlaintextBytes
  by_cases h : n = 0
  · rw [if_pos h]
    omega
  · rw [if_neg h]
    omega

theorem expectedSegmentCount_pos (n : Nat) : 0 < expectedSegmentCount n := by
  rw [← segmentCount_eq]
  exact Nat.le_max_right _ _

/-- All segments but the last are full. -/
theorem final_segment (n : Nat) :
    (expectedSegmentCount n - 1) * segmentPlaintextBytes + finalPlaintextLen n = n ∧
      finalPlaintextLen n ≤ segmentPlaintextBytes := by
  unfold finalPlaintextLen expectedSegmentCount segmentPlaintextBytes
  by_cases h : n = 0
  · rw [if_pos h, if_pos h]
    omega
  · rw [if_neg h, if_neg h]
    omega

/-- A segmented object is as long as its plaintext and one tag for each segment. -/
theorem SegmentLayout.length {n : Nat} {full : List (List UInt8)} {last : List UInt8}
    (h : SegmentLayout n full last) :
    (full ++ [last]).flatten.length = n + segmentCount n * aeadTagBytes := by
  have hfull : (full.map List.length).sum =
      full.length * (segmentPlaintextBytes + aeadTagBytes) := by
    rw [List.map_congr_left h.full, List.map_const', List.sum_replicate_nat]
  have hcount := h.count
  have hfinal := (final_segment n).1
  rw [segmentCount_eq, ← hcount, List.length_flatten, List.map_append, List.sum_append, hfull,
    List.map_singleton, List.sum_singleton, h.last]
  rw [← hcount, Nat.add_sub_cancel] at hfinal
  rw [Nat.mul_add, Nat.add_mul]
  omega

/-- The segments are cut again from their concatenation. -/
theorem SegmentLayout.chunks {n : Nat} {full : List (List UInt8)} {last : List UInt8}
    (h : SegmentLayout n full last) :
    chunks (segmentPlaintextBytes + aeadTagBytes) (full ++ [last]).flatten = full ++ [last] := by
  have hlast := h.last
  have hfinal := (final_segment n).2
  refine chunks_flatten h.full ?_ ?_
  · rw [hlast]
    exact Nat.lt_of_lt_of_le (by decide : 0 < aeadTagBytes) (Nat.le_add_left _ _)
  · rw [hlast]
    exact Nat.add_le_add_right hfinal _

theorem profileFields_length : (taggedFields profileFields).length = 241 := by
  have hsum : (profileFields.map fun field => 5 + field.2.length).sum = 241 := by
    decide +kernel
  rw [taggedFields_length, hsum]

theorem segmentCount_le {n : Nat} (hn : n ≤ maxObjectPlaintextBytes) : segmentCount n ≤ 8 := by
  simp only [segmentCount, segmentPlaintextBytes, maxObjectPlaintextBytes] at *
  omega

/-- The hand-computed bound holds: the fixed part of an envelope takes 432 bytes. -/
theorem envelopeBytes_length_le {metadata : ObjectMetadata} {object : SealedObject}
    (hvalid : validateMetadata metadata = .ok ())
    (hlength : object.segments.flatten.length = metadata.params.plaintextLen.toNat +
      segmentCount metadata.params.plaintextLen.toNat * aeadTagBytes) :
    (envelopeBytes metadata object).length ≤ maxEnvelopeBytes := by
  simp only [validateMetadata, Except.bind_eq_ok_iff, Except.exists_unit_iff, require_eq_ok_iff,
    List.mem_cons, List.not_mem_nil, or_false, forall_eq_or_imp, forall_eq] at hvalid
  obtain ⟨hplaintext, hnamespace, hsource, hmedia⟩ := hvalid
  have hdigest := metadata.params.exactDigest.property
  have hnoncePre := object.streamNoncePrefix.property
  have hnonce := object.wrapNonce.property
  have hwrapped := object.wrappedDek.property
  have hprofile := profileFields_length
  have hmagic : magic.length = 6 := rfl
  have hmetadata : (taggedFields (metadataFields metadata)).length =
      65 + (utf8Bytes metadata.params.namespaceId).length +
        (utf8Bytes metadata.params.sourceId).length +
        (utf8Bytes metadata.params.mediaType).length := by
    simp only [taggedFields_length, metadataFields, List.map_cons, List.map_nil, List.sum_cons,
      List.sum_nil, bigEndian_length, hdigest]
    omega
  rw [envelopeBytes_eq]
  simp only [List.length_append, hmagic, hprofile, hmetadata, taggedField_length,
    bigEndian_length, hnoncePre, hnonce, hwrapped, hlength, List.length_nil]
  have hcount := segmentCount_le hplaintext
  have htag : aeadTagBytes = 16 := rfl
  have hkey : keyBytes = 32 := rfl
  have hstream : streamNoncePrefixBytes = 19 := rfl
  have hwrap : wrapNonceBytes = 24 := rfl
  have hfield : maxMetadataField = 4096 := rfl
  have hlimit : maxEnvelopeBytes = maxObjectPlaintextBytes + 3 * 4096 + 2048 := rfl
  rw [hfield] at hnamespace hsource hmedia
  rw [hlimit, htag, hkey, hstream, hwrap]
  omega

theorem fits_of_length {n length : Nat} (hn : n ≤ maxObjectPlaintextBytes)
    (hlength : length = n + segmentCount n * aeadTagBytes) : length < 2 ^ 32 := by
  have hcount := segmentCount_le hn
  have htag : aeadTagBytes = 16 := rfl
  rw [htag] at hlength
  rw [maxObjectPlaintextBytes] at hn
  omega

/-! ## The codec -/

/-- An object with the layout of its plaintext is encoded within the limit and decoded to itself;
a string that is decoded is the one encoding of what it is decoded to; and decoding never
panics. -/
theorem envelope_codec :
    (∀ metadata object, validateMetadata metadata = .ok () →
      validateSegmentLayout metadata.params.plaintextLen.toNat object.segments = .ok () →
      ∃ bytes, encode metadata object = .ok bytes ∧ bytes.length ≤ maxEnvelopeBytes ∧
        decode bytes metadata = .ok object) ∧
    (∀ bytes expected object, decode bytes expected = .ok object →
      encode expected object = .ok bytes) ∧
    ∀ bytes expected, decode bytes expected ≠ .error .panicked := by
  refine ⟨fun metadata object hvalid hlayout => ?_, fun bytes expected object hdecode => ?_,
    decode_noPanic⟩
  · obtain ⟨full, last, hsegments, hlayout⟩ := validateSegmentLayout_eq_ok_iff.1 hlayout
    have hlength := hlayout.length
    have hchunks := hlayout.chunks
    rw [← hsegments] at hlength hchunks
    have hbound := envelopeBytes_length_le hvalid hlength
    refine ⟨_, encode_eq_ok_iff.2 ⟨hvalid, rfl⟩, hbound, ?_⟩
    have hplaintext : metadata.params.plaintextLen.toNat ≤ maxObjectPlaintextBytes := by
      simp only [validateMetadata, Except.bind_eq_ok_iff, Except.exists_unit_iff,
        require_eq_ok_iff] at hvalid
      exact hvalid.1
    exact decode_eq_ok_iff.2 ⟨hvalid, hbound, rfl, hchunks.symm, hlength,
      fits_of_length hplaintext hlength⟩
  · obtain ⟨hvalid, -, hbytes, -⟩ := decode_eq_ok_iff.1 hdecode
    exact encode_eq_ok_iff.2 ⟨hvalid, hbytes⟩

section

open VaultSample

theorem alpha_valid : validateMetadata alphaMetadata = .ok () ∧
    validateSegmentLayout alphaMetadata.params.plaintextLen.toNat alpha.segments = .ok () := by
  have hevaluated : (validateMetadata alphaMetadata).toOption = some () ∧
      (validateSegmentLayout alphaMetadata.params.plaintextLen.toNat
        alpha.segments).toOption = some () := by
    decide +kernel
  exact ⟨Except.ok_of_toOption hevaluated.1, Except.ok_of_toOption hevaluated.2⟩

/-- A sealed text is encoded, decoded, and encoded to the same bytes. -/
theorem envelope_codec_of_alpha : ∃ bytes, encode alphaMetadata alpha = .ok bytes ∧
    bytes.length ≤ maxEnvelopeBytes ∧ decode bytes alphaMetadata = .ok alpha ∧
    encode alphaMetadata alpha = .ok bytes := by
  obtain ⟨bytes, hencode, hbound, hdecode⟩ :=
    envelope_codec.1 alphaMetadata alpha alpha_valid.1 alpha_valid.2
  exact ⟨bytes, hencode, hbound, hdecode,
    envelope_codec.2.1 bytes alphaMetadata alpha hdecode⟩

end

end Envelope

end RadishMemory
