import RadishMemory.Construction.SourceVault.DigestText
import RadishMemory.Properties.KeyReadback

/-!
# The texts that decode to a digest

The decoder cuts a text into pairs of characters and parses each as a number.  The lower-case
spelling of a digest decodes to it.  The number parser also takes upper-case digits and a sign, so
that some other texts decode as well: exactly those of `LooselySpelled`.
-/

namespace RadishMemory

/-! ## One pair -/

/-- A character that the number parser takes and the lower-case spelling does not have. -/
def IsLoose (b : UInt8) : Prop :=
  b = 0x2b ∨ 0x41 ≤ b ∧ b ≤ 0x46

instance decidableIsLoose (b : UInt8) : Decidable (IsLoose b) :=
  inferInstanceAs (Decidable (b = 0x2b ∨ 0x41 ≤ b ∧ b ≤ 0x46))

/-- A digit of either case. -/
def IsHexDigit (b : UInt8) : Prop :=
  (toDigit16 b).isSome = true

instance decidableIsHexDigit (b : UInt8) : Decidable (IsHexDigit b) :=
  inferInstanceAs (Decidable ((toDigit16 b).isSome = true))

theorem toDigit16_spec {b : UInt8} {n : Nat} (h : toDigit16 b = some n) :
    n < 16 ∧ b < 0x80 ∧ b ≠ 0x2b ∧ (¬ IsLoose b → hexByte (UInt8.ofNat n) = b) := by
  have hall : ∀ b : UInt8, (toDigit16 b).all fun n =>
      n < 16 ∧ b < 0x80 ∧ b ≠ 0x2b ∧ (¬ IsLoose b → hexByte (UInt8.ofNat n) = b) := by
    apply forall_byte
    decide +kernel
  have hb := hall b
  rw [h] at hb
  exact of_decide_eq_true hb

theorem toDigit16_hexByte {d : UInt8} (h : d < 16) :
    toDigit16 (hexByte d) = some d.toNat ∧ ¬ IsLoose (hexByte d) := by
  have hall : ∀ d : UInt8, d < 16 →
      toDigit16 (hexByte d) = some d.toNat ∧ ¬ IsLoose (hexByte d) := by
    apply forall_byte
    decide +kernel
  exact hall d h

theorem u8FromStrRadix16_plus (b : UInt8) :
    u8FromStrRadix16 [0x2b, b] = (toDigit16 b).map UInt8.ofNat := by
  cases hdigit : toDigit16 b with
  | none => simp [u8FromStrRadix16, hdigit]
  | some n =>
    have hlt : n < 256 := Nat.lt_trans (toDigit16_spec hdigit).1 (by omega)
    simp [u8FromStrRadix16, hdigit, hlt]

theorem u8FromStrRadix16_pair {a : UInt8} (b : UInt8) (ha : a ≠ 0x2b) :
    u8FromStrRadix16 [a, b] = (toDigit16 a).bind fun hi =>
      (toDigit16 b).map fun lo => UInt8.ofNat (hi * 16 + lo) := by
  cases hhi : toDigit16 a with
  | none => simp [u8FromStrRadix16, ha, hhi]
  | some hi =>
    cases hlo : toDigit16 b with
    | none =>
      have hlt : hi < 256 := Nat.lt_trans (toDigit16_spec hhi).1 (by omega)
      simp [u8FromStrRadix16, ha, hhi, hlo, hlt]
    | some lo =>
      have hlt := (toDigit16_spec hhi).1
      have hlt' := (toDigit16_spec hlo).1
      have hfst : hi < 256 := by omega
      have hsnd : hi * 16 + lo < 256 := by omega
      simp [u8FromStrRadix16, ha, hhi, hlo, hfst, hsnd]

/-- What the number parser reads from a pair. -/
def PairReads (a b : UInt8) : Prop :=
  (a = 0x2b ∨ IsHexDigit a) ∧ IsHexDigit b

theorem u8FromStrRadix16_isSome_iff (a b : UInt8) :
    (u8FromStrRadix16 [a, b]).isSome = true ↔ PairReads a b := by
  by_cases ha : a = 0x2b
  · subst ha
    simp [u8FromStrRadix16_plus, PairReads, IsHexDigit]
  · rw [u8FromStrRadix16_pair b ha]
    cases hhi : toDigit16 a with
    | none => simp [PairReads, IsHexDigit, ha, hhi]
    | some hi => simp [PairReads, IsHexDigit, hhi]

theorem ofNat_digits {hi lo : Nat} : UInt8.ofNat (hi * 16 + lo) =
    UInt8.ofNat hi * 16 + UInt8.ofNat lo := by
  simp [UInt8.ofNat_add, UInt8.ofNat_mul]

theorem ofNat_lt_sixteen {n : Nat} (h : n < 16) : UInt8.ofNat n < 16 := by
  rw [UInt8.lt_iff_toNat_lt, UInt8.toNat_ofNat', Nat.mod_eq_of_lt (by omega)]
  exact h

theorem u8FromStrRadix16_hexByte (byte : UInt8) :
    u8FromStrRadix16 [hexByte (byte >>> 4), hexByte (byte &&& 15)] = some byte := by
  obtain ⟨hhi, hlo, hbyte⟩ := byte_digits byte
  obtain ⟨hfst, -⟩ := toDigit16_hexByte hhi
  obtain ⟨hsnd, -⟩ := toDigit16_hexByte hlo
  rw [u8FromStrRadix16_pair _ (toDigit16_spec hfst).2.2.1, hfst, hsnd]
  simp only [Option.bind_some, Option.map_some, Option.some.injEq]
  rw [ofNat_digits, UInt8.ofNat_toNat, UInt8.ofNat_toNat, hbyte]

theorem hexByte_of_pair {a b d : UInt8} (h : u8FromStrRadix16 [a, b] = some d)
    (ha : ¬ IsLoose a) (hb : ¬ IsLoose b) :
    a = hexByte (d >>> 4) ∧ b = hexByte (d &&& 15) := by
  have hplus : a ≠ 0x2b := fun hsame => ha (.inl hsame)
  rw [u8FromStrRadix16_pair b hplus] at h
  simp only [Option.bind_eq_some_iff, Option.map_eq_some_iff] at h
  obtain ⟨hi, hhi, lo, hlo, rfl⟩ := h
  obtain ⟨hfst, -, -, hspell⟩ := toDigit16_spec hhi
  obtain ⟨hsnd, -, -, hspell'⟩ := toDigit16_spec hlo
  obtain ⟨hupper, hlower⟩ := digits_byte (ofNat_lt_sixteen hfst) (ofNat_lt_sixteen hsnd)
  rw [ofNat_digits, hupper, hlower, hspell ha, hspell' hb]
  exact ⟨rfl, rfl⟩

/-! ## The pairs of a text -/

/-- The loop of the decoder. -/
def readPairs (text : List UInt8) : Option (List UInt8) :=
  (chunks 2 text).mapM u8FromStrRadix16

theorem readPairs_nil : readPairs [] = some [] := by
  rw [readPairs, chunks_nil (by omega)]
  rfl

theorem readPairs_cons (a b : UInt8) (rest : List UInt8) :
    readPairs (a :: b :: rest) = do
      let byte ← u8FromStrRadix16 [a, b]
      let bytes ← readPairs rest
      return byte :: bytes := by
  rw [readPairs, chunks_cons (by omega) (by simp), List.mapM_cons]
  rfl

/-- Every pair of the text reads as a number. -/
def AllPairsRead : List UInt8 → Prop
  | a :: b :: rest => PairReads a b ∧ AllPairsRead rest
  | _ => True

theorem readPairs_isSome_iff {text : List UInt8} (heven : text.length % 2 = 0) :
    (readPairs text).isSome = true ↔ AllPairsRead text := by
  refine pairs_induction ?_ ?_ text heven
  · simp [readPairs_nil, AllPairsRead]
  · intro a b rest _ ih
    rw [readPairs_cons, AllPairsRead, ← ih, ← u8FromStrRadix16_isSome_iff]
    cases u8FromStrRadix16 [a, b] with
    | none => simp
    | some byte =>
      cases readPairs rest with
      | none => simp
      | some bytes => simp

theorem readPairs_length {text bytes : List UInt8} (h : readPairs text = some bytes)
    (heven : text.length % 2 = 0) : bytes.length * 2 = text.length := by
  have hall : ∀ bytes, readPairs text = some bytes → bytes.length * 2 = text.length := by
    refine pairs_induction ?_ ?_ text heven
    · intro bytes h
      rw [readPairs_nil, Option.some.injEq] at h
      subst h
      rfl
    · intro a b rest _ ih bytes h
      rw [readPairs_cons] at h
      simp only [Option.bind_eq_bind, Option.bind_eq_some_iff, Option.pure_def,
        Option.some.injEq] at h
      obtain ⟨byte, -, tail, htail, rfl⟩ := h
      have hcount := ih tail htail
      simp only [List.length_cons]
      omega
  exact hall bytes h

theorem readPairs_encodeHex (bytes : List UInt8) : readPairs (encodeHex bytes) = some bytes := by
  induction bytes with
  | nil => exact readPairs_nil
  | cons byte rest ih =>
    rw [encodeHex_cons, readPairs_cons, u8FromStrRadix16_hexByte, ih]
    rfl

example : readPairs (encodeHex [0x00, 0xa5]) = some [0x00, 0xa5] := by decide +kernel

theorem encodeHex_of_readPairs {text bytes : List UInt8} (h : readPairs text = some bytes)
    (heven : text.length % 2 = 0) (hstrict : ∀ b ∈ text, ¬ IsLoose b) :
    text = encodeHex bytes := by
  have hall : ∀ bytes, readPairs text = some bytes → (∀ b ∈ text, ¬ IsLoose b) → text = encodeHex bytes := by
    refine pairs_induction ?_ ?_ text heven
    · intro bytes h _
      rw [readPairs_nil, Option.some.injEq] at h
      subst h
      rfl
    · intro a b rest _ ih bytes h hstrict
      rw [readPairs_cons] at h
      simp only [Option.bind_eq_bind, Option.bind_eq_some_iff, Option.pure_def,
        Option.some.injEq] at h
      obtain ⟨byte, hbyte, tail, htail, rfl⟩ := h
      obtain ⟨rfl, rfl⟩ := hexByte_of_pair hbyte (hstrict a (by simp)) (hstrict b (by simp))
      have hspelled := ih tail htail fun c hc => hstrict c (by simp [hc])
      rw [encodeHex_cons, ← hspelled]
  exact hall bytes h hstrict

theorem encodeHex_strict {bytes : List UInt8} {b : UInt8} (h : b ∈ encodeHex bytes) :
    ¬ IsLoose b ∧ b < 0x80 := by
  obtain ⟨byte, -, hb⟩ := List.mem_flatMap.1 h
  obtain ⟨hhi, hlo, -⟩ := byte_digits byte
  rcases List.mem_pair.1 hb with rfl | rfl
  · obtain ⟨hdigit, hstrict⟩ := toDigit16_hexByte hhi
    exact ⟨hstrict, (toDigit16_spec hdigit).2.1⟩
  · obtain ⟨hdigit, hstrict⟩ := toDigit16_hexByte hlo
    exact ⟨hstrict, (toDigit16_spec hdigit).2.1⟩

theorem AllPairsRead.ascii {text : List UInt8} (h : AllPairsRead text)
    (heven : text.length % 2 = 0) : ∀ b ∈ text, b < 0x80 := by
  have hdigit : ∀ c, IsHexDigit c → c < 0x80 := by
    intro c hc
    obtain ⟨n, hn⟩ := Option.isSome_iff_exists.1 hc
    exact (toDigit16_spec hn).2.1
  revert h
  refine pairs_induction ?_ ?_ text heven
  · intro _ c hc
    cases hc
  · rintro a b rest _ ih ⟨⟨ha, hb⟩, htail⟩
    rw [List.forall_mem_cons, List.forall_mem_cons]
    refine ⟨?_, hdigit b hb, ih htail⟩
    rcases ha with rfl | ha
    · decide
    · exact hdigit a ha

/-! ## The decoder -/

theorem decodeDigest_eq_ok_iff {value : String} {digest : FixedBytes 32} :
    decodeDigest value = .ok digest ↔ (utf8Bytes value).length = 64 ∧
      (∀ b ∈ utf8Bytes value, b < 0x80) ∧ readPairs (utf8Bytes value) = some digest.val := by
  simp only [decodeDigest, Except.bind_eq_ok_iff, Except.exists_unit_iff, require_eq_ok_iff,
    Option.orError_eq_ok_iff, FixedBytes.ofList_eq_some_iff, List.all_eq_true, decide_eq_true_eq]
  constructor
  · rintro ⟨⟨hlength, hascii⟩, bytes, hread, rfl⟩
    exact ⟨hlength, hascii, hread⟩
  · rintro ⟨hlength, hascii, hread⟩
    exact ⟨⟨hlength, hascii⟩, digest.val, hread, rfl⟩

/-- A text of thirty-two pairs that read as numbers, and that is not the lower-case spelling of
what they are: it has an upper-case digit, or a sign. -/
structure LooselySpelled (value : String) : Prop where
  length : (utf8Bytes value).length = 64
  pairs : AllPairsRead (utf8Bytes value)
  loose : ∃ b ∈ utf8Bytes value, IsLoose b

theorem decodeDigest_of_strict {value : String} (h : ¬ LooselySpelled value)
    (digest : FixedBytes 32) :
    decodeDigest value = .ok digest ↔ utf8Bytes value = encodeHex digest.val := by
  rw [decodeDigest_eq_ok_iff]
  constructor
  · rintro ⟨hlength, -, hread⟩
    have heven : (utf8Bytes value).length % 2 = 0 := by omega
    refine encodeHex_of_readPairs hread heven fun b hb hloose => h ⟨hlength, ?_, b, hb, hloose⟩
    rw [← readPairs_isSome_iff heven, hread]
    rfl
  · intro hspelled
    rw [hspelled, encodeHex_length, digest.property]
    exact ⟨rfl, fun b hb => (encodeHex_strict hb).2, readPairs_encodeHex _⟩

theorem LooselySpelled.decodes {value : String} (h : LooselySpelled value) :
    ∃ digest, decodeDigest value = .ok digest ∧ utf8Bytes value ≠ encodeHex digest.val := by
  have heven : (utf8Bytes value).length % 2 = 0 := by
    rw [h.length]
  obtain ⟨bytes, hread⟩ := Option.isSome_iff_exists.1 ((readPairs_isSome_iff heven).2 h.pairs)
  have hbytes : bytes.length = 32 := by
    have hcount := readPairs_length hread heven
    rw [h.length] at hcount
    omega
  refine ⟨⟨bytes, hbytes⟩, decodeDigest_eq_ok_iff.2 ⟨h.length, h.pairs.ascii heven, hread⟩, ?_⟩
  intro hspelled
  obtain ⟨b, hb, hloose⟩ := h.loose
  rw [hspelled] at hb
  exact (encodeHex_strict hb).1 hloose

/-- A text decodes to the digest that it spells and to nothing else, exactly when it is not loosely
spelled; two texts that are not loosely spelled never decode to one digest. -/
theorem digest_texts_decode (value : String) :
    ((∀ digest, decodeDigest value = .ok digest ↔ utf8Bytes value = encodeHex digest.val) ↔
        ¬ LooselySpelled value) ∧
      ∀ other digest, ¬ LooselySpelled value → ¬ LooselySpelled other →
        decodeDigest value = .ok digest → decodeDigest other = .ok digest → value = other := by
  refine ⟨⟨fun hstrict hloose => ?_, decodeDigest_of_strict⟩, ?_⟩
  · obtain ⟨digest, hdecodes, hother⟩ := hloose.decodes
    exact hother ((hstrict digest).1 hdecodes)
  · intro other digest hvalue hother hdecodes hdecodes'
    apply utf8Bytes_injective
    rw [(decodeDigest_of_strict hvalue digest).1 hdecodes,
      (decodeDigest_of_strict hother digest).1 hdecodes']

/-- Upper-case digits and signs decode like the lower-case spelling. -/
theorem loose_digest_texts :
    decodeDigest (String.ofList (List.replicate 64 'A')) =
        decodeDigest (String.ofList (List.replicate 64 'a')) ∧
      (decodeDigest (String.ofList (List.replicate 64 'A'))).toOption.map (·.val) =
        some (List.replicate 32 0xaa) ∧
      (decodeDigest (String.ofList (List.replicate 32 ['+', 'a']).flatten)).toOption.map (·.val) =
        some (List.replicate 32 0x0a) ∧
      utf8Bytes (String.ofList (List.replicate 64 'A')) ≠ encodeHex (List.replicate 32 0xaa) := by
  decide +kernel

end RadishMemory
