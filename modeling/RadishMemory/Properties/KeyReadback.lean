import RadishMemory.Construction.SourceVault.KeyProvider
import RadishMemory.Framework.Bytes
import RadishMemory.Framework.Processes

/-!
# The key that a bootstrap returns

The provider reads the slot up to seven times and compares what it read in two groups: the value
it goes on with against the read after the write and the last read, and the two reads of
`loadExisting` against each other.  The key it returns comes from the second group.  It is the key
of the last read exactly when the slot holds the same value at the last two reads.
-/

namespace RadishMemory

/-! ## Key values -/

theorem hexByte_of_digit {b d : UInt8} (h : digit b = some d) : d < 16 ∧ hexByte d = b := by
  have hall : ∀ b : UInt8, (digit b).all fun d => d < 16 ∧ hexByte d = b := by
    apply forall_byte
    decide +kernel
  have hb := hall b
  rw [h] at hb
  exact of_decide_eq_true hb

theorem digit_hexByte {d : UInt8} (h : d < 16) : digit (hexByte d) = some d := by
  have hall : ∀ d : UInt8, d < 16 → digit (hexByte d) = some d := by
    apply forall_byte
    decide +kernel
  exact hall d h

theorem byte_digits (byte : UInt8) :
    byte >>> 4 < 16 ∧ byte &&& 15 < 16 ∧ (byte >>> 4) * 16 + (byte &&& 15) = byte := by
  have hall : ∀ byte : UInt8,
      byte >>> 4 < 16 ∧ byte &&& 15 < 16 ∧ (byte >>> 4) * 16 + (byte &&& 15) = byte := by
    apply forall_byte
    decide +kernel
  exact hall byte

theorem digits_byte {hi lo : UInt8} (hhi : hi < 16) (hlo : lo < 16) :
    (hi * 16 + lo) >>> 4 = hi ∧ (hi * 16 + lo) &&& 15 = lo := by
  have hall : ∀ hi lo : Fin 16,
      (UInt8.ofNat hi * 16 + UInt8.ofNat lo) >>> 4 = UInt8.ofNat hi ∧
        (UInt8.ofNat hi * 16 + UInt8.ofNat lo) &&& 15 = UInt8.ofNat lo := by
    decide +kernel
  have hpair := hall ⟨hi.toNat, hhi⟩ ⟨lo.toNat, hlo⟩
  simpa using hpair

/-- Induction over a text that is cut into pairs. -/
@[elab_as_elim]
theorem pairs_induction {P : List UInt8 → Prop} (nil : P [])
    (pair : ∀ a b rest, rest.length % 2 = 0 → P rest → P (a :: b :: rest)) (text : List UInt8)
    (heven : text.length % 2 = 0) : P text := by
  induction text using decodeHex.induct with
  | case1 a b rest ih =>
    have hrest : rest.length % 2 = 0 := by
      simp only [List.length_cons] at heven
      omega
    exact pair a b rest hrest (ih hrest)
  | case2 text hshort =>
    rcases text with _ | ⟨a, _ | ⟨b, rest⟩⟩
    · exact nil
    · cases heven
    · exact absurd rfl (hshort a b rest)

theorem encodeHex_cons (byte : UInt8) (bytes : List UInt8) :
    encodeHex (byte :: bytes) = hexByte (byte >>> 4) :: hexByte (byte &&& 15) :: encodeHex bytes :=
  rfl

theorem encodeHex_length (bytes : List UInt8) : (encodeHex bytes).length = bytes.length * 2 := by
  induction bytes with
  | nil => rfl
  | cons byte rest ih =>
    rw [encodeHex_cons, List.length_cons, List.length_cons, ih, List.length_cons]
    omega

theorem decodeHex_encodeHex (bytes : List UInt8) : decodeHex (encodeHex bytes) = some bytes := by
  induction bytes with
  | nil => rfl
  | cons byte rest ih =>
    obtain ⟨hhi, hlo, hbyte⟩ := byte_digits byte
    rw [encodeHex_cons, decodeHex, digit_hexByte hhi, digit_hexByte hlo, ih]
    simp [hbyte]

example : decodeHex (encodeHex [0x00, 0x7f, 0xff]) = some [0x00, 0x7f, 0xff] := by decide +kernel

/-- A value of even length that decodes is the encoding of its bytes. -/
theorem encodeHex_of_decodeHex {value bytes : List UInt8} (h : decodeHex value = some bytes)
    (heven : value.length % 2 = 0) : encodeHex bytes = value := by
  have hall : ∀ bytes, decodeHex value = some bytes → encodeHex bytes = value := by
    refine pairs_induction ?_ ?_ value heven
    · rintro bytes ⟨⟩
      rfl
    · intro hi lo rest _ ih bytes h
      simp only [decodeHex, Option.bind_eq_bind, Option.bind_eq_some_iff, Option.pure_def,
        Option.some.injEq] at h
      obtain ⟨a, ha, b, hb, tail, htail, rfl⟩ := h
      obtain ⟨hhi, rfl⟩ := hexByte_of_digit ha
      obtain ⟨hlo, rfl⟩ := hexByte_of_digit hb
      obtain ⟨hfst, hsnd⟩ := digits_byte hhi hlo
      rw [encodeHex_cons, hfst, hsnd, ih tail htail]
  exact hall bytes h

/-- A character of a lower-case hexadecimal text. -/
def IsLowerHex (b : UInt8) : Prop :=
  0x30 ≤ b ∧ b ≤ 0x39 ∨ 0x61 ≤ b ∧ b ≤ 0x66

theorem digit_isSome_iff (b : UInt8) : (digit b).isSome = true ↔ IsLowerHex b := by
  unfold digit IsLowerHex
  split
  · simp [*]
  · split
    · simp [*]
    · simp [*]

theorem decodeHex_isSome_iff {value : List UInt8} (heven : value.length % 2 = 0) :
    (decodeHex value).isSome = true ↔ ∀ b ∈ value, IsLowerHex b := by
  refine pairs_induction ?_ ?_ value heven
  · simp [decodeHex]
  · intro hi lo rest _ ih
    rw [decodeHex, List.forall_mem_cons, List.forall_mem_cons, ← digit_isSome_iff,
      ← digit_isSome_iff, ← ih]
    cases digit hi with
    | none => simp
    | some a =>
      cases digit lo with
      | none => simp
      | some b =>
        cases decodeHex rest with
        | none => simp
        | some bytes => simp

theorem decode_encode (key : KeyEncryptionKey) : decode (encode key) = .ok key := by
  have hlength : (encode key).length = valueBytes := by
    unfold encode valueBytes
    rw [List.length_append, encodeHex_length, key.length_eq]
  have hprefix : valuePrefix.isPrefixOf (encode key) = true := by
    rw [List.isPrefixOf_iff_prefix]
    exact List.prefix_append _ _
  have hdrop : (encode key).drop valuePrefix.length = encodeHex key.bytes := List.drop_left
  unfold decode
  rw [dif_pos ⟨hlength, hprefix⟩]
  split
  · rename_i bytes hbytes
    rw [hdrop, decodeHex_encodeHex] at hbytes
    cases hbytes
    rfl
  · rename_i hnone
    rw [hdrop, decodeHex_encodeHex] at hnone
    cases hnone

/-- A key has one value. -/
theorem encode_of_decode {value : List UInt8} {key : KeyEncryptionKey}
    (h : decode value = .ok key) : encode key = value := by
  unfold decode at h
  by_cases hvalue : value.length = valueBytes ∧ valuePrefix.isPrefixOf value = true
  · rw [dif_pos hvalue] at h
    split at h
    · rename_i bytes hbytes
      cases h
      obtain ⟨rest, rfl⟩ := List.isPrefixOf_iff_prefix.1 hvalue.2
      rw [List.drop_left] at hbytes
      have heven : rest.length % 2 = 0 := by
        have hlength := hvalue.1
        unfold valueBytes keyBytes at hlength
        rw [List.length_append] at hlength
        omega
      unfold encode
      rw [encodeHex_of_decodeHex hbytes heven]
    · cases h
  · rw [dif_neg hvalue] at h
    cases h

theorem decode_injective {a b : List UInt8} {key : KeyEncryptionKey} (ha : decode a = .ok key)
    (hb : decode b = .ok key) : a = b := by
  rw [← encode_of_decode ha, encode_of_decode hb]

/-- The values that decode: the prefix, and two lower-case digits for each byte. -/
structure IsKeyValue (value : List UInt8) : Prop where
  length : value.length = valueBytes
  begins : valuePrefix <+: value
  digits : ∀ b ∈ value.drop valuePrefix.length, IsLowerHex b

theorem exists_decode_iff {value : List UInt8} :
    (∃ key, decode value = .ok key) ↔ IsKeyValue value := by
  have heven : value.length = valueBytes → (value.drop valuePrefix.length).length % 2 = 0 := by
    intro hlength
    rw [List.length_drop, hlength]
    rfl
  constructor
  · rintro ⟨key, h⟩
    have hspelled := encode_of_decode h
    unfold decode at h
    split at h
    · rename_i hvalue
      split at h
      · rename_i bytes hbytes
        refine ⟨hvalue.1, List.isPrefixOf_iff_prefix.1 hvalue.2, ?_⟩
        rw [← decodeHex_isSome_iff (heven hvalue.1), hbytes]
        rfl
      · cases h
    · cases h
  · rintro ⟨hlength, hbegins, hdigits⟩
    rw [← decodeHex_isSome_iff (heven hlength)] at hdigits
    unfold decode
    rw [dif_pos ⟨hlength, List.isPrefixOf_iff_prefix.2 hbegins⟩]
    split
    · exact ⟨_, rfl⟩
    · rename_i hnone
      rw [hnone] at hdigits
      cases hdigits

/-- A stored value and the key it stands for determine each other; any other value is refused. -/
structure KeyValuesSpellKeys : Prop where
  decode_encode : ∀ key, decode (encode key) = .ok key
  encode_decode : ∀ value key, decode value = .ok key → encode key = value
  accepted_iff : ∀ value, (∃ key, decode value = .ok key) ↔ IsKeyValue value
  refused : ∀ value, (∀ key, value ≠ encode key) → decode value = .error invalidKeyValue

theorem key_values_spell_keys : KeyValuesSpellKeys where
  decode_encode := decode_encode
  encode_decode _ _ := encode_of_decode
  accepted_iff _ := exists_decode_iff
  refused := by
    intro value hother
    cases h : decode value with
    | ok key => exact absurd (encode_of_decode h).symm (hother key)
    | error error =>
      unfold decode at h
      split at h
      · split at h
        · cases h
        · exact h ▸ rfl
      · exact h ▸ rfl

/-! ## Reads of a call -/

/-- The key store of a slot that stands alone. -/
abbrev aloneStore : KeyStore KeyOperation SlotState :=
  slotStore id id fun _ slot => slot

/-- A call's accesses, each with the slot it found. -/
abbrev KeyTrace :=
  List (KeyOperation × SlotState)

/-- The results of the `read_secret` calls, in order. -/
def secretReads (trace : KeyTrace) : List (Except SourceVaultError (List UInt8)) :=
  trace.filterMap fun access =>
    if access.1 = .readSecret then some access.2.readSecret else none

theorem secretReads_append (a b : KeyTrace) :
    secretReads (a ++ b) = secretReads a ++ secretReads b :=
  List.filterMap_append

theorem secretReads_read (found : SlotState) :
    secretReads [(.readSecret, found)] = [found.readSecret] := rfl

/-- The key is what the last read of the secret decodes to. -/
def DecodesLastRead (key : KeyEncryptionKey) (trace : KeyTrace) : Prop :=
  ∃ value, (secretReads trace).getLast? = some (.ok value) ∧ decode value = .ok key

/-- The last two reads of the secret found the same value in the slot. -/
def LastReadsAgree (trace : KeyTrace) : Prop :=
  ∃ before value, secretReads trace = before ++ [.ok value, .ok value]

/-- The call read `value` twice without noticing a change, and `value` decodes to the key. -/
def ReadTwice (key : KeyEncryptionKey) (trace : KeyTrace) : Prop :=
  ∃ value, secretReads trace = [.ok value, .ok value] ∧ decode value = .ok key

theorem loadExisting_among : (loadExisting aloneStore).Among ReadTwice := by
  unfold loadExisting
  refine Program.among_bind (Program.among_read fun first value hfirst => ?_)
  refine Program.among_bind (Program.among_ofExcept fun key hdecode => ?_)
  refine Program.among_bind (Program.among_read fun labelled _ _ => ?_)
  refine Program.among_bind (Program.among_read fun second recheck hsecond => ?_)
  refine Program.among_bind (Program.among_ofExcept fun _ hsame => ?_)
  refine Program.among_bind (Program.among_read fun relabelled _ _ => ?_)
  refine Program.among_pure ⟨value, ?_, hdecode⟩
  rw [require_eq_ok_iff] at hsame
  subst hsame
  change first.readSecret = .ok value at hfirst
  change second.readSecret = .ok value at hsecond
  simp [secretReads, hfirst, hsecond]

/-- The last two reads of a bootstrap that returns a key: the first of them decodes to the key. -/
def ReadBack (key : KeyEncryptionKey) (trace : KeyTrace) : Prop :=
  ∃ before value final, secretReads trace = before ++ [.ok value, .ok final] ∧
    decode value = .ok key

theorem bootstrap_among (random : Except SourceVaultError KeyEncryptionKey) :
    (bootstrap aloneStore random).Among ReadBack := by
  unfold bootstrap
  refine Program.among_bind (Program.among_of_forall _ fun expected t => ?_)
  refine Program.among_bind (Program.among_read fun written _ _ => ?_)
  refine Program.among_bind (Program.among_ofExcept fun _ _ => ?_)
  refine Program.among_bind (Program.among_of_forall _ fun _ t' => ?_)
  refine Program.among_bind (loadExisting_among.mono fun key t'' hloaded => ?_)
  refine Program.among_bind (Program.among_read fun last final hfinal => ?_)
  refine Program.among_bind (Program.among_ofExcept fun _ _ => Program.among_pure ?_)
  obtain ⟨value, hreads, hdecode⟩ := hloaded
  change last.readSecret = .ok final at hfinal
  refine ⟨secretReads (t ++ ([(id .readSecret, written)] ++ t')) ++ [.ok value], value, final, ?_,
    hdecode⟩
  have hread : secretReads [(id .readSecret, last)] = [.ok final] := by
    rw [← hfinal]
    exact secretReads_read last
  simp only [secretReads_append, hreads, hread, List.append_assoc]
  rfl

/-! ## The returned key -/

/-- A bootstrap that returns the key returns the key of the last read exactly when the slot held
the same value at the last two reads. -/
theorem bootstrap_returns_last_read_iff (random : Except SourceVaultError KeyEncryptionKey)
    (others : Nat → SlotState → SlotState) (slot : SlotState) (key : KeyEncryptionKey)
    (hok : ((bootstrap aloneStore random).runAmong others 0 slot).1 = .ok key) :
    DecodesLastRead key ((bootstrap aloneStore random).runAmong others 0 slot).2 ↔
      LastReadsAgree ((bootstrap aloneStore random).runAmong others 0 slot).2 := by
  obtain ⟨before, value, final, hreads, hdecode⟩ := (bootstrap_among random).run hok
  have hlast : (before ++ [Except.ok value, Except.ok final]).getLast? =
      some (Except.ok final : Except SourceVaultError (List UInt8)) := by
    rw [List.getLast?_append]
    rfl
  unfold DecodesLastRead LastReadsAgree
  rw [hreads, hlast]
  constructor
  · rintro ⟨last, hfinal, hlastDecode⟩
    cases hfinal
    exact ⟨before, value, by rw [decode_injective hlastDecode hdecode]⟩
  · rintro ⟨before', same, hsame⟩
    have htail := (List.append_inj' hsame rfl).2
    cases htail
    exact ⟨_, rfl, hdecode⟩

/-! ## A value that changes and changes back -/

namespace Sample

/-- A key of equal bytes. -/
def repeatedKey (byte : UInt8) : KeyEncryptionKey where
  bytes := List.replicate keyBytes byte
  length_eq := List.length_replicate

/-- A slot that holds the key. -/
def slotWith (key : KeyEncryptionKey) : SlotState where
  secret := some (encode key)
  label := keyLabel
  fault := none
  written := []

/-- Another writer that replaces the first key by the second before the first read of
`loadExisting` and puts it back before the last read of the call. -/
def replacingWriter (first second : KeyEncryptionKey) (access : Nat) (slot : SlotState) :
    SlotState :=
  if access = 3 then { slot with secret := some (encode second) }
  else if access = 7 then { slot with secret := some (encode first) }
  else slot

/-- The bootstrap on a slot that holds the first key. -/
def bootstrapAmong (others : Nat → SlotState → SlotState) :
    Except SourceVaultError KeyEncryptionKey × KeyTrace :=
  (bootstrap aloneStore (.ok (repeatedKey 0))).runAmong others 0 (slotWith (repeatedKey 1))

end Sample

open Sample

/-- The second key is returned although the last read finds the first. -/
theorem replaced_key_is_returned :
    ¬ ∀ (random : Except SourceVaultError KeyEncryptionKey)
      (others : Nat → SlotState → SlotState) (slot : SlotState) (key : KeyEncryptionKey),
      ((bootstrap aloneStore random).runAmong others 0 slot).1 = .ok key →
        DecodesLastRead key ((bootstrap aloneStore random).runAmong others 0 slot).2 := by
  intro hclaim
  have hevaluated : (bootstrapAmong (replacingWriter (repeatedKey 1) (repeatedKey 2))).1 =
        .ok (repeatedKey 2) ∧
      (secretReads (bootstrapAmong (replacingWriter (repeatedKey 1) (repeatedKey 2))).2).getLast? =
        some (.ok (encode (repeatedKey 1))) := by
    decide +kernel
  obtain ⟨value, hlast, hdecode⟩ := hclaim _ _ _ _ hevaluated.1
  have hvalue : (some (.ok value) : Option (Except SourceVaultError (List UInt8))) =
      some (.ok (encode (repeatedKey 1))) := hlast.symm.trans hevaluated.2
  cases hvalue
  rw [decode_encode] at hdecode
  cases hdecode

/-- Nobody interferes: the key of the last read is returned. -/
theorem bootstrap_returns_last_read_alone :
    (bootstrapAmong fun _ slot => slot).1 = .ok (repeatedKey 1) ∧
      (DecodesLastRead (repeatedKey 1) (bootstrapAmong fun _ slot => slot).2 ↔
        LastReadsAgree (bootstrapAmong fun _ slot => slot).2) :=
  have hok : (bootstrapAmong fun _ slot => slot).1 = .ok (repeatedKey 1) := by decide +kernel
  ⟨hok, bootstrap_returns_last_read_iff (.ok (repeatedKey 0)) (fun _ slot => slot)
    (slotWith (repeatedKey 1)) (repeatedKey 1) hok⟩

end RadishMemory
