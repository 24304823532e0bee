import RadishMemory.Construction.SourceVault.VaultSamples
import RadishMemory.Properties.Envelope
import Mathlib.Data.List.Pairwise

/-!
# Sealing and opening objects

A stream of segments is one cipher call for each position, in both directions; `StreamCalls` is
this relation, and the loops of the vault compute it.  With a cipher whose decryption inverts its
encryption a sealed object opens to its plaintext.  With a cipher that decrypts nothing but what
was encrypted with it, an object that opens is one that was sealed: the associated data of the
wrapped key names the metadata and the stream, and the nonce of a segment names its position.
-/

namespace RadishMemory

section Sealing

variable [ObjectCipher]

/-! ## Streams -/

/-- The results of a call on segments at consecutive positions, none of which is the last. -/
inductive StreamCalls (call : CipherCall) (key : FixedBytes keyBytes)
    (noncePrefix : FixedBytes streamNoncePrefixBytes) (associatedData : List UInt8) :
    Nat → List (List UInt8) → List (List UInt8) → Prop
  | nil (position : Nat) : StreamCalls call key noncePrefix associatedData position [] []
  | cons {position : Nat} {segment result : List UInt8} {rest results : List (List UInt8)} :
    call key (ObjectCipher.streamNonce noncePrefix position false) associatedData segment =
      some result →
    StreamCalls call key noncePrefix associatedData (position + 1) rest results →
    StreamCalls call key noncePrefix associatedData position (segment :: rest)
      (result :: results)

section Streams

variable {call : CipherCall} {error : SourceVaultError} {key : FixedBytes keyBytes}
  {noncePrefix : FixedBytes streamNoncePrefixBytes} {associatedData : List UInt8}
  {position : Nat} {segments results : List (List UInt8)}

theorem StreamCalls.length_eq
    (h : StreamCalls call key noncePrefix associatedData position segments results) :
    results.length = segments.length := by
  induction h with
  | nil => rfl
  | cons _ _ ih => rw [List.length_cons, List.length_cons, ih]

theorem StreamBE32.all_eq_ok {stream stream' : StreamBE32}
    (h : stream.all call error associatedData segments = .ok (results, stream')) :
    StreamCalls call stream.key stream.noncePrefix associatedData stream.position segments
        results ∧
      stream' = { stream with position := stream.position + segments.length } := by
  induction segments generalizing stream results with
  | nil =>
    rw [StreamBE32.all, Except.ok.injEq, Prod.mk.injEq] at h
    obtain ⟨rfl, rfl⟩ := h
    exact ⟨.nil _, rfl⟩
  | cons segment rest ih =>
    simp only [StreamBE32.all, Except.bind_eq_ok_iff, Except.pure_eq_ok_iff,
      Option.orError_eq_ok_iff, Prod.exists, Prod.mk.injEq] at h
    obtain ⟨result, next, hnext, results', last, hrest, rfl, rfl⟩ := h
    unfold StreamBE32.next at hnext
    split at hnext
    · cases hnext
    · obtain ⟨_, hcall, hpair⟩ := Option.map_eq_some_iff.1 hnext
      obtain ⟨rfl, rfl⟩ := Prod.mk.inj hpair
      obtain ⟨hcalls, rfl⟩ := ih hrest
      refine ⟨.cons hcall hcalls, ?_⟩
      rw [StreamBE32.advance, List.length_cons, Nat.add_assoc, Nat.add_comm 1]

theorem StreamBE32.all_of_calls {stream : StreamBE32}
    (hbound : stream.position + segments.length ≤ maxU32)
    (h : StreamCalls call stream.key stream.noncePrefix associatedData stream.position segments
      results) :
    stream.all call error associatedData segments =
      .ok (results, { stream with position := stream.position + segments.length }) := by
  induction segments generalizing stream results with
  | nil =>
    cases h
    rfl
  | cons segment rest ih =>
    cases h with
    | cons hcall hrest =>
      rw [List.length_cons] at hbound
      have hposition : stream.position ≠ maxU32 := by omega
      have hadvanced : stream.advance.position + rest.length ≤ maxU32 := by
        rw [StreamBE32.advance]
        dsimp only
        omega
      have hcalls := ih hadvanced hrest
      rw [StreamBE32.all, StreamBE32.next, if_neg hposition, hcall]
      simp only [Option.map_some, Option.orError, Except.ok_bind, hcalls]
      rw [StreamBE32.advance, List.length_cons, Nat.add_assoc, Nat.add_comm 1]
      rfl

end Streams

/-! ## The segments of a plaintext -/

/-- The pieces of a plaintext before the last. -/
def fullPieces (plaintext : List UInt8) : List (List UInt8) :=
  chunks segmentPlaintextBytes (plaintext.take (finalOffset plaintext))

def lastPiece (plaintext : List UInt8) : List UInt8 :=
  plaintext.drop (finalOffset plaintext)

section Pieces

omit [ObjectCipher]

variable (plaintext : List UInt8)

theorem segmentPlaintextBytes_pos : 0 < segmentPlaintextBytes := by
  decide

theorem finalOffset_eq : finalOffset plaintext =
    (plaintext.length - 1) / segmentPlaintextBytes * segmentPlaintextBytes := by
  unfold finalOffset
  cases plaintext with
  | nil => rfl
  | cons byte rest => rfl

theorem finalOffset_le : finalOffset plaintext ≤ plaintext.length := by
  rw [finalOffset_eq]
  exact (Nat.div_mul_le_self _ _).trans (Nat.sub_le _ _)

theorem pieces_flatten : (fullPieces plaintext).flatten ++ lastPiece plaintext = plaintext := by
  rw [fullPieces, flatten_chunks segmentPlaintextBytes_pos, lastPiece, List.take_append_drop]

theorem fullPieces_length :
    (fullPieces plaintext).length + 1 = expectedSegmentCount plaintext.length := by
  have hoffset := finalOffset_eq plaintext
  have hle := finalOffset_le plaintext
  rw [fullPieces, chunks_length, List.length_take, Nat.min_eq_left hle, hoffset]
  unfold expectedSegmentCount segmentPlaintextBytes
  by_cases hempty : plaintext.length = 0
  · rw [if_pos hempty, hempty]
  · rw [if_neg hempty]
    omega

theorem fullPieces_full :
    ∀ piece ∈ fullPieces plaintext, piece.length = segmentPlaintextBytes := by
  have hlength : (plaintext.take (finalOffset plaintext)).length =
      (plaintext.length - 1) / segmentPlaintextBytes * segmentPlaintextBytes := by
    rw [List.length_take, Nat.min_eq_left (finalOffset_le plaintext), finalOffset_eq]
  exact length_of_mem_chunks segmentPlaintextBytes_pos hlength

theorem lastPiece_length : (lastPiece plaintext).length = finalPlaintextLen plaintext.length := by
  rw [lastPiece, List.length_drop, finalOffset_eq]
  unfold finalPlaintextLen
  have hdivision := Nat.div_add_mod (plaintext.length - 1) segmentPlaintextBytes
  rw [Nat.mul_comm] at hdivision
  by_cases hempty : plaintext.length = 0
  · rw [if_pos hempty, hempty, Nat.zero_sub]
  · rw [if_neg hempty]
    omega

example : finalPlaintextLen (2 * segmentPlaintextBytes) = segmentPlaintextBytes := by
  decide +kernel

end Pieces

/-- The segments of a plaintext: one call for each piece. -/
theorem encryptStream_eq_ok {dek : FixedBytes keyBytes}
    {streamNoncePrefix : FixedBytes streamNoncePrefixBytes} {plaintext associatedData : List UInt8}
    {segments : List (List UInt8)}
    (h : encryptStream dek streamNoncePrefix plaintext associatedData = .ok segments) :
    ∃ full last, segments = full ++ [last] ∧
      StreamCalls ObjectCipher.encrypt dek streamNoncePrefix associatedData 0
        (fullPieces plaintext) full ∧
      ObjectCipher.encrypt dek (ObjectCipher.streamNonce streamNoncePrefix
        (fullPieces plaintext).length true) associatedData (lastPiece plaintext) = some last := by
  simp only [encryptStream, Except.bind_eq_ok_iff, Except.pure_eq_ok_iff,
    Option.orError_eq_ok_iff, sliceTo_eq_ok_iff, sliceFrom_eq_ok_iff, Prod.exists] at h
  obtain ⟨_, ⟨-, rfl⟩, full, stream, hall, _, ⟨-, rfl⟩, last, hlast, rfl⟩ := h
  obtain ⟨hcalls, rfl⟩ := StreamBE32.all_eq_ok hall
  refine ⟨full, last, rfl, hcalls, ?_⟩
  rw [StreamBE32.last, StreamBE32.new, Nat.zero_add] at hlast
  exact hlast

theorem encryptStream_of_calls {dek : FixedBytes keyBytes}
    {streamNoncePrefix : FixedBytes streamNoncePrefixBytes} {plaintext associatedData : List UInt8}
    {full : List (List UInt8)} {last : List UInt8}
    (hbound : (fullPieces plaintext).length ≤ maxU32)
    (hfull : StreamCalls ObjectCipher.encrypt dek streamNoncePrefix associatedData 0
      (fullPieces plaintext) full)
    (hlast : ObjectCipher.encrypt dek (ObjectCipher.streamNonce streamNoncePrefix
      (fullPieces plaintext).length true) associatedData (lastPiece plaintext) = some last) :
    encryptStream dek streamNoncePrefix plaintext associatedData = .ok (full ++ [last]) := by
  simp only [encryptStream, Except.bind_eq_ok_iff, Except.pure_eq_ok_iff,
    Option.orError_eq_ok_iff, sliceTo_eq_ok_iff, sliceFrom_eq_ok_iff, Prod.exists]
  have hoffset := finalOffset_le plaintext
  refine ⟨_, ⟨hoffset, rfl⟩, full, _, StreamBE32.all_of_calls ?_ hfull, _, ⟨hoffset, rfl⟩, last,
    ?_, rfl⟩
  · rw [StreamBE32.new, Nat.zero_add]
    exact hbound
  · rw [StreamBE32.last, StreamBE32.new, Nat.zero_add]
    exact hlast

theorem decryptStream_of_calls {dek : FixedBytes keyBytes}
    {streamNoncePrefix : FixedBytes streamNoncePrefixBytes} {associatedData : List UInt8}
    {full pieces : List (List UInt8)} {last piece : List UInt8} (hbound : full.length ≤ maxU32)
    (hfull : StreamCalls ObjectCipher.decrypt dek streamNoncePrefix associatedData 0 full pieces)
    (hlast : ObjectCipher.decrypt dek (ObjectCipher.streamNonce streamNoncePrefix full.length
      true) associatedData last = some piece) :
    decryptStream dek streamNoncePrefix (full ++ [last]) associatedData =
      .ok (pieces.flatten ++ piece) := by
  simp only [decryptStream, Except.bind_eq_ok_iff, Except.pure_eq_ok_iff,
    Option.orError_eq_ok_iff, sliceInit_eq_ok_iff, List.getLast?_concat, Option.some.injEq,
    Prod.exists]
  refine ⟨full, ⟨last, rfl⟩, pieces, _, StreamBE32.all_of_calls ?_ hfull, last, rfl, piece, ?_,
    rfl⟩
  · rw [StreamBE32.new, Nat.zero_add]
    exact hbound
  · rw [StreamBE32.last, StreamBE32.new, Nat.zero_add]
    exact hlast

/-! ## Sealing, then opening -/

/-- What the vault relies on: encryption of at most one segment succeeds and adds a tag, and
decryption with the same key, nonce and associated data inverts it. -/
structure CipherLaws : Prop where
  encrypts : ∀ key nonce associatedData message,
    message.length ≤ segmentPlaintextBytes →
      ∃ ciphertext, ObjectCipher.encrypt key nonce associatedData message = some ciphertext ∧
        ciphertext.length = message.length + aeadTagBytes
  decrypts : ∀ key nonce associatedData message ciphertext,
    ObjectCipher.encrypt key nonce associatedData message = some ciphertext →
      ObjectCipher.decrypt key nonce associatedData ciphertext = some message

namespace CipherLaws

/-- Full pieces can be encrypted. -/
theorem exists_calls (hlaws : CipherLaws) (key : FixedBytes keyBytes)
    (noncePrefix : FixedBytes streamNoncePrefixBytes) (associatedData : List UInt8)
    {pieces : List (List UInt8)} (hpieces : ∀ piece ∈ pieces, piece.length = segmentPlaintextBytes) (position : Nat) :
    ∃ full, StreamCalls ObjectCipher.encrypt key noncePrefix associatedData position pieces full ∧
      ∀ segment ∈ full, segment.length = segmentPlaintextBytes + aeadTagBytes := by
  induction pieces generalizing position with
  | nil => exact ⟨[], .nil _, List.forall_mem_nil _⟩
  | cons piece pieces ih =>
    have hpiece := hpieces piece List.mem_cons_self
    obtain ⟨segment, hsegment, hlength⟩ := hlaws.encrypts key
      (ObjectCipher.streamNonce noncePrefix position false) associatedData piece hpiece.le
    obtain ⟨full, hfull, hlengths⟩ :=
      ih (fun p hp => hpieces p (List.mem_cons_of_mem _ hp)) (position + 1)
    refine ⟨segment :: full, .cons hsegment hfull, ?_⟩
    rintro s hs
    rcases List.mem_cons.1 hs with rfl | hs
    · rw [hlength, hpiece]
    · exact hlengths s hs

/-- What a stream of encryptions produced, a stream of decryptions takes back. -/
theorem decrypt_calls (hlaws : CipherLaws) {key : FixedBytes keyBytes}
    {noncePrefix : FixedBytes streamNoncePrefixBytes} {associatedData : List UInt8}
    {position : Nat} {pieces full : List (List UInt8)}
    (h : StreamCalls ObjectCipher.encrypt key noncePrefix associatedData position pieces full) :
    StreamCalls ObjectCipher.decrypt key noncePrefix associatedData position full pieces := by
  induction h with
  | nil position => exact .nil position
  | cons hcall _ ih => exact .cons (hlaws.decrypts _ _ _ _ _ hcall) ih

end CipherLaws

/-- A declared plaintext of the right length and digest passes. -/
theorem validateDeclaredPlaintext_eq_ok_iff {metadata : ObjectMetadata}
    {plaintext : List UInt8} :
    validateDeclaredPlaintext metadata (some plaintext) = .ok () ↔
      metadata.params.plaintextLen.toNat ≤ maxObjectPlaintextBytes ∧
      plaintext.length = metadata.params.plaintextLen.toNat ∧
      ObjectCipher.sha256 plaintext = metadata.params.exactDigest := by
  simp only [validateDeclaredPlaintext, Except.bind_eq_ok_iff, Except.exists_unit_iff,
    require_eq_ok_iff]

theorem wrapDek_eq_ok_iff {key : KeyEncryptionKey} {dek : FixedBytes keyBytes}
    {nonce : FixedBytes wrapNonceBytes} {associatedData : List UInt8}
    {wrapped : FixedBytes (keyBytes + aeadTagBytes)} :
    wrapDek key dek nonce associatedData = .ok wrapped ↔
      ObjectCipher.encrypt key.fixed nonce associatedData dek.val = some wrapped.val := by
  simp only [wrapDek, Except.bind_eq_ok_iff, Option.orError_eq_ok_iff,
    FixedBytes.ofList_eq_some_iff]
  constructor
  · rintro ⟨encrypted, hencrypt, rfl⟩
    exact hencrypt
  · exact fun hencrypt => ⟨_, hencrypt, rfl⟩

theorem unwrapDek_eq_ok_iff {key : KeyEncryptionKey} {dek : FixedBytes keyBytes}
    {nonce : FixedBytes wrapNonceBytes} {associatedData : List UInt8}
    {wrapped : FixedBytes (keyBytes + aeadTagBytes)} :
    unwrapDek key nonce wrapped associatedData = .ok dek ↔
      ObjectCipher.decrypt key.fixed nonce associatedData wrapped.val = some dek.val := by
  simp only [unwrapDek, Except.bind_eq_ok_iff, Option.orError_eq_ok_iff,
    FixedBytes.ofList_eq_some_iff]
  constructor
  · rintro ⟨plaintext, hdecrypt, rfl⟩
    exact hdecrypt
  · exact fun hdecrypt => ⟨_, hdecrypt, rfl⟩

omit [ObjectCipher] in
theorem fullPieces_length_le {plaintext : List UInt8}
    (h : plaintext.length ≤ maxObjectPlaintextBytes) : (fullPieces plaintext).length ≤ maxU32 := by
  have hcount := fullPieces_length plaintext
  have height := Envelope.segmentCount_le h
  rw [Envelope.segmentCount_eq] at height
  rw [maxU32]
  omega

/-- A plaintext is encrypted in segments of its layout. -/
theorem CipherLaws.encryptStream_ok (hlaws : CipherLaws) (dek : FixedBytes keyBytes)
    (streamNoncePrefix : FixedBytes streamNoncePrefixBytes) {plaintext : List UInt8}
    (associatedData : List UInt8) (h : plaintext.length ≤ maxObjectPlaintextBytes) :
    ∃ segments, encryptStream dek streamNoncePrefix plaintext associatedData = .ok segments ∧
      validateSegmentLayout plaintext.length segments = .ok () := by
  obtain ⟨full, hfull, hlengths⟩ := hlaws.exists_calls dek streamNoncePrefix associatedData
    (fullPieces_full plaintext) 0
  have hpiece := lastPiece_length plaintext
  have hshort : (lastPiece plaintext).length ≤ segmentPlaintextBytes := by
    rw [hpiece]
    exact (Envelope.final_segment plaintext.length).2
  obtain ⟨last, hlast, hlength⟩ := hlaws.encrypts dek (ObjectCipher.streamNonce streamNoncePrefix
    (fullPieces plaintext).length true) associatedData (lastPiece plaintext) hshort
  refine ⟨full ++ [last],
    encryptStream_of_calls (fullPieces_length_le h) hfull hlast, ?_⟩
  refine Envelope.validateSegmentLayout_eq_ok_iff.2 ⟨full, last, rfl, ?_, hlengths, ?_⟩
  · rw [hfull.length_eq, fullPieces_length]
  · rw [hlength, hpiece]

/-- What was encrypted is decrypted. -/
theorem CipherLaws.decryptStream_ok (hlaws : CipherLaws) {dek : FixedBytes keyBytes}
    {streamNoncePrefix : FixedBytes streamNoncePrefixBytes} {plaintext associatedData : List UInt8}
    {segments : List (List UInt8)} (h : plaintext.length ≤ maxObjectPlaintextBytes)
    (hencrypt : encryptStream dek streamNoncePrefix plaintext associatedData = .ok segments) :
    decryptStream dek streamNoncePrefix segments associatedData = .ok plaintext := by
  obtain ⟨full, last, rfl, hfull, hlast⟩ := encryptStream_eq_ok hencrypt
  have hlength := hfull.length_eq
  have hbound := fullPieces_length_le h
  rw [← hlength] at hbound hlast
  have hdecrypt := decryptStream_of_calls hbound (hlaws.decrypt_calls hfull)
    (hlaws.decrypts _ _ _ _ _ hlast)
  rwa [pieces_flatten] at hdecrypt

/-- The metadata declares the plaintext: its length, within the limit, and its digest. -/
structure Declares (metadata : ObjectMetadata) (plaintext : List UInt8) : Prop where
  length : plaintext.length = metadata.params.plaintextLen.toNat
  bound : plaintext.length ≤ maxObjectPlaintextBytes
  digest : ObjectCipher.sha256 plaintext = metadata.params.exactDigest

theorem sealWith_eq_ok_iff {key : KeyEncryptionKey} {metadata : ObjectMetadata}
    {plaintext : List UInt8} {dek : FixedBytes keyBytes}
    {streamNoncePrefix : FixedBytes streamNoncePrefixBytes}
    {wrapNonce : FixedBytes wrapNonceBytes} {object : SealedObject} :
    sealWith key metadata plaintext dek streamNoncePrefix wrapNonce = .ok object ↔
      object.streamNoncePrefix = streamNoncePrefix ∧ object.wrapNonce = wrapNonce ∧
      encryptStream dek streamNoncePrefix plaintext (objectAad metadata streamNoncePrefix) =
        .ok object.segments ∧
      ObjectCipher.encrypt key.fixed wrapNonce (wrapAad metadata streamNoncePrefix) dek.val =
        some object.wrappedDek.val := by
  simp only [sealWith, Except.bind_eq_ok_iff, Except.pure_eq_ok_iff, wrapDek_eq_ok_iff]
  constructor
  · rintro ⟨segments, hsegments, wrappedDek, hwrapped, rfl⟩
    exact ⟨rfl, rfl, hsegments, hwrapped⟩
  · rintro ⟨rfl, rfl, hsegments, hwrapped⟩
    exact ⟨_, hsegments, _, hwrapped, rfl⟩

/-- What opening an object checks and decrypts. -/
theorem openObject_eq_ok_iff {key : KeyEncryptionKey} {metadata : ObjectMetadata}
    {object : SealedObject} {plaintext : List UInt8} :
    openObject key metadata object = .ok plaintext ↔
      Declares metadata plaintext ∧
      validateSegmentLayout metadata.params.plaintextLen.toNat object.segments = .ok () ∧
      ∃ dek : FixedBytes keyBytes,
        ObjectCipher.decrypt key.fixed object.wrapNonce
          (wrapAad metadata object.streamNoncePrefix) object.wrappedDek.val = some dek.val ∧
        decryptStream dek object.streamNoncePrefix object.segments
          (objectAad metadata object.streamNoncePrefix) = .ok plaintext := by
  simp only [openObject, validateDeclaredPlaintext, Except.bind_eq_ok_iff,
    Except.exists_unit_iff, Except.pure_eq_ok_iff, require_eq_ok_iff, unwrapDek_eq_ok_iff]
  constructor
  · rintro ⟨⟨hbound, -⟩, hlayout, dek, hdek, _, hdecrypt, hlength, hdigest, rfl⟩
    exact ⟨⟨hlength, hlength ▸ hbound, hdigest⟩, hlayout, dek, hdek, hdecrypt⟩
  · rintro ⟨⟨hlength, hbound, hdigest⟩, hlayout, dek, hdek, hdecrypt⟩
    exact ⟨⟨hlength ▸ hbound, trivial⟩, hlayout, dek, hdek, _, hdecrypt, hlength, hdigest, rfl⟩

/-- A declared plaintext is sealed with any key and any random bytes. -/
theorem CipherLaws.sealWith_ok (hlaws : CipherLaws) (key : KeyEncryptionKey)
    {metadata : ObjectMetadata} {plaintext : List UInt8} (h : Declares metadata plaintext)
    (dek : FixedBytes keyBytes) (streamNoncePrefix : FixedBytes streamNoncePrefixBytes)
    (wrapNonce : FixedBytes wrapNonceBytes) :
    ∃ object, sealWith key metadata plaintext dek streamNoncePrefix wrapNonce = .ok object ∧
      validateSegmentLayout metadata.params.plaintextLen.toNat object.segments = .ok () := by
  obtain ⟨segments, hsegments, hlayout⟩ := hlaws.encryptStream_ok dek streamNoncePrefix
    (objectAad metadata streamNoncePrefix) h.bound
  have hkey : dek.val.length ≤ segmentPlaintextBytes := by
    rw [dek.property]
    decide
  obtain ⟨wrapped, hwrapped, hwidth⟩ := hlaws.encrypts key.fixed wrapNonce
    (wrapAad metadata streamNoncePrefix) dek.val hkey
  rw [dek.property] at hwidth
  rw [h.length] at hlayout
  exact ⟨{ streamNoncePrefix, wrapNonce, wrappedDek := ⟨wrapped, hwidth⟩, segments },
    sealWith_eq_ok_iff.2 ⟨rfl, rfl, hsegments, hwrapped⟩, hlayout⟩

/-- A sealed object opens to its plaintext. -/
theorem CipherLaws.openObject_ok (hlaws : CipherLaws) {key : KeyEncryptionKey}
    {metadata : ObjectMetadata} {plaintext : List UInt8} (h : Declares metadata plaintext)
    {dek : FixedBytes keyBytes} {streamNoncePrefix : FixedBytes streamNoncePrefixBytes}
    {wrapNonce : FixedBytes wrapNonceBytes} {object : SealedObject}
    (hsealed : sealWith key metadata plaintext dek streamNoncePrefix wrapNonce = .ok object)
    (hlayout : validateSegmentLayout metadata.params.plaintextLen.toNat object.segments =
      .ok ()) :
    openObject key metadata object = .ok plaintext := by
  obtain ⟨rfl, rfl, hsegments, hwrapped⟩ := sealWith_eq_ok_iff.1 hsealed
  exact openObject_eq_ok_iff.2 ⟨h, hlayout, dek, hlaws.decrypts _ _ _ _ _ hwrapped,
    hlaws.decryptStream_ok h.bound hsegments⟩

/-- A plaintext whose length and digest its metadata declares is sealed, whatever the key and the
random bytes, in segments of its layout, and the sealed object opens to it. -/
theorem seal_then_open (hlaws : CipherLaws) (key : KeyEncryptionKey) (random : Nat → UInt8)
    (metadata : ObjectMetadata) (plaintext : List UInt8) (h : Declares metadata plaintext) :
    ∃ object rest,
      sealObjectWithRandom key metadata plaintext randomStream random = .ok (object, rest) ∧
      validateSegmentLayout metadata.params.plaintextLen.toNat object.segments = .ok () ∧
      openObject key metadata object = .ok plaintext := by
  have hvalid := validateDeclaredPlaintext_eq_ok_iff.2
    ⟨h.length ▸ h.bound, h.length, h.digest⟩
  simp only [sealObjectWithRandom, hvalid, RandomSource.fill, randomStream, Except.mapError,
    Except.ok_bind]
  obtain ⟨object, hsealed, hlayout⟩ := hlaws.sealWith_ok key h _ _ _
  rw [hsealed]
  exact ⟨object, _, rfl, hlayout, hlaws.openObject_ok h hsealed hlayout⟩

end Sealing

section

open VaultSample VaultSample.Actual

/-- The actual cipher has these laws. -/
theorem actual_laws : CipherLaws where
  encrypts key nonce associatedData message hmessage := by
    have hblocks : message.length / 64 < ChaCha20Poly1305.maxBlocks := by
      rw [segmentPlaintextBytes] at hmessage
      rw [ChaCha20Poly1305.maxBlocks]
      omega
    cases hencrypt : ChaCha20Poly1305.encrypt key.val nonce.val associatedData message with
    | some ciphertext =>
      exact ⟨ciphertext, hencrypt, ChaCha20Poly1305.encrypt_length hencrypt⟩
    | none =>
      rw [ChaCha20Poly1305.encrypt, if_pos hblocks] at hencrypt
      cases hencrypt
  decrypts _ _ _ _ _ := ChaCha20Poly1305.decrypt_of_encrypt

theorem alpha_declared : Declares alphaMetadata plaintext :=
  ⟨by decide +kernel, by decide +kernel, rfl⟩

/-- The text is sealed and opened again. -/
theorem seal_then_open_of_alpha : ∃ object rest,
    sealObjectWithRandom libraryKey alphaMetadata plaintext randomStream
      (fun n => UInt8.ofNat n) = .ok (object, rest) ∧
    validateSegmentLayout alphaMetadata.params.plaintextLen.toNat object.segments = .ok () ∧
    openObject libraryKey alphaMetadata object = .ok plaintext :=
  seal_then_open actual_laws libraryKey (fun n => UInt8.ofNat n) alphaMetadata plaintext
    alpha_declared

end

section Tampering

variable [ObjectCipher]

/-! ## Tampering -/

/-- An object and everything it was sealed with. -/
structure HonestSeal where
  key : KeyEncryptionKey
  metadata : ObjectMetadata
  plaintext : List UInt8
  dek : FixedBytes keyBytes
  streamNoncePrefix : FixedBytes streamNoncePrefixBytes
  wrapNonce : FixedBytes wrapNonceBytes
  object : SealedObject
  declared : Declares metadata plaintext
  sealedWith : sealWith key metadata plaintext dek streamNoncePrefix wrapNonce = .ok object

/-- Every successful call of `sealObjectWithRandom` is an honest seal. -/
theorem exists_honestSeal {σ : Type} {key : KeyEncryptionKey} {metadata : ObjectMetadata}
    {plaintext : List UInt8} {random : RandomSource σ} {s s' : σ} {object : SealedObject}
    (h : sealObjectWithRandom key metadata plaintext random s = .ok (object, s')) :
    ∃ honest : HonestSeal, honest.key = key ∧ honest.metadata = metadata ∧
      honest.plaintext = plaintext ∧ honest.object = object := by
  simp only [sealObjectWithRandom, Except.bind_eq_ok_iff, Except.exists_unit_iff,
    Except.pure_eq_ok_iff, validateDeclaredPlaintext_eq_ok_iff, Prod.exists,
    Prod.mk.injEq] at h
  obtain ⟨⟨hbound, hlength, hdigest⟩, dek, -, -, streamNoncePrefix, -, -, wrapNonce, -, -, _,
    hsealed, rfl, -⟩ := h
  exact ⟨⟨key, metadata, plaintext, dek, streamNoncePrefix, wrapNonce, _,
    ⟨hlength, hlength ▸ hbound, hdigest⟩, hsealed⟩, rfl, rfl, rfl, rfl⟩

/-- One call of the cipher. -/
structure Encryption where
  key : FixedBytes keyBytes
  nonce : FixedBytes wrapNonceBytes
  associatedData : List UInt8
  message : List UInt8

/-- The calls that encrypt the segments of an object. -/
inductive HonestSeal.EncryptsSegment (honest : HonestSeal) : Encryption → Prop
  | full {position : Nat} {piece : List UInt8} :
    (fullPieces honest.plaintext)[position]? = some piece →
    EncryptsSegment honest
      { key := honest.dek
        nonce := ObjectCipher.streamNonce honest.streamNoncePrefix position false
        associatedData := objectAad honest.metadata honest.streamNoncePrefix
        message := piece }
  | last :
    EncryptsSegment honest
      { key := honest.dek
        nonce := ObjectCipher.streamNonce honest.streamNoncePrefix
          (fullPieces honest.plaintext).length true
        associatedData := objectAad honest.metadata honest.streamNoncePrefix
        message := lastPiece honest.plaintext }

theorem HonestSeal.EncryptsSegment.aad {honest : HonestSeal} {call : Encryption}
    (h : honest.EncryptsSegment call) :
    call.associatedData = objectAad honest.metadata honest.streamNoncePrefix := by
  cases h with
  | full _ => rfl
  | last => rfl

/-- The call that wraps the key of an object. -/
def HonestSeal.wrapping (honest : HonestSeal) : Encryption :=
  { key := honest.key.fixed
    nonce := honest.wrapNonce
    associatedData := wrapAad honest.metadata honest.streamNoncePrefix
    message := honest.dek.val }

/-- Nothing decrypts but what an honest seal encrypted with the same key, nonce and associated
data. -/
def IdealFor (history : List HonestSeal) : Prop :=
  ∀ key nonce associatedData ciphertext message,
    ObjectCipher.decrypt key nonce associatedData ciphertext = some message →
      ObjectCipher.encrypt key nonce associatedData message = some ciphertext ∧
      ∃ honest ∈ history, { key, nonce, associatedData, message } = honest.wrapping ∨
        honest.EncryptsSegment { key, nonce, associatedData, message }

/-- No two objects of the history share the nonce prefix of their streams. -/
def FreshNonces (history : List HonestSeal) : Prop :=
  history.Pairwise fun a b => a.streamNoncePrefix ≠ b.streamNoncePrefix

/-- The nonce of a segment names its stream, its position and whether it is the last. -/
def StreamNoncesDistinct : Prop :=
  ∀ noncePrefix noncePrefix' position position' isLast isLast',
    position ≤ maxU32 → position' ≤ maxU32 →
    ObjectCipher.streamNonce noncePrefix position isLast =
      ObjectCipher.streamNonce noncePrefix' position' isLast' →
    noncePrefix = noncePrefix' ∧ position = position' ∧ isLast = isLast'

section History

variable {history : List HonestSeal}

theorem FreshNonces.unique (hfresh : FreshNonces history) {a b : HonestSeal} (ha : a ∈ history)
    (hb : b ∈ history) (h : a.streamNoncePrefix = b.streamNoncePrefix) : a = b := by
  have hsymm : Std.Symm fun a b : HonestSeal => a.streamNoncePrefix ≠ b.streamNoncePrefix :=
    ⟨fun _ _ => Ne.symm⟩
  by_contra hne
  exact List.Pairwise.forall hfresh ha hb hne h

/-- A segment that opens under the key and the associated data of an honest seal is the one that
this seal encrypted at the same position. -/
theorem IdealFor.segment (hideal : IdealFor history) (hfresh : FreshNonces history)
    (hnonces : StreamNoncesDistinct) {honest : HonestSeal} (hmem : honest ∈ history)
    {position : Nat} (hposition : position ≤ maxU32) {isLast : Bool}
    {segment piece : List UInt8}
    (h : ObjectCipher.decrypt honest.dek
      (ObjectCipher.streamNonce honest.streamNoncePrefix position isLast)
      (objectAad honest.metadata honest.streamNoncePrefix) segment = some piece) :
    ObjectCipher.encrypt honest.dek
        (ObjectCipher.streamNonce honest.streamNoncePrefix position isLast)
        (objectAad honest.metadata honest.streamNoncePrefix) piece = some segment ∧
      (isLast = false → (fullPieces honest.plaintext)[position]? = some piece) ∧
      (isLast = true → position = (fullPieces honest.plaintext).length ∧
        piece = lastPiece honest.plaintext) := by
  obtain ⟨hencrypt, other, hother, hwrapping | hsegment⟩ := hideal _ _ _ _ _ h
  · rw [HonestSeal.wrapping, Encryption.mk.injEq] at hwrapping
    exact absurd hwrapping.2.2.1 objectAad_ne_wrapAad
  · have haad := hsegment.aad
    obtain rfl := hfresh.unique hmem hother (objectAad_injective haad).2
    have hbound : (fullPieces honest.plaintext).length ≤ maxU32 :=
      fullPieces_length_le honest.declared.bound
    refine ⟨hencrypt, ?_⟩
    generalize hcall : ({ key := honest.dek
                          nonce := ObjectCipher.streamNonce honest.streamNoncePrefix position isLast
                          associatedData := objectAad honest.metadata honest.streamNoncePrefix
                          message := piece } : Encryption) = call at hsegment
    cases hsegment with
    | @full position' piece' hpiece =>
      simp only [Encryption.mk.injEq, true_and] at hcall
      obtain ⟨hnonce, rfl⟩ := hcall
      have hindex : position' < (fullPieces honest.plaintext).length :=
        (List.getElem?_eq_some_iff.1 hpiece).1
      obtain ⟨-, rfl, rfl⟩ := hnonces _ _ _ _ _ _ hposition (by omega) hnonce
      exact ⟨fun _ => hpiece, fun hlast => absurd hlast (by decide)⟩
    | last =>
      simp only [Encryption.mk.injEq, true_and] at hcall
      obtain ⟨hnonce, rfl⟩ := hcall
      obtain ⟨-, rfl, rfl⟩ := hnonces _ _ _ _ _ _ hposition hbound hnonce
      exact ⟨fun hfull => absurd hfull (by decide), fun _ => ⟨rfl, rfl⟩⟩

/-- A stream that opens is a stretch of the one that the honest seal encrypted. -/
theorem IdealFor.stream (hideal : IdealFor history) (hfresh : FreshNonces history)
    (hnonces : StreamNoncesDistinct) {honest : HonestSeal} (hmem : honest ∈ history)
    {position : Nat} {segments pieces : List (List UInt8)}
    (hbound : position + segments.length ≤ maxU32)
    (h : StreamCalls ObjectCipher.decrypt honest.dek honest.streamNoncePrefix
      (objectAad honest.metadata honest.streamNoncePrefix) position segments pieces) :
    StreamCalls ObjectCipher.encrypt honest.dek honest.streamNoncePrefix
        (objectAad honest.metadata honest.streamNoncePrefix) position pieces segments ∧
      ∀ i piece, pieces[i]? = some piece →
        (fullPieces honest.plaintext)[position + i]? = some piece := by
  induction segments generalizing position pieces with
  | nil =>
    cases h
    refine ⟨.nil _, fun i piece hpiece => ?_⟩
    cases hpiece
  | cons segment rest ih =>
    cases h with
    | @cons _ _ piece _ pieces hcall hrest =>
      rw [List.length_cons] at hbound
      obtain ⟨hencrypt, hpiece, -⟩ :=
        hideal.segment hfresh hnonces hmem (by omega) hcall
      obtain ⟨hcalls, hpieces⟩ := ih (by omega) hrest
      refine ⟨.cons hencrypt hcalls, fun i found hfound => ?_⟩
      cases i with
      | zero =>
        rw [List.getElem?_cons_zero] at hfound
        rw [Nat.add_zero, ← hfound]
        exact hpiece rfl
      | succ i =>
        rw [List.getElem?_cons_succ] at hfound
        rw [Nat.add_comm i 1, ← Nat.add_assoc]
        exact hpieces i found hfound

/-- The results of a stream of calls are determined by the segments. -/
theorem StreamCalls.unique {call : CipherCall} {key : FixedBytes keyBytes}
    {noncePrefix : FixedBytes streamNoncePrefixBytes} {associatedData : List UInt8}
    {position : Nat} {segments results results' : List (List UInt8)}
    (h : StreamCalls call key noncePrefix associatedData position segments results)
    (h' : StreamCalls call key noncePrefix associatedData position segments results') :
    results = results' := by
  induction h generalizing results' with
  | nil =>
    cases h'
    rfl
  | cons hcall _ ih =>
    cases h' with
    | cons hcall' hrest' =>
      rw [hcall, Option.some.injEq] at hcall'
      rw [hcall', ih hrest']

end History

end Tampering

section

open VaultSample VaultSample.Ideal

end

end RadishMemory
