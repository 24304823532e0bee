import RadishMemory.Construction.SourceVault.Crypto

/-!
# Associated data is a faithful name

The two strings of associated data determine the metadata and the nonce prefix they were made of,
and no string of the one domain is one of the other.  Both are sequences of tagged fields, so all
of it follows from the fields being readable.
-/

namespace RadishMemory

/-! ## The fields fit -/

/-- The texts of checked metadata fit in the length of a field. -/
theorem metadata_bounded (metadata : ObjectMetadata) :
    ∀ value ∈ [metadata.params.namespaceId, metadata.params.sourceId,
      metadata.params.mediaType], (utf8Bytes value).length < 2 ^ 32 := by
  intro value hvalue
  have hbound := (require_eq_ok_iff.1 (checkAll_eq_ok_iff.1 metadata.valid value hvalue)).2
  rw [maxU32] at hbound
  omega

/-- The lengths of the texts that do not depend on an object. -/
theorem profiles_bounded :
    ([objectAadDomain, wrapAadDomain, envelopeProfile, objectCipherProfile, dekWrapProfile,
      providerProfile, digestProfile].all fun text =>
        decide ((utf8Bytes text).length < 2 ^ 32)) = true := by
  decide +kernel

section Fields

variable (metadata : ObjectMetadata) (streamNoncePrefix : FixedBytes streamNoncePrefixBytes)

theorem objectAadFields_fit : FieldsFit (objectAadFields metadata streamNoncePrefix) := by
  have hbounded := metadata_bounded metadata
  have hprofiles := profiles_bounded
  have hdigest := metadata.params.exactDigest.property
  have hprefix := streamNoncePrefix.property
  simp only [List.mem_cons, List.not_mem_nil, or_false, forall_eq_or_imp, forall_eq] at hbounded
  simp only [List.all_cons, List.all_nil, Bool.and_true, Bool.and_eq_true, decide_eq_true_eq]
    at hprofiles
  simp only [FieldsFit, objectAadFields, List.mem_cons, List.not_mem_nil, or_false,
    forall_eq_or_imp, forall_eq, bigEndian_length, hdigest, hprefix, streamNoncePrefixBytes]
  omega

theorem wrapAadFields_fit : FieldsFit (wrapAadFields metadata streamNoncePrefix) := by
  have hbounded := metadata_bounded metadata
  have hprofiles := profiles_bounded
  have hdigest := metadata.params.exactDigest.property
  have hprefix := streamNoncePrefix.property
  simp only [List.mem_cons, List.not_mem_nil, or_false, forall_eq_or_imp, forall_eq] at hbounded
  simp only [List.all_cons, List.all_nil, Bool.and_true, Bool.and_eq_true, decide_eq_true_eq]
    at hprofiles
  simp only [FieldsFit, wrapAadFields, List.mem_cons, List.not_mem_nil, or_false,
    forall_eq_or_imp, forall_eq, bigEndian_length, hdigest, hprefix, streamNoncePrefixBytes]
  omega

theorem objectAad_eq : objectAad metadata streamNoncePrefix =
    aadCodecPrefix ++ taggedFields (objectAadFields metadata streamNoncePrefix) :=
  foldl_taggedField _ _

theorem wrapAad_eq : wrapAad metadata streamNoncePrefix =
    aadCodecPrefix ++ taggedFields (wrapAadFields metadata streamNoncePrefix) :=
  foldl_taggedField _ _

end Fields

/-! ## Reading them back -/

variable {metadata metadata' : ObjectMetadata}
  {streamNoncePrefix streamNoncePrefix' : FixedBytes streamNoncePrefixBytes}

/-- Metadata with the same encoded fields is the same. -/
theorem metadata_eq_of_fields
    (hnamespace : utf8Bytes metadata.params.namespaceId = utf8Bytes metadata'.params.namespaceId)
    (hsource : utf8Bytes metadata.params.sourceId = utf8Bytes metadata'.params.sourceId)
    (hdigest : metadata.params.exactDigest.val = metadata'.params.exactDigest.val)
    (hlength : bigEndian 8 metadata.params.plaintextLen.toNat =
      bigEndian 8 metadata'.params.plaintextLen.toNat)
    (hmedia : utf8Bytes metadata.params.mediaType = utf8Bytes metadata'.params.mediaType) :
    metadata = metadata' := by
  obtain ⟨⟨namespaceId, sourceId, exactDigest, plaintextLen, mediaType⟩, hvalid⟩ := metadata
  obtain ⟨⟨namespaceId', sourceId', exactDigest', plaintextLen', mediaType'⟩, hvalid'⟩ := metadata'
  have hwidth : plaintextLen.toNat = plaintextLen'.toNat :=
    bigEndian_inj plaintextLen.toNat_lt plaintextLen'.toNat_lt hlength
  obtain rfl := utf8Bytes_injective hnamespace
  obtain rfl := utf8Bytes_injective hsource
  obtain rfl := utf8Bytes_injective hmedia
  obtain rfl : exactDigest = exactDigest' := Subtype.ext hdigest
  obtain rfl : plaintextLen = plaintextLen' := UInt64.toNat_inj.1 hwidth
  rfl

theorem objectAad_injective
    (h : objectAad metadata streamNoncePrefix = objectAad metadata' streamNoncePrefix') :
    metadata = metadata' ∧ streamNoncePrefix = streamNoncePrefix' := by
  rw [objectAad_eq, objectAad_eq] at h
  have hlength : (objectAadFields metadata streamNoncePrefix).length =
      (objectAadFields metadata' streamNoncePrefix').length := rfl
  have hfields := taggedFields_inj hlength (objectAadFields_fit metadata streamNoncePrefix)
    (objectAadFields_fit metadata' streamNoncePrefix') (List.append_cancel_left h)
  simp only [objectAadFields, List.cons.injEq, Prod.mk.injEq, true_and, and_true] at hfields
  obtain ⟨hnamespace, hsource, hdigest, hlength, hmedia, hprefix⟩ := hfields
  exact ⟨metadata_eq_of_fields hnamespace hsource hdigest hlength hmedia, Subtype.ext hprefix⟩

theorem wrapAad_injective
    (h : wrapAad metadata streamNoncePrefix = wrapAad metadata' streamNoncePrefix') :
    metadata = metadata' ∧ streamNoncePrefix = streamNoncePrefix' := by
  rw [wrapAad_eq, wrapAad_eq] at h
  have hlength : (wrapAadFields metadata streamNoncePrefix).length =
      (wrapAadFields metadata' streamNoncePrefix').length := rfl
  have hfields := taggedFields_inj hlength (wrapAadFields_fit metadata streamNoncePrefix)
    (wrapAadFields_fit metadata' streamNoncePrefix') (List.append_cancel_left h)
  simp only [wrapAadFields, List.cons.injEq, Prod.mk.injEq, true_and, and_true] at hfields
  obtain ⟨hnamespace, hsource, hdigest, hlength, hmedia, hprefix⟩ := hfields
  exact ⟨metadata_eq_of_fields hnamespace hsource hdigest hlength hmedia, Subtype.ext hprefix⟩

/-- The first fields, the domains, tell the two apart. -/
theorem objectAad_ne_wrapAad :
    objectAad metadata streamNoncePrefix ≠ wrapAad metadata' streamNoncePrefix' := by
  intro h
  rw [objectAad_eq, wrapAad_eq] at h
  have hdomain := (taggedField_append_inj
    (objectAadFields_fit metadata streamNoncePrefix _ List.mem_cons_self)
    (wrapAadFields_fit metadata' streamNoncePrefix' _ List.mem_cons_self)
    (List.append_cancel_left h)).2.1
  exact absurd (utf8Bytes_injective hdomain) (by decide)

/-- Associated data says which object and which stream it is for, and for which of its two uses. -/
theorem associated_data_identifies (metadata metadata' : ObjectMetadata)
    (streamNoncePrefix streamNoncePrefix' : FixedBytes streamNoncePrefixBytes) :
    (objectAad metadata streamNoncePrefix = objectAad metadata' streamNoncePrefix' ↔
      metadata = metadata' ∧ streamNoncePrefix = streamNoncePrefix') ∧
    (wrapAad metadata streamNoncePrefix = wrapAad metadata' streamNoncePrefix' ↔
      metadata = metadata' ∧ streamNoncePrefix = streamNoncePrefix') ∧
    objectAad metadata streamNoncePrefix ≠ wrapAad metadata' streamNoncePrefix' := by
  refine ⟨⟨objectAad_injective, ?_⟩, ⟨wrapAad_injective, ?_⟩, objectAad_ne_wrapAad⟩
  · rintro ⟨rfl, rfl⟩
    rfl
  · rintro ⟨rfl, rfl⟩
    rfl

end RadishMemory
