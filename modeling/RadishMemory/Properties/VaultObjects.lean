import RadishMemory.Properties.VaultReads

/-!
# The object of one source

What recovers, retires or publishes the object of one source keeps the encrypted library sound,
wherever it stops.  The database shows the objects as items (`Shows`); from the version of captures
on one of them is prepared at most.
-/

namespace RadishMemory

open DurableFiles ObjectEntry VaultIo

variable [Platform] [ObjectCipher] {key : KeyEncryptionKey} {origin db : VaultDatabase}
  {vault : Vault} {namespaceId sourceId : Identifier} {e : ObjectEntry}

/-! ## Rules -/

section Rules

variable {α β : Type} {I : Vault → Prop} {Q : α → Vault → Prop}

omit [Platform] [ObjectCipher] in
theorem upholds_commit {body : VaultDatabase → Except SqliteError (α × VaultDatabase)}
    (hI : I vault)
    (h : ∀ a db', body vault.database = .ok (a, db') →
      I { vault with database := db' } ∧ Q a { vault with database := db' }) :
    (commit body).Upholds I Q vault := by
  apply Program.upholds_transact hI
  intro a vault' hbody
  simp only [Except.bind_eq_ok_iff, Except.mapError_eq_ok_iff, Except.pure_eq_ok_iff,
    Prod.mk.injEq, Prod.exists] at hbody
  obtain ⟨a', db', hok, rfl, rfl⟩ := hbody
  exact h a' db' hok

omit [Platform] [ObjectCipher] in
theorem upholds_update {Q : Unit → Vault → Prop}
    {body : VaultDatabase → Except SqliteError VaultDatabase} (hI : I vault)
    (h : ∀ db', body vault.database = .ok db' →
      I { vault with database := db' } ∧ Q () { vault with database := db' }) :
    (update body).Upholds I Q vault := by
  apply upholds_commit hI
  intro _ db' hbody
  simp only [Except.bind_eq_ok_iff, Except.pure_eq_ok_iff, Prod.mk.injEq] at hbody
  obtain ⟨db'', hok, -, rfl⟩ := hbody
  exact h db'' hok

omit [Platform] [ObjectCipher] in
theorem upholds_update_bind {body : VaultDatabase → Except SqliteError VaultDatabase}
    {f : Unit → VaultIo α} (hI : I vault)
    (h : ∀ db', body vault.database = .ok db' → I { vault with database := db' } ∧
      (f ()).Upholds I Q { vault with database := db' }) :
    (update body >>= f).Upholds I Q vault := by
  refine (upholds_update (Q := fun _ vault' => ∃ db', body vault.database = .ok db' ∧
    vault' = { vault with database := db' }) hI ?_).bind ?_
  · intro db' hbody
    exact ⟨(h db' hbody).1, db', hbody, rfl⟩
  · rintro _ _ _ ⟨db', hbody, rfl⟩
    exact (h db' hbody).2

/-- A program on the files of one object that keeps it at its stage. -/
theorem upholds_objects {p : ObjectIo α} {J : VaultFiles → Prop} {R : α → VaultFiles → Prop}
    {x : Publication VaultDirectory String} (h : Sound key origin vault)
    (he : vault.database.entry sourceId = some e) (hx : e.Publishes key x)
    (hp : p.Upholds J R vault.files)
    (hJ : ∀ files, J files → vault.files.Endures x.places files ∧ x.At files) :
    (VaultIo.objects p).Upholds (Sound key origin)
      (fun a vault' => ∃ files, vault' = { vault with files } ∧ R a files) vault := by
  unfold VaultIo.objects VaultIo.files FilesIo.objects
  refine hp.mapError.on ?_ ?_
  · intro files hfiles
    exact h.files he hx (hJ files hfiles).1 (hJ files hfiles).2
  · intro a files _ hR
    exact ⟨files, rfl, hR⟩

end Rules

/-! ## Items -/

/-- The item has the names and the metadata of the entry. -/
structure Names (db : VaultDatabase) (item : CaptureObject) (e : ObjectEntry) : Prop where
  entry : db.entry item.sourceId = some e
  tokens : e.row.tokens = some item.tokens
  metadata : e.row.metadata = item.metadata

/-- The item is what the database shows of the entry. -/
structure Shows (db : VaultDatabase) (item : CaptureObject) (e : ObjectEntry) : Prop extends
    Names db item e where
  state : e.row.phase.objectState e.deletion = .ok item.state

omit [Platform] [ObjectCipher] in
theorem shows_of_objectOf {item : CaptureObject} {row : ObjectAttemptRow} (hdb : db.Lifecycle)
    (hrow : row ∈ db.objectAttempts) (h : db.objectOf row = .ok item) :
    ∃ e, e.row = row ∧ Shows db item e := by
  simp only [VaultDatabase.objectOf, Except.bind_eq_ok_iff, Option.orError_eq_ok_iff,
    Except.pure_eq_ok_iff, hdb.knownDeletion] at h
  obtain ⟨tokens, htokens, state, hstate, rfl⟩ := h
  exact ⟨⟨row, _⟩, rfl, ⟨VaultDatabase.entry_eq_some_iff.2
    ⟨VaultDatabase.attemptOf_eq_some_iff.2 ⟨hrow, rfl⟩, rfl⟩, htokens, rfl⟩, hstate⟩

omit [Platform] [ObjectCipher] in
theorem shows_of_objects {items : List CaptureObject} {item : CaptureObject}
    (hdb : db.Lifecycle) (h : db.objects = .ok items) (hitem : item ∈ items) :
    ∃ e, Shows db item e := by
  obtain ⟨row, hrow, hobject⟩ := List.Forall₂.exists_of_mem_right (List.mapM_eq_ok_iff.1 h) hitem
  rw [List.mem_insertionSort] at hrow
  obtain ⟨e, -, he⟩ := shows_of_objectOf hdb hrow hobject
  exact ⟨e, he⟩

omit [Platform] [ObjectCipher] in
theorem Shows.prepared {item : CaptureObject} (h : Shows db item e)
    (hstate : item.state = .prepared) : e.row.phase = .prepared ∧ e.deletion = none := by
  obtain ⟨row, deletion⟩ := e
  have hshown := h.state
  rw [hstate] at hshown
  cases deletion with
  | some state => cases state <;> cases hshown
  | none =>
    refine ⟨?_, rfl⟩
    cases hphase : row.phase <;> simp_all [AttemptPhase.objectState]

omit [Platform] [ObjectCipher] in
/-- From the version of captures on, one attempt is prepared at most. -/
theorem prepared_unique {a b : ObjectAttemptRow} (hversion : captureSchemaVersion ≤ db.version)
    (ha : a ∈ db.objectAttempts) (hb : b ∈ db.objectAttempts) (hpa : a.phase = .prepared)
    (hpb : b.phase = .prepared) : a = b := by
  have hcount := db.attemptsValid.onePending
  rw [List.countP_eq_length_filter] at hcount
  have hmem : ∀ row ∈ db.objectAttempts, row.phase = .prepared →
      row ∈ db.objectAttempts.filter fun row => row.phase.isPending db.version := by
    intro row hrow hphase
    rw [List.mem_filter, hphase]
    exact ⟨hrow, decide_eq_true hversion⟩
  have hina := hmem a ha hpa
  have hinb := hmem b hb hpb
  match hlist : db.objectAttempts.filter fun row => row.phase.isPending db.version with
  | [] =>
    rw [hlist] at hina
    cases hina
  | [row] =>
    rw [hlist, List.mem_singleton] at hina hinb
    rw [hina, hinb]
  | _ :: _ :: _ =>
    rw [hlist] at hcount
    simp only [List.length_cons] at hcount
    omega

/-! ## The files of one object -/

section Files

variable {tokens : ObjectTokens} {metadata : ObjectMetadata}

/-- A recovery, of an object that is not published yet or has only its staging link left. -/
theorem upholds_recovery {α : Type} {p : ObjectIo α} (h : Sound key origin vault)
    (he : vault.database.entry sourceId = some e) (htokens : e.row.tokens = some tokens)
    (hmetadata : e.row.metadata = .ok metadata)
    (hstage : e.row.phase.stage e.deletion = .resumable ∨
      e.row.phase.stage e.deletion = .published)
    (hp : ∀ number, vault.files.Resumable
        (Authentic tokens.objectLocator tokens.attemptId metadata key)
        (stagingPath tokens.objectLocator tokens.attemptId) (objectPath tokens.objectLocator)
        number → p.Upholds
      (Recovering tokens.objectLocator tokens.attemptId metadata key vault.files number)
      (fun _ files => HasPublished tokens.objectLocator tokens.attemptId metadata key vault.files
        files number) vault.files) :
    (VaultIo.objects p).Upholds (Sound key origin)
      (fun _ vault' => ∃ files, vault' = { vault with files } ∧ ∀ x, e.Publishes key x →
        ∃ number, files.Published x.good x.staging x.final number) vault := by
  have hx : e.Publishes key (objectPublication key tokens metadata
    (e.row.phase.stage e.deletion)) := .of_tokens htokens hmetadata
  have hat := h.at_stage he hx
  obtain ⟨number, hresumable, hpublished⟩ : ∃ number,
      vault.files.Resumable (Authentic tokens.objectLocator tokens.attemptId metadata key)
        (stagingPath tokens.objectLocator tokens.attemptId) (objectPath tokens.objectLocator)
        number ∧ (e.row.phase.stage e.deletion = .published →
          vault.files.Published (Authentic tokens.objectLocator tokens.attemptId metadata key)
            (stagingPath tokens.objectLocator tokens.attemptId) (objectPath tokens.objectLocator)
            number) := by
    rcases hstage with hstage | hstage
    · rw [hstage] at hat
      obtain ⟨number, hnumber⟩ := hat
      exact ⟨number, hnumber, fun heq => by rw [hstage] at heq; cases heq⟩
    · rw [hstage] at hat
      obtain ⟨number, hnumber⟩ := hat
      exact ⟨number, hnumber.resumable, fun _ => hnumber⟩
  refine (upholds_objects h he hx (hp number hresumable) ?_).mono ?_
  · intro files hfiles
    refine ⟨hfiles.endures, ?_⟩
    rcases hstage with hstage | hstage
    · rw [hstage]
      exact ⟨number, hfiles.resumable⟩
    · rw [hstage]
      exact ⟨number, hfiles.kept (hpublished hstage)⟩
  · rintro _ _ _ ⟨files, rfl, hdone⟩
    refine ⟨files, rfl, ?_⟩
    intro x hx'
    rw [hx'.unique hx]
    exact ⟨number, hdone.published⟩

theorem recoverObject_upholds {item : CaptureObject} (h : Sound key origin vault)
    (hitem : Names vault.database item e)
    (hstage : e.row.phase.stage e.deletion = .resumable ∨
      e.row.phase.stage e.deletion = .published) :
    (recoverObject item key).Upholds (Sound key origin)
      (fun _ vault' => ∃ files, vault' = { vault with files } ∧ ∀ x, e.Publishes key x →
        ∃ number, files.Published x.good x.staging x.final number) vault := by
  refine Program.upholds_ofExcept_bind h ?_
  intro metadata hmetadata
  refine upholds_recovery h hitem.entry hitem.tokens (hitem.metadata.trans hmetadata) hstage ?_
  intro number hresumable
  exact (finishAttempt_upholds hresumable).bind fun _ _ hI hdone => Program.upholds_pure hI hdone

/-- A retirement, of an object that the database has given up. -/
theorem retireObject_upholds {item : CaptureObject} (h : Sound key origin vault)
    (hitem : Names vault.database item e)
    (hstage : e.row.phase.stage e.deletion = .unfinished ∨
      e.row.phase.stage e.deletion = .gone) :
    (retireObject item key).Upholds (Sound key origin)
      (fun _ vault' => ∃ files, vault' = { vault with files } ∧ ∀ x, e.Publishes key x →
        files.Gone x.staging x.final) vault := by
  refine Program.upholds_ofExcept_bind h ?_
  intro metadata hmetadata
  have hx : e.Publishes key (objectPublication key item.tokens metadata
    (e.row.phase.stage e.deletion)) := .of_tokens hitem.tokens (hitem.metadata.trans hmetadata)
  obtain ⟨number, hunfinished⟩ := (h.at_stage hitem.entry hx).unfinished
  have hat := h.at_stage hitem.entry hx
  refine (upholds_objects h hitem.entry hx (retireAttempt_upholds hunfinished) ?_).mono ?_
  · intro files hfiles
    refine ⟨hfiles.endures, ?_⟩
    rcases hstage with hstage | hstage
    · rw [hstage]
      exact ⟨number, hfiles.unfinished⟩
    · rw [hstage] at hat ⊢
      exact hfiles.kept hat
  · rintro _ _ _ ⟨files, rfl, -, hgone⟩
    refine ⟨files, rfl, ?_⟩
    intro x hx'
    rw [hx'.unique hx]
    exact hgone

end Files

/-! ## Capturing -/

section Capture

variable {request : SourceCapture} {random : RandomSource Nat} {sources : List SourceArtifact}

/-- What is prepared for the source of a request has the metadata of its source. -/
def MetadataAgree (db : VaultDatabase) (request : SourceCapture) : Prop :=
  ∀ row, db.entry request.params.source.params.sourceId = some ⟨row, none⟩ →
    row.phase = .prepared → row.request.isSome = true →
      row.metadata = metadataForSource request.params.source

omit [ObjectCipher] in
theorem MetadataAgree.same {db' : VaultDatabase} (h : MetadataAgree db request)
    (hsame : VaultDatabase.SameObjects db db') : MetadataAgree db' request := by
  intro row he
  rw [hsame.entry] at he
  exact h row he

omit [Platform] [ObjectCipher] in
/-- An attempt has a request from the version of captures on, unless it was migrated. -/
theorem request_isSome {row : ObjectAttemptRow} (hversion : captureSchemaVersion ≤ db.version)
    (hrow : row ∈ db.objectAttempts) (hphase : row.phase = .prepared) :
    row.request.isSome = true := by
  have hcheck := db.attemptsValid.checked row hrow
  simp only [ObjectAttemptRow.check, if_neg (Nat.not_lt.2 hversion), Bool.and_eq_true, hphase]
    at hcheck
  cases hrequest : row.request with
  | none =>
    rw [hrequest] at hcheck
    exact absurd hcheck.2.2 (by decide)
  | some _ => rfl

omit [Platform] [ObjectCipher] in
theorem captureSchemaVersion_le {row : ObjectAttemptRow} (hrow : row ∈ db.objectAttempts)
    (hrequest : row.request.isSome = true) : captureSchemaVersion ≤ db.version := by
  have hcheck := db.attemptsValid.checked row hrow
  by_contra hversion
  simp only [ObjectAttemptRow.check, if_pos (Nat.not_le.1 hversion), Bool.and_eq_true] at hcheck
  have hnone := hcheck.2.2
  cases hvalue : row.request with
  | none =>
    rw [hvalue] at hrequest
    cases hrequest
  | some _ =>
    rw [hvalue] at hnone
    cases hnone

omit [ObjectCipher] in
theorem metadataAgree_of_decide {result : SourceArtifact × SourceCaptureOutcome}
    (hdb : db.Lifecycle) (h : db.decide namespaceId request sources = .ok result) :
    MetadataAgree db request := by
  intro row he hphase hrequest
  simp only [VaultDatabase.decide, Except.bind_eq_ok_iff, Except.exists_unit_iff,
    require_eq_ok_iff] at h
  obtain ⟨-, -, _, -, -, h⟩ := h
  obtain ⟨hattempt, -⟩ := VaultDatabase.entry_eq_some_iff.1 he
  have hrow := (VaultDatabase.entry_row he).1
  rw [if_pos (captureSchemaVersion_le hrow hrequest)] at h
  obtain ⟨repeated, hrepeated, -⟩ := Except.bind_eq_ok_iff.1 h
  obtain ⟨stored, hstored⟩ := Option.isSome_iff_exists.1 hrequest
  simp only [VaultDatabase.decideRepeated, hattempt, hstored, Option.bind_some, Option.map_some,
    Except.bind_eq_ok_iff, Except.exists_unit_iff, require_eq_ok_iff,
    Option.orError_eq_ok_iff] at hrepeated
  obtain ⟨-, -, -, -, items, hitems, item, hitem, hsame, -⟩ := hrepeated
  have hsource : item.sourceId = request.params.source.params.sourceId := by
    simpa using List.find?_some hitem
  obtain ⟨e, hshows⟩ := shows_of_objects hdb hitems (List.mem_of_find?_eq_some hitem)
  have hentry := hshows.entry
  rw [hsource, he] at hentry
  obtain rfl := Option.some.inj hentry
  refine hshows.metadata.trans ?_
  unfold CaptureObject.metadata metadataForSource
  rw [hsame.1, hsame.2.1, hsame.2.2.1, hsame.2.2.2, hsource]

/-- Nothing is left of the attempts that are prepared. -/
def PreparedGone (key : KeyEncryptionKey) (vault : Vault) : Prop :=
  ∀ sourceId row x, captureSchemaVersion ≤ vault.database.version →
    vault.database.entry sourceId = some ⟨row, none⟩ → row.phase = .prepared →
    ObjectEntry.Publishes key ⟨row, none⟩ x → vault.files.Gone x.staging x.final

theorem seal_ok {metadata : ObjectMetadata} {body : List UInt8} {s s' : Nat} {write : ObjectWrite}
    (h : ObjectWrite.seal key metadata body random s = .ok (write, s')) :
    write.metadata = metadata := by
  simp only [ObjectWrite.seal, ObjectWrite.fromSealed, Except.bind_eq_ok_iff,
    Except.pure_eq_ok_iff, Prod.exists, Prod.mk.injEq] at h
  obtain ⟨_, -, _, _, -, _, ⟨_, -, rfl⟩, rfl, -⟩ := h
  rfl

/-- An attempt gets the tokens of an object that is not published yet, while nothing is left of
the attempt that it had before. -/
theorem Sound.prepare {tokens : ObjectTokens} {row : ObjectAttemptRow} {db' : VaultDatabase}
    (h : Sound key origin vault)
    (hphase : row.phase = .prepared) (htokens : row.tokens = some tokens)
    (hmoved : VaultDatabase.Moved vault.database db' sourceId ⟨row, none⟩)
    (hold : ∀ e x, vault.database.entry sourceId = some e → e.Publishes key x →
      vault.files.Gone x.staging x.final) :
    Sound key origin { vault with database := db' } ∧
      (∀ metadata, row.metadata = .ok metadata → vault.files.Gone
        (stagingPath tokens.objectLocator tokens.attemptId) (objectPath tokens.objectLocator)) := by
  have hnew : db'.entry sourceId = some ⟨row, none⟩ := by rw [hmoved.entry, Function.update_self]
  have hothers : ∀ other, other ≠ sourceId → db'.entry other = vault.database.entry other := by
    intro other hother
    rw [hmoved.entry, Function.update_of_ne hother]
  have hgone : vault.files.Gone (stagingPath tokens.objectLocator tokens.attemptId)
      (objectPath tokens.objectLocator) := by
    have hplace : ∀ place ∈ attemptPlaces tokens.objectLocator tokens.attemptId,
        ∀ entry ∈ vault.files.outcomes place, entry = none := by
      intro place hplace
      by_cases hfound : ∃ x ∈ vault.database.publications key, place ∈ x.places
      · obtain ⟨x, ⟨other, e, he, hx⟩, hin⟩ := hfound
        by_cases hsame : other = sourceId
        · subst hsame
          have hgone := hold e x he hx
          rcases hin with rfl | rfl
          · exact hgone.atStaging
          · exact hgone.atFinal
        · obtain ⟨tokens', metadata, htokens', -, rfl⟩ := hx
          exact absurd (VaultDatabase.entry_of_place ((hothers other hsame).trans he) hnew
            htokens' htokens hin hplace) hsame
      · exact h.tracked.strangers place fun x hx hin => hfound ⟨x, hx, hin⟩
    exact ⟨hplace _ staging_mem, hplace _ object_mem⟩
  refine ⟨h.replace hmoved.lifecycle ?_ ?_ ?_, fun _ _ => hgone⟩
  · intro other
    by_cases hsame : other = sourceId
    · subst hsame
      rw [hnew]
      exact .single hmoved.move
    · rw [hothers other hsame]
  · intro other e x he hx
    by_cases hsame : other = sourceId
    · subst hsame
      rw [hnew] at he
      obtain rfl := Option.some.inj he
      obtain ⟨tokens', metadata, htokens', -, rfl⟩ := hx
      obtain rfl := Option.some.inj (htokens.symm.trans htokens')
      right
      change (objectPublication key tokens metadata (row.phase.stage none)).At vault.files
      rw [hphase]
      exact ⟨0, hgone.resumable 0⟩
    · rw [hothers other hsame] at he
      exact .inl he
  · intro other e x he hx
    by_cases hsame : other = sourceId
    · subst hsame
      exact .inr (hold e x he hx)
    · exact .inl ⟨e, x, (hothers other hsame).trans he, hx, rfl⟩

/-- A body is sealed and published, once its tokens are stored. -/
theorem publishBody_upholds {metadata : ObjectMetadata} {body : List UInt8} {s : Nat}
    {prepare : ObjectTokens → VaultDatabase → Except SqliteError VaultDatabase}
    (h : Sound key origin vault)
    (hprepare : ∀ tokens db', prepare tokens vault.database = .ok db' → ∃ row,
      row.phase = .prepared ∧ row.tokens = some tokens ∧ row.metadata = .ok metadata ∧
        VaultDatabase.Moved vault.database db' sourceId ⟨row, none⟩ ∧
        ∀ e x, vault.database.entry sourceId = some e → e.Publishes key x →
          vault.files.Gone x.staging x.final) :
    (publishBody key metadata body random s prepare).Upholds (Sound key origin)
      (fun result vault' => ∃ row, row.phase = .prepared ∧ row.tokens = some result.1 ∧
        row.metadata = .ok metadata ∧ vault'.database.entry sourceId = some ⟨row, none⟩ ∧
        (∀ other, other ≠ sourceId → vault'.database.entry other = vault.database.entry other) ∧
        ∀ x, ObjectEntry.Publishes key ⟨row, none⟩ x →
          ∃ number, vault'.files.Published x.good x.staging x.final number) vault := by
  refine Program.upholds_ofExcept_bind h ?_
  rintro ⟨write, s'⟩ hseal
  have hwrite := seal_ok (Except.mapError_eq_ok_iff.1 hseal)
  refine upholds_update_bind h ?_
  intro db' hdb'
  obtain ⟨row, hphase, htokens, hmetadata, hmoved, hold⟩ := hprepare _ db' hdb'
  obtain ⟨hsound, hgone⟩ := h.prepare hphase htokens hmoved hold
  refine ⟨hsound, ?_⟩
  have he : db'.entry sourceId = some ⟨row, none⟩ := by rw [hmoved.entry, Function.update_self]
  have hx : ObjectEntry.Publishes key ⟨row, none⟩ (objectPublication key
    ⟨write.locator.token, write.attempt.token⟩ metadata (row.phase.stage none)) :=
    .of_tokens htokens hmetadata
  have hwritten : (publish write key).Upholds
      (Left write.locator write.attempt metadata key vault.files)
      (fun _ fs => ∃ number, HasPublished write.locator write.attempt metadata key vault.files fs
        number) vault.files := by
    rw [← hwrite]
    exact publish_upholds (hgone metadata hmetadata)
  refine Program.Upholds.bind (upholds_objects hsound he hx hwritten ?_) ?_
  · rintro files ⟨number, hfiles⟩
    refine ⟨hfiles.endures, ?_⟩
    rw [hphase]
    exact ⟨number, hfiles.resumable⟩
  · rintro _ _ hI ⟨files, rfl, number, hpublished⟩
    refine Program.upholds_pure hI ⟨row, hphase, htokens, hmetadata, he, ?_, ?_⟩
    · intro other hother
      change db'.entry other = _
      rw [hmoved.entry, Function.update_of_ne hother]
    · intro x hx'
      rw [hx'.unique hx]
      exact ⟨number, hpublished.published⟩

/-! ## The pending object -/

omit [Platform] [ObjectCipher] in
theorem pendingObject_ok {pending : Option CaptureObject}
    (h : (pendingObject.run vault).1 = .ok pending) :
    ∃ items, vault.database.objects = .ok items ∧ items.find? (·.state == .prepared) = pending := by
  have hasked := ask_ok h
  simp only [Except.bind_eq_ok_iff, Except.pure_eq_ok_iff] at hasked
  exact hasked

omit [Platform] [ObjectCipher] in
theorem readOnly_pendingObject : pendingObject.ReadOnly :=
  readOnly_ask _

omit [Platform] [ObjectCipher] in
/-- The pending object is that of a prepared attempt. -/
theorem shows_of_pending {item : CaptureObject} (hdb : vault.database.Lifecycle)
    (h : (pendingObject.run vault).1 = .ok (some item)) :
    ∃ row, Shows vault.database item ⟨row, none⟩ ∧ row.phase = .prepared := by
  obtain ⟨items, hitems, hfind⟩ := pendingObject_ok h
  obtain ⟨e, hshows⟩ := shows_of_objects hdb hitems (List.mem_of_find?_eq_some hfind)
  obtain ⟨hphase, hdeletion⟩ := hshows.prepared (by simpa using List.find?_some hfind)
  obtain ⟨row, deletion⟩ := e
  obtain rfl : deletion = none := hdeletion
  exact ⟨row, hshows, hphase⟩

omit [Platform] [ObjectCipher] in
/-- Without a pending object no attempt is prepared. -/
theorem not_prepared_of_pending {row : ObjectAttemptRow} (hdb : vault.database.Lifecycle)
    (h : (pendingObject.run vault).1 = .ok none)
    (he : vault.database.entry sourceId = some ⟨row, none⟩) : row.phase ≠ .prepared := by
  intro hphase
  obtain ⟨items, hitems, hfind⟩ := pendingObject_ok h
  have hrow := (VaultDatabase.entry_row he).1
  obtain ⟨item, hmem, hobject⟩ := List.Forall₂.exists_of_mem_left (List.mapM_eq_ok_iff.1 hitems)
    ((List.mem_insertionSort _).2 hrow)
  obtain ⟨e, hsame, hshows⟩ := shows_of_objectOf hdb hrow hobject
  obtain rfl : item.sourceId = sourceId := by
    rw [← (VaultDatabase.entry_row hshows.entry).2, ← (VaultDatabase.entry_row he).2, hsame]
  have hstate := hshows.state
  rw [Option.some.inj (hshows.entry.symm.trans he)] at hstate
  rw [hphase] at hstate
  have hprepared : item.state = .prepared := (Except.ok.inj hstate).symm
  have hnot := List.find?_eq_none.1 hfind item hmem
  rw [hprepared] at hnot
  exact hnot rfl

theorem inspectObject_ok {item : CaptureObject} {state : AttemptState}
    (h : ((inspectObject item key).run vault).1 = .ok state) :
    ∃ metadata, item.metadata = .ok metadata ∧
      ((inspectAttempt item.tokens.objectLocator item.tokens.attemptId metadata key).run
        vault.files).1 = .ok state := by
  unfold inspectObject VaultIo.files CaptureObject.inspect at h
  rw [Program.run_on] at h
  obtain ⟨metadata, hmetadata, hinspect⟩ := Program.run_bind_eq_ok_iff.1 h
  refine ⟨metadata, hmetadata, ?_⟩
  unfold FilesIo.objects at hinspect
  rw [Program.run_mapError] at hinspect
  exact Except.mapError_eq_ok_iff.1 hinspect

/-- An object that is not published yet, and of which nothing is found. -/
theorem Sound.gone_of_absent {item : CaptureObject} (h : Sound key origin vault)
    (hitem : Names vault.database item e) (hstage : e.row.phase.stage e.deletion = .resumable)
    (habsent : ((inspectObject item key).run vault).1 = .ok .absent)
    {x : Publication VaultDirectory String} (hx : e.Publishes key x) :
    vault.files.Gone x.staging x.final := by
  obtain ⟨metadata, hmetadata, hinspect⟩ := inspectObject_ok habsent
  have hsame := hx.unique (.of_tokens hitem.tokens (hitem.metadata.trans hmetadata))
  subst hsame
  obtain ⟨hstaging, hfinal⟩ := inspectAttempt_absent hinspect
  have hat := h.at_stage hitem.entry hx
  rw [hstage] at hat
  obtain ⟨number, hresumable⟩ := hat
  exact hresumable.gone hstaging hfinal

end Capture

end RadishMemory
