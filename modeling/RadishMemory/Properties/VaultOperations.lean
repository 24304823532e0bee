import RadishMemory.Properties.VaultObjects

/-!
# The operations of the encrypted library keep it sound

Every operation, wherever it stops: what a capture, an abandonment, a reconciliation and a
deletion do to the files of an object is allowed by the state that the database has then, and the
state changes only when the files are where the new state wants them.
-/

namespace RadishMemory

open DurableFiles ObjectEntry VaultIo

variable [Platform] [ObjectCipher] {key : KeyEncryptionKey} {origin : VaultDatabase}
  {vault : Vault} {namespaceId deviceId sourceId : Identifier} {e : ObjectEntry}

/-! ## Capturing -/

section Capture

variable {request : SourceCapture} {random : RandomSource Nat} {sources : List SourceArtifact}

omit [Platform] [ObjectCipher] in
/-- An entry that is prepared anew was planned or prepared. -/
theorem unfinished_of_move {row : ObjectAttemptRow} (h : Move (some e) (some ⟨row, none⟩))
    (hphase : row.phase = .prepared) :
    e.deletion = none ∧ (e.row.phase = .planned ∨ e.row.phase = .prepared) := by
  cases h with
  | prepared tokens hrow => exact ⟨rfl, hrow⟩
  | referenced | retired | committed | abandoning | abandoned => cases hphase

omit [Platform] [ObjectCipher] in
theorem phase_ne_planned {db : VaultDatabase} {row : ObjectAttemptRow}
    (hversion : captureSchemaVersion ≤ db.version) (hrow : row ∈ db.objectAttempts) :
    row.phase ≠ .planned := by
  intro hphase
  have hcheck := db.attemptsValid.checked row hrow
  simp only [ObjectAttemptRow.check, Bool.and_eq_true, hphase, AttemptPhase.allowedAt,
    decide_eq_true_eq] at hcheck
  exact Nat.not_lt.2 hversion hcheck.1.2

/-- The row that a capture prepares has the metadata of its source, and nothing is left of what
the source had before. -/
theorem prepareCapture_prepared {metadata : ObjectMetadata} (h : Sound key origin vault)
    (hagree : MetadataAgree vault.database request) (hgone : PreparedGone key vault)
    (hmetadata : metadataForSource request.params.source = .ok metadata) :
    ∀ tokens db', vault.database.prepareCapture request tokens = .ok db' → ∃ row,
      row.phase = .prepared ∧ row.tokens = some tokens ∧ row.metadata = .ok metadata ∧
        VaultDatabase.Moved vault.database db' request.params.source.params.sourceId
          ⟨row, none⟩ ∧
        ∀ e x, vault.database.entry request.params.source.params.sourceId = some e →
          e.Publishes key x → vault.files.Gone x.staging x.final := by
  intro tokens db' hdb'
  obtain ⟨row, hversion, hphase, htokens, hmoved, hrow⟩ :=
    VaultDatabase.prepareCapture_ok h.lifecycle hdb'
  refine ⟨row, hphase, htokens, ?_, hmoved, ?_⟩
  · rcases hrow with rfl | ⟨old, he, hold, rfl⟩
    · exact hmetadata
    · exact (hagree old he hold (request_isSome hversion (VaultDatabase.entry_row he).1
        hold)).trans hmetadata
  · rintro ⟨old, deletion⟩ x he hx
    have hmove := hmoved.move
    rw [he] at hmove
    obtain ⟨rfl, hplanned | hprepared⟩ := unfinished_of_move hmove hphase
    · exact absurd hplanned (phase_ne_planned hversion (VaultDatabase.entry_row he).1)
    · exact hgone _ old x hversion he hprepared hx

theorem publishNew_upholds (h : Sound key origin vault)
    (hagree : MetadataAgree vault.database request) (hgone : PreparedGone key vault) :
    (publishNew request key random).Upholds (Sound key origin) (fun _ _ => True) vault := by
  refine Program.upholds_ofExcept_bind h ?_
  intro metadata hmetadata
  refine Program.Upholds.bind (publishBody_upholds h
    (prepareCapture_prepared h hagree hgone hmetadata)) ?_
  intro _ _ hI _
  exact Program.upholds_pure hI trivial

theorem publishCapture_upholds (h : Sound key origin vault)
    (hagree : MetadataAgree vault.database request) :
    (publishCapture request key random).Upholds (Sound key origin) (fun _ _ => True) vault := by
  refine readOnly_pendingObject.upholds_bind h ?_
  intro pending hpending
  cases pending with
  | none =>
    refine publishNew_upholds h hagree ?_
    intro sourceId row x _ he hphase
    exact absurd hphase (not_prepared_of_pending h.lifecycle hpending he)
  | some item =>
    obtain ⟨row, hshows, hphase⟩ := shows_of_pending h.lifecycle hpending
    have hstage : row.phase.stage none = .resumable := by rw [hphase]; rfl
    refine (readOnly_inspectObject item key).upholds_bind h ?_
    intro state hstate
    split
    · rename_i habsent
      subst habsent
      refine publishNew_upholds h hagree ?_
      intro sourceId other x hversion he hprepared hx
      obtain rfl := prepared_unique hversion (VaultDatabase.entry_row he).1
        (VaultDatabase.entry_row hshows.entry).1 hprepared hphase
      exact h.gone_of_absent hshows.toNames hstage hstate hx
    · exact (recoverObject_upholds h hshows.toNames (.inl hstage)).mono fun _ _ _ _ => trivial

theorem initializeSchema_upholds (h : Sound key origin vault) :
    (initializeSchema namespaceId).Upholds (Sound key origin)
      (fun _ vault' => VaultDatabase.SameObjects vault.database vault'.database) vault := by
  refine upholds_update_bind h ?_
  intro db' hdb'
  have hsame := VaultDatabase.initializeCaptureSchema_ok hdb'
  exact ⟨h.same hsame, (readOnly_ask _).upholds (h.same hsame) fun _ _ => hsame⟩

/-- The object of the source of a request is committed. -/
def Captured (request : SourceCapture) (db : VaultDatabase) : Prop :=
  ∃ row, db.entry request.params.source.params.sourceId = some ⟨row, none⟩ ∧
    row.phase = .committed

theorem captureNew_upholds (h : Sound key origin vault)
    (hagree : MetadataAgree vault.database request) :
    (captureNew namespaceId request key sources random).Upholds (Sound key origin)
      (fun _ vault' => Captured request vault'.database) vault := by
  refine (initializeSchema_upholds h).bind ?_
  intro _ initialized h hsame
  refine (publishCapture_upholds h (hagree.same hsame)).bind ?_
  intro _ published h _
  refine readOnly_pendingObject.upholds_bind h ?_
  intro pending hpending
  refine Program.upholds_ofExcept_bind h ?_
  intro item hitem
  obtain rfl := Option.orError_eq_ok_iff.1 hitem
  obtain ⟨row, hshows, hphase⟩ := shows_of_pending h.lifecycle hpending
  have hstage : row.phase.stage none = .resumable := by rw [hphase]; rfl
  refine (recoverObject_upholds h hshows.toNames (.inl hstage)).bind ?_
  rintro _ _ h ⟨files, rfl, hpublished⟩
  refine Program.Upholds.bind (P := fun _ vault' => Captured request vault'.database)
    (upholds_commit h ?_) ?_
  · intro outcome db' hdb'
    obtain ⟨committed, hversion, he, hprepared, hmoved⟩ :=
      VaultDatabase.commitCapture_ok h.lifecycle hdb'
    obtain rfl := prepared_unique hversion (VaultDatabase.entry_row he).1
      (VaultDatabase.entry_row hshows.entry).1 hprepared hphase
    refine ⟨h.advance he hmoved rfl rfl ?_, _, by rw [hmoved.entry, Function.update_self], rfl⟩
    rintro x ⟨tokens, metadata, htokens, hmetadata, rfl⟩
    have hdone := hpublished (objectPublication key tokens metadata (committed.phase.stage none))
      (.of_tokens htokens hmetadata)
    exact hdone
  · intro _ _ h hcaptured
    refine (readOnly_verifyAll _ _).upholds_bind h ?_
    intro _ _
    refine Program.upholds_ofExcept_bind h ?_
    intro _ _
    exact Program.upholds_pure h hcaptured

/-- The key that a session loads is the key of the library. -/
def Loads (key : KeyEncryptionKey) (loadExisting : Except SourceVaultError KeyEncryptionKey) :
    Prop :=
  ∀ loaded, loadExisting = .ok loaded → loaded = key

variable {loadExisting : Except SourceVaultError KeyEncryptionKey}

/-- A session that has been opened. -/
theorem upholds_session {α : Type} {f : KeyEncryptionKey → VaultIo α} {Q : α → Vault → Prop}
    (h : Sound key origin vault) (hkey : Loads key loadExisting)
    (hf : (f key).Upholds (Sound key origin) Q vault) :
    (loadKey loadExisting >>= f).Upholds (Sound key origin) Q vault := by
  refine Program.upholds_ofExcept_bind h ?_
  intro loaded hloaded
  rw [hkey loaded (Except.mapError_eq_ok_iff.1 hloaded)]
  exact hf

theorem capture_upholds (h : Sound key origin vault) (hkey : Loads key loadExisting) :
    (capture namespaceId deviceId request loadExisting random).Upholds (Sound key origin)
      (fun result vault' => result.outcome ≠ .idempotent → Captured request vault'.database)
      vault := by
  refine (readOnly_ask _).upholds_bind h fun _ _ => upholds_session h hkey ?_
  refine (readOnly_verifyAll _ _).upholds_bind h ?_
  intro sources _
  refine (readOnly_ask _).upholds_bind h ?_
  rintro ⟨selected, outcome⟩ hdecided
  dsimp only
  split
  · rename_i hidempotent
    exact Program.upholds_pure h fun hnew => absurd hidempotent hnew
  · exact (captureNew_upholds h (metadataAgree_of_decide h.lifecycle (ask_ok hdecided))).mono
      fun _ _ _ hcaptured _ => hcaptured

end Capture

/-! ## Abandoning -/

section Abandonment

variable {target : CaptureAbandonmentTarget}
  {loadExisting : Except SourceVaultError KeyEncryptionKey}

/-- An abandonment begins at any time, and ends when nothing is left of the object. -/
theorem transition_upholds {finish : Bool} (h : Sound key origin vault)
    (hgone : ∀ row x, vault.database.entry target.sourceId = some ⟨row, none⟩ →
      row.phase = .abandoning → finish = true → ObjectEntry.Publishes key ⟨row, none⟩ x →
        vault.files.Gone x.staging x.final) :
    (transition namespaceId target finish).Upholds (Sound key origin)
      (fun _ vault' => vault'.files = vault.files ∧ ∃ row,
        vault'.database.entry target.sourceId = some ⟨row, none⟩ ∧
          (row.phase = .abandoning ∨ row.phase = .abandoned)) vault := by
  refine Program.Upholds.bind (P := fun _ vault' => vault'.files = vault.files ∧ ∃ row,
    vault'.database.entry target.sourceId = some ⟨row, none⟩ ∧
      (row.phase = .abandoning ∨ row.phase = .abandoned)) (upholds_commit h ?_) ?_
  · intro changed db' hdb'
    rcases VaultDatabase.transitionAbandonment_ok h.lifecycle hdb' with
      ⟨rfl, row, he, hphase⟩ | ⟨row, he, hphase, hmoved⟩
    · exact ⟨h, rfl, row, he, hphase⟩
    · have hnew : db'.entry target.sourceId =
          some ⟨{ row with phase := if finish then .abandoned else .abandoning }, none⟩ := by
        rw [hmoved.entry, Function.update_self]
      refine ⟨h.advance he hmoved rfl rfl ?_, rfl, _, hnew, ?_⟩
      · rintro x ⟨tokens, metadata, htokens, hmetadata, rfl⟩
        have hold : ObjectEntry.Publishes key ⟨row, none⟩ (objectPublication key tokens metadata
          (row.phase.stage none)) := .of_tokens htokens hmetadata
        cases finish with
        | true =>
          have hleft := hgone row _ he hphase rfl hold
          exact hleft
        | false =>
          obtain ⟨number, hunfinished⟩ := (h.at_stage he hold).unfinished
          exact ⟨number, hunfinished⟩
      · cases finish with
        | true => exact .inr rfl
        | false => exact .inl rfl
  · intro changed vault' h' hchanged
    split
    · exact (readOnly_ask _).upholds h' fun _ _ => hchanged
    · exact Program.upholds_pure h' hchanged

omit [ObjectCipher] in
/-- The item of an abandonment is the entry of its source. -/
theorem shows_of_abandonmentItem {item : CaptureObject} (hdb : vault.database.Lifecycle)
    (h : vault.database.abandonmentItem namespaceId target = .ok item) :
    ∃ e, vault.database.entry target.sourceId = some e ∧ Shows vault.database item e := by
  obtain ⟨row, hrow, hobject, -⟩ := VaultDatabase.abandonmentItem_ok h
  obtain ⟨hmem, hsource⟩ := VaultDatabase.attemptOf_eq_some_iff.1 hrow
  obtain ⟨e, rfl, hshows⟩ := shows_of_objectOf hdb hmem hobject
  have hitem := (VaultDatabase.entry_row hshows.entry).2
  refine ⟨e, ?_, hshows⟩
  rw [← hsource, hitem]
  exact hshows.entry

theorem abandonObject_upholds (h : Sound key origin vault) :
    (abandonObject namespaceId target key).Upholds (Sound key origin) (fun _ _ => True)
      vault := by
  refine (transition_upholds h fun _ _ _ _ hfinish => by cases hfinish).bind ?_
  rintro _ begun h ⟨-, row, he, hphase⟩
  refine (readOnly_ask _).upholds_bind h ?_
  intro item hitem
  obtain ⟨e, he', hshows⟩ := shows_of_abandonmentItem h.lifecycle (ask_ok hitem)
  obtain rfl := Option.some.inj (he.symm.trans he')
  refine (readOnly_verifyAll _ _).upholds_bind h ?_
  intro _ _
  have hstage : row.phase.stage none = .unfinished ∨ row.phase.stage none = .gone := by
    rcases hphase with hphase | hphase <;> rw [hphase]
    · exact .inl rfl
    · exact .inr rfl
  refine (retireObject_upholds h hshows.toNames hstage).bind ?_
  rintro _ _ h ⟨files, rfl, hgone⟩
  refine (readOnly_verifyAll _ _).upholds_bind h ?_
  intro _ _
  refine (readOnly_requireAbsent _ _ _).upholds_bind h ?_
  intro _ _
  refine (transition_upholds h ?_).mono fun _ _ _ _ => trivial
  intro other x hother _ _ hx
  obtain rfl : row = other := congrArg ObjectEntry.row (Option.some.inj (he.symm.trans hother))
  exact hgone x hx

theorem abandon_upholds (h : Sound key origin vault) (hkey : Loads key loadExisting) :
    (abandon namespaceId deviceId target loadExisting).Upholds (Sound key origin)
      (fun _ vault' => ∃ row, vault'.database.entry target.sourceId = some ⟨row, none⟩ ∧
        row.phase = .abandoned) vault := by
  refine (readOnly_ask _).upholds_bind h fun _ _ => (readOnly_ask _).upholds_bind h ?_
  intro item _
  refine upholds_session h hkey ?_
  refine (readOnly_verifyAll _ _).upholds_bind h ?_
  intro _ _
  have hrest : ∀ vault', Sound key origin vault' → (do
      let _ ← verifyAll namespaceId key
      let last ← ask fun db => db.abandonmentItem namespaceId target
      VaultIo.check (require (last.state = .abandoned)
        (.object (.returned (.vault .attemptMismatch) "abandonment incomplete")))
      return item.state == .abandoned : VaultIo Bool).Upholds (Sound key origin)
        (fun _ vault' => ∃ row, vault'.database.entry target.sourceId = some ⟨row, none⟩ ∧
          row.phase = .abandoned) vault' := by
    intro vault' h'
    refine (readOnly_verifyAll _ _).upholds_bind h' fun _ _ => ?_
    refine (readOnly_ask _).upholds_bind h' fun last hlast => ?_
    refine Program.upholds_ofExcept_bind h' fun _ hstate => ?_
    rw [require_eq_ok_iff] at hstate
    refine Program.upholds_pure h' ?_
    obtain ⟨row, he, hphase⟩ := VaultDatabase.abandonmentItem_entry h'.lifecycle (ask_ok hlast)
    rw [hstate] at hphase
    exact ⟨row, he, by simpa using hphase⟩
  dsimp only
  split
  · exact (abandonObject_upholds h).bind fun _ vault' h' _ => hrest vault' h'
  · exact hrest vault h

end Abandonment

/-! ## Reconciling -/

section Reconciliation

variable {loadExisting : Except SourceVaultError KeyEncryptionKey}

/-- A committed object loses at most its staging link. -/
theorem cleanupObject_upholds {item : CaptureObject} (h : Sound key origin vault)
    (hitem : Names vault.database item e) :
    (cleanupObject key item).Upholds (Sound key origin)
      (fun _ vault' => vault'.database = vault.database) vault := by
  refine (readOnly_ask _).upholds_bind h ?_
  intro tokens hasked
  have hread := ask_ok hasked
  simp only [VaultDatabase.reference, Except.bind_eq_ok_iff, Option.orError_eq_ok_iff,
    Except.pure_eq_ok_iff] at hread
  obtain ⟨reference, hreference, rfl⟩ := hread
  obtain ⟨row, he, htokens, hphase⟩ := h.lifecycle.entry_of_reference hreference
  obtain rfl := Option.some.inj (hitem.entry.symm.trans he)
  refine Program.upholds_ofExcept_bind h ?_
  intro metadata hmetadata
  refine (upholds_recovery h he htokens (hitem.metadata.trans hmetadata) (.inr ?_) ?_).mono ?_
  · rcases hphase with hphase | hphase | hphase <;> rw [hphase] <;> rfl
  · intro number hresumable
    exact finishAttempt_upholds hresumable
  · rintro _ _ _ ⟨files, rfl, -⟩
    rfl

theorem reconcile_upholds (h : Sound key origin vault) (hkey : Loads key loadExisting) :
    (reconcile namespaceId deviceId loadExisting).Upholds (Sound key origin)
      (fun _ vault' => vault'.database = vault.database) vault := by
  refine (readOnly_ask _).upholds_bind h fun _ _ => upholds_session h hkey ?_
  refine (readOnly_verifyAll _ _).upholds_bind h ?_
  intro _ _
  refine (readOnly_ask _).upholds_bind h ?_
  intro items hitems
  have hitems := ask_ok hitems
  refine Program.Upholds.bind (P := fun _ vault' => vault'.database = vault.database)
    (Program.upholds_foldlM h rfl ?_) ?_
  · intro removed item hmem vault' h' hsame
    obtain ⟨e, hshows⟩ := shows_of_objects h.lifecycle hitems (List.mem_of_mem_filter hmem)
    rw [← hsame] at hshows
    refine (cleanupObject_upholds h' hshows.toNames).bind ?_
    intro cleaned vault'' h'' hsame'
    exact Program.upholds_pure h'' (hsame'.trans hsame)
  · intro removed vault' h' hsame
    refine (readOnly_verifyAll _ _).upholds_bind h' ?_
    intro _ _
    split
    · exact Program.upholds_pure h' hsame
    · refine (readOnly_inspectObject _ _).upholds_bind h' ?_
      intro _ _
      exact Program.upholds_pure h' hsame

theorem rebuildDerivations_upholds {sources : List SourceArtifact}
    (h : Sound key origin vault) :
    (rebuildDerivations namespaceId key sources).Upholds (Sound key origin) (fun _ _ => True)
      vault := by
  refine (readOnly_ask _).upholds_bind h ?_
  intro rebuilt hrebuilt
  refine (readOnly_authenticateAll rebuilt key).on.upholds_bind h ?_
  intro _ _
  refine Program.upholds_ofExcept_bind h ?_
  intro _ _
  refine upholds_update h ?_
  rintro _ ⟨⟩
  exact ⟨h.same (VaultDatabase.rebuildRecallDerivations_ok (ask_ok hrebuilt)), trivial⟩

theorem maintain_upholds {rebuild : Bool} (h : Sound key origin vault)
    (hkey : Loads key loadExisting) :
    (maintain namespaceId deviceId rebuild loadExisting).Upholds (Sound key origin)
      (fun _ _ => True) vault := by
  refine (readOnly_ask _).upholds_bind h fun _ _ => upholds_session h hkey ?_
  refine (readOnly_authenticateSources _).upholds_bind h ?_
  intro sources _
  have hrest : ∀ vault', Sound key origin vault' → (do
      let _ ← verifyAll namespaceId key
      let items ← ask VaultDatabase.objects
      return {
        committedObjectsVerified := countState .committed items
        pendingCaptures := countState .prepared items
        abandonmentPending := items.any (·.state == .abandoning)
        abandonedAttempts := countState .abandoned items
        deletionPendingObjects := countState .deleting items
        deletedObjects := countState .deleted items
        derivationsRebuilt := rebuild } : VaultIo VerificationReport).Upholds (Sound key origin)
          (fun _ _ => True) vault' := by
    intro vault' h'
    refine (readOnly_verifyAll _ _).upholds_bind h' fun _ _ => ?_
    refine (readOnly_ask _).upholds_bind h' fun _ _ => ?_
    exact Program.upholds_pure h' trivial
  dsimp only
  split
  · exact (rebuildDerivations_upholds h).bind fun _ vault' h' _ => hrest vault' h'
  · exact hrest vault h

end Reconciliation

/-! ## Deleting -/

section Deletion

variable {request : DeleteRequest} {execution : LocalDeletionExecution}
  {faulty : DeletionComponentType → Bool} {item : CaptureObject} {db' : VaultDatabase}
  {loadExisting : Except SourceVaultError KeyEncryptionKey}

/-- Whatever a program of the library without objects does, the objects are the same. -/
theorem library_upholds {α : Type} (call : Call α) (h : Sound key origin vault) :
    (VaultIo.library call).Upholds (Sound key origin)
      (fun _ vault' => VaultDatabase.SameObjects vault.database vault'.database) vault := by
  refine (Program.upholds_any call _).mapError.on ?_ ?_
  · intro library _
    exact h.same (VaultDatabase.Lifecycle.sameObjects library)
  · intro _ library _ _
    exact VaultDatabase.Lifecycle.sameObjects library

/-- A deletion begins: what was published may be removed. -/
theorem Sound.began (h : Sound key origin vault)
    (hbegan : VaultDatabase.Began vault.database db') :
    Sound key origin { vault with database := db' } := by
  refine h.replace hbegan.lifecycle ?_ ?_ ?_
  · intro other
    rcases hbegan.entry other with hsame | ⟨row, hold, hphase, hnew⟩
    · rw [hsame]
    · rw [hold, hnew]
      exact .single (.deleting hphase)
  · intro other e x he hx
    rcases hbegan.entry other with hsame | ⟨row, hold, hphase, hnew⟩
    · exact .inl (hsame.symm.trans he)
    · right
      obtain rfl := Option.some.inj (hnew.symm.trans he)
      obtain ⟨tokens, metadata, htokens, hmetadata, rfl⟩ := hx
      have hold : ObjectEntry.Publishes key ⟨row, none⟩ (objectPublication key tokens metadata
        (row.phase.stage none)) := .of_tokens htokens hmetadata
      obtain ⟨number, hunfinished⟩ := (h.at_stage (by assumption) hold).unfinished
      exact ⟨number, hunfinished⟩
  · intro other e x he hx
    left
    rcases hbegan.entry other with hsame | ⟨row, hold, hphase, hnew⟩
    · exact ⟨e, x, hsame.trans he, hx, rfl⟩
    · obtain rfl := Option.some.inj (hold.symm.trans he)
      obtain ⟨tokens, metadata, htokens, hmetadata, rfl⟩ := hx
      exact ⟨_, _, hnew, .of_tokens htokens hmetadata, rfl⟩

/-- A deletion ends, when nothing is left. -/
theorem Sound.deleted {row : ObjectAttemptRow} {state : ObjectDeletionState}
    (h : Sound key origin vault)
    (he : vault.database.entry sourceId = some ⟨row, some state⟩) (hlifecycle : db'.Lifecycle)
    (hentry : db'.entry = Function.update vault.database.entry sourceId
      (some ⟨row, some .deleted⟩))
    (hgone : ∀ x, ObjectEntry.Publishes key ⟨row, some state⟩ x →
      vault.files.Gone x.staging x.final) : Sound key origin { vault with database := db' } := by
  have hnew : db'.entry sourceId = some ⟨row, some .deleted⟩ := by
    rw [hentry, Function.update_self]
  have hothers : ∀ other, other ≠ sourceId → db'.entry other = vault.database.entry other := by
    intro other hother
    rw [hentry, Function.update_of_ne hother]
  refine h.replace hlifecycle ?_ ?_ ?_
  · intro other
    by_cases hsame : other = sourceId
    · subst hsame
      rw [hnew, he]
      cases state with
      | deleting => exact .single .deleted
      | deleted => exact .refl
    · rw [hothers other hsame]
  · intro other e x he' hx
    by_cases hsame : other = sourceId
    · subst hsame
      right
      obtain rfl := Option.some.inj (hnew.symm.trans he')
      obtain ⟨tokens, metadata, htokens, hmetadata, rfl⟩ := hx
      have hleft := hgone (objectPublication key tokens metadata (row.phase.stage (some state)))
        (.of_tokens htokens hmetadata)
      exact hleft
    · exact .inl ((hothers other hsame).symm.trans he')
  · intro other e x he' hx
    by_cases hsame : other = sourceId
    · subst hsame
      obtain rfl := Option.some.inj (he.symm.trans he')
      exact .inr (hgone x hx)
    · exact .inl ⟨e, x, (hothers other hsame).trans he', hx, rfl⟩

/-- The object of the item is being deleted, or is deleted. -/
def Deleting (db : VaultDatabase) (item : CaptureObject) : Prop :=
  ∃ row state, Names db item ⟨row, some state⟩

omit [ObjectCipher] in
theorem deleting_of_deletionObjects {items : List CaptureObject} (hdb : db'.Lifecycle)
    (h : db'.deletionObjects namespaceId request = .ok items) :
    ∀ item ∈ items, Deleting db' item := by
  intro item hitem
  obtain ⟨row, hrow, hobject, hdeletion⟩ := VaultDatabase.deletionObjects_ok h item hitem
  obtain ⟨e, -, hshows⟩ := shows_of_objectOf hdb (VaultDatabase.attemptOf_eq_some_iff.1 hrow).1
    hobject
  obtain ⟨state, hstate⟩ := Option.isSome_iff_exists.1 hdeletion
  obtain ⟨row, deletion⟩ := e
  have hstored : deletion = (db'.deletionOf item.sourceId).map ObjectDeletionRow.state :=
    (VaultDatabase.entry_eq_some_iff.1 hshows.entry).2
  rw [hstate] at hstored
  subst hstored
  exact ⟨row, _, hshows.toNames⟩

theorem retireDeleting_upholds (h : Sound key origin vault)
    (hitem : Deleting vault.database item) :
    (retireDeleting namespaceId request key item).Upholds (Sound key origin)
      (fun _ vault' => ∀ other, Deleting vault.database other → Deleting vault'.database other)
      vault := by
  obtain ⟨row, state, hnames⟩ := hitem
  have hstage : row.phase.stage (some state) = .unfinished ∨
      row.phase.stage (some state) = .gone := by
    cases state with
    | deleting => exact .inl rfl
    | deleted => exact .inr rfl
  unfold retireDeleting
  split
  · refine (retireObject_upholds h hnames hstage).bind ?_
    rintro _ _ h' ⟨files, rfl, hgone⟩
    refine (readOnly_requireAbsent _ _ _).upholds_bind h' ?_
    intro _ _
    refine upholds_update_bind h' ?_
    intro db' hdb'
    obtain ⟨other, state', he, hlifecycle, hentry⟩ :=
      VaultDatabase.finishObjectRetirement_ok h'.lifecycle hdb'
    obtain ⟨rfl, rfl⟩ : other = row ∧ state' = state := by
      have hsame := Option.some.inj (he.symm.trans hnames.entry)
      exact ⟨congrArg ObjectEntry.row hsame,
        Option.some.inj (congrArg ObjectEntry.deletion hsame)⟩
    have hsound := h'.deleted he hlifecycle hentry hgone
    refine ⟨hsound, ?_⟩
    refine (readOnly_verifyAll _ _).upholds_bind hsound ?_
    intro _ _
    refine Program.upholds_pure hsound ?_
    rintro another ⟨row', state', hother⟩
    by_cases hsame : another.sourceId = item.sourceId
    · have heq := Option.some.inj (hnames.entry.symm.trans (hsame ▸ hother.entry))
      obtain rfl : other = row' := congrArg ObjectEntry.row heq
      refine ⟨other, .deleted, ?_, hother.tokens, hother.metadata⟩
      change db'.entry another.sourceId = _
      rw [hentry, hsame, Function.update_self]
    · refine ⟨row', state', ?_, hother.tokens, hother.metadata⟩
      change db'.entry another.sourceId = _
      rw [hentry, Function.update_of_ne hsame]
      exact hother.entry
  · exact Program.upholds_pure h fun _ hother => hother

theorem runComponent_upholds {attemptOrdinal : Nat} {hasFailed : Bool}
    {componentType : DeletionComponentType} (h : Sound key origin vault) :
    (runComponent request execution faulty attemptOrdinal hasFailed componentType).Upholds
      (Sound key origin)
      (fun _ vault' => VaultDatabase.SameObjects vault.database vault'.database) vault := by
  refine Program.upholds_ofExcept_bind h ?_
  intro component _
  refine Program.Upholds.bind (P := fun _ vault' =>
    VaultDatabase.SameObjects vault.database vault'.database) (upholds_commit h ?_) ?_
  · intro succeeded db' hdb'
    have hsame := VaultDatabase.componentTransaction_ok hdb'
    exact ⟨h.same hsame, hsame⟩
  · intro succeeded vault' h' hsame
    split
    · exact Program.upholds_pure h' hsame
    · refine Program.upholds_ofExcept_bind h' ?_
      intro _ _
      refine (library_upholds _ h').bind ?_
      intro _ _ h'' hsame'
      exact Program.upholds_pure h'' (hsame.trans hsame')

/-- Every object that a request deletes is deleted. -/
def ObjectsDeleted (request : DeleteRequest) (db : VaultDatabase) : Prop :=
  ∀ deletion ∈ db.deletions, deletion.deleteRequestId = request.params.deleteRequestId →
    ∃ row, db.entry deletion.sourceId = some ⟨row, some .deleted⟩

omit [ObjectCipher] in
theorem ObjectsDeleted.same {db : VaultDatabase} (h : ObjectsDeleted request db)
    (hsame : VaultDatabase.SameObjects db db') : ObjectsDeleted request db' := by
  intro deletion hmem hrequest
  rw [hsame.deletions] at hmem
  rw [hsame.entry]
  exact h deletion hmem hrequest

omit [ObjectCipher] in
theorem objectsDeleted_of_check (hdb : db'.Lifecycle)
    (h : db'.checkObjectsDeleted namespaceId request = .ok ()) : ObjectsDeleted request db' := by
  intro deletion hmem hrequest
  simp only [VaultDatabase.checkObjectsDeleted, VaultDatabase.deletionObjects,
    Except.bind_eq_ok_iff, Except.exists_unit_iff, Except.pure_eq_ok_iff, require_eq_ok_iff] at h
  obtain ⟨items, ⟨-, -, all, hall, rfl⟩, hdeleted⟩ := h
  have hfound : db'.deletionOf deletion.sourceId = some deletion :=
    (lookup_eq_some_iff db'.deletionKeys).2 ⟨hmem, rfl⟩
  obtain ⟨row, hrow, -⟩ := hdb.deletions deletion.sourceId deletion hfound
  obtain ⟨hattempt, hsource⟩ := VaultDatabase.attemptOf_eq_some_iff.1 hrow
  obtain ⟨item, hitem, hobject⟩ := List.Forall₂.exists_of_mem_left (List.mapM_eq_ok_iff.1 hall)
    ((List.mem_insertionSort _).2 hattempt)
  obtain ⟨e, rfl, hshows⟩ := shows_of_objectOf hdb hattempt hobject
  have hid : deletion.sourceId = item.sourceId := by
    rw [← hsource, (VaultDatabase.entry_row hshows.entry).2]
  have hstate : item.state = .deleted := by
    refine hdeleted item (List.mem_filter.2 ⟨hitem, List.any_eq_true.2 ⟨deletion, hmem, ?_⟩⟩)
    simp [hid, hrequest]
  obtain ⟨row, stored⟩ := e
  refine ⟨row, ?_⟩
  rw [hid, hshows.entry]
  have hshown := hshows.state
  rw [hstate] at hshown
  cases stored with
  | none => cases hphase : row.phase <;> rw [hphase] at hshown <;> cases hshown
  | some state =>
    cases state with
    | deleting => cases hshown
    | deleted => rfl

theorem executeObjectDeletion_upholds (h : Sound key origin vault) :
    (executeObjectDeletion namespaceId request execution faulty).Upholds (Sound key origin)
      (fun _ vault' => ObjectsDeleted request vault'.database) vault := by
  refine (readOnly_ask _).upholds_bind h ?_
  intro _ hchecked
  have hdeleted := objectsDeleted_of_check h.lifecycle (ask_ok hchecked)
  refine (library_upholds _ h).bind ?_
  intro attemptOrdinal vault' h' hsame
  refine Program.Upholds.bind (P := fun _ vault' => ObjectsDeleted request vault'.database)
    (Program.upholds_foldlM h' (hdeleted.same hsame) ?_) ?_
  · intro _ _ _ current h'' hdeleted'
    exact (runComponent_upholds h'').mono fun _ _ _ hsame' => hdeleted'.same hsame'
  · intro _ _ h'' hdeleted'
    exact (library_upholds _ h'').mono fun _ _ _ hsame' => hdeleted'.same hsame'

theorem beginDeletion_upholds {sources : List SourceArtifact} (h : Sound key origin vault) :
    (beginDeletion namespaceId request sources).Upholds (Sound key origin) (fun _ _ => True)
      vault := by
  refine Program.Upholds.bind (P := fun _ _ => True) (upholds_commit h ?_) ?_
  · intro changed db' hdb'
    exact ⟨h.began (VaultDatabase.beginObjectDeletion_ok h.lifecycle hdb'), trivial⟩
  · intro changed vault' h' _
    split
    · exact (readOnly_ask _).upholds h' fun _ _ => trivial
    · exact Program.upholds_pure h' trivial

theorem executeDeletionRequest_upholds (h : Sound key origin vault)
    (hkey : Loads key loadExisting) :
    (executeDeletionRequest request execution faulty loadExisting).Upholds (Sound key origin)
      (fun _ vault' => ObjectsDeleted request vault'.database) vault := by
  refine (readOnly_ask _).upholds_bind h fun _ _ => upholds_session h hkey ?_
  refine (readOnly_verifyAll _ _).upholds_bind h ?_
  intro sources _
  refine (beginDeletion_upholds h).bind ?_
  intro _ begun h _
  refine (readOnly_verifyAll _ _).upholds_bind h fun _ _ => (readOnly_ask _).upholds_bind h ?_
  intro items hitems
  have hall := deleting_of_deletionObjects h.lifecycle (ask_ok hitems)
  refine Program.Upholds.bind (P := fun _ _ => True) (Program.Upholds.mono (Program.upholds_forM
    (J := fun vault' => ∀ item ∈ items, Deleting vault'.database item) h hall ?_)
      fun _ _ _ _ => trivial) ?_
  · intro item hmem vault' h' hdeleting
    refine (retireDeleting_upholds h' (hdeleting item hmem)).mono ?_
    intro _ _ _ hkept other hother
    exact hkept other (hdeleting other hother)
  · intro _ retired h' _
    refine (readOnly_verifyAll _ _).upholds_bind h' ?_
    intro _ _
    refine (executeObjectDeletion_upholds h').bind ?_
    intro _ _ h'' hdeleted
    refine (readOnly_verifyAll _ _).upholds_bind h'' ?_
    intro _ _
    exact Program.upholds_pure h'' hdeleted

theorem storeEvidence_upholds {evidence : DeletionEvidence} (h : Sound key origin vault)
    (hkey : Loads key loadExisting) :
    (storeEvidence evidence loadExisting).Upholds (Sound key origin) (fun _ _ => True) vault := by
  refine (readOnly_ask _).upholds_bind h fun _ _ => upholds_session h hkey ?_
  refine (readOnly_verifyAll _ _).upholds_bind h fun _ _ => (readOnly_ask _).upholds_bind h ?_
  intro _ _
  refine (library_upholds _ h).bind ?_
  intro _ _ h' _
  refine (readOnly_verifyAll _ _).upholds_bind h' fun _ _ => (readOnly_ask _).upholds_bind h' ?_
  intro _ _
  exact Program.upholds_ofExcept h' fun _ _ => trivial

end Deletion

end RadishMemory
