import RadishMemory.Construction.SourceVault.BodyMigration
import RadishMemory.Properties.VaultOperations

/-!
# The migration of bodies keeps the library sound

The items of the inventory are taken one after the other, and each is what the database still
shows of its source (`ShowsItem`), since an item changes no other entry.
-/

namespace RadishMemory

open DurableFiles ObjectEntry VaultIo

/-! ## Reading -/

section Reads

variable [Platform] [ObjectCipher]

theorem readOnly_inspectItem (locator : ObjectLocator) (attempt : AttemptId)
    (metadata : ObjectMetadata) (key : KeyEncryptionKey) :
    (VaultIo.objects (inspectAttempt locator attempt metadata key)).ReadOnly :=
  readOnly_objects readOnly_inspectAttempt

theorem readOnly_readReference (key : KeyEncryptionKey) (item : BodyMigrationItem) :
    (readReference key item).ReadOnly :=
  (readOnly_vaultCheck _).bind fun _ => (readOnly_ask _).bind fun _ =>
    (readOnly_inspectItem _ _ _ _).bind fun _ => (readOnly_vaultCheck _).bind fun _ =>
      (readOnly_objects (readOnly_readObject _ _ _)).bind fun _ => readOnly_ask _

omit [Platform] [ObjectCipher] in
theorem readOnly_verifyItems (items : List BodyMigrationItem) : (verifyItems items).ReadOnly :=
  (readOnly_vaultCheck _).bind fun _ => readOnly_objects (readOnly_verifyInventory _)

theorem readOnly_validateItem (key : KeyEncryptionKey) (item : BodyMigrationItem) :
    (validateItem key item).ReadOnly := by
  refine (readOnly_vaultCheck _).bind fun metadata => (readOnly_ask _).bind fun _ => ?_
  split
  · refine (readOnly_vaultCheck _).bind fun _ => (readOnly_inspectItem _ _ _ _).bind fun _ => ?_
    split
    · exact (readOnly_vaultCheck _).bind fun _ => readOnly_readReference key item
    · exact Program.readOnly_pure _
  · exact Program.readOnly_pure _

theorem readOnly_attemptAbsent (key : KeyEncryptionKey) (metadata : ObjectMetadata)
    (item : BodyMigrationItem) : (attemptAbsent key metadata item).ReadOnly := by
  unfold attemptAbsent
  split
  · exact Program.readOnly_pure _
  · exact (readOnly_vaultCheck _).bind fun _ => (readOnly_inspectItem _ _ _ _).bind fun _ =>
      Program.readOnly_pure _

end Reads

/-! ## Items -/

/-- The item is what the database shows of its source. -/
structure ShowsItem (db : VaultDatabase) (item : BodyMigrationItem) (row : ObjectAttemptRow)
    (deletion : Option ObjectDeletionState) : Prop where
  entry : db.entry item.sourceId = some ⟨row, deletion⟩
  state : row.phase.migrationState = .ok item.state
  tokens : row.tokens = item.tokens
  metadata : row.metadata = item.metadata

section Items

variable {db : VaultDatabase} {items : List BodyMigrationItem} {item : BodyMigrationItem}
  {row : ObjectAttemptRow} {deletion : Option ObjectDeletionState}

theorem migrationItem_eq (h : row.migrationItem = .ok item) :
    item.sourceId = row.sourceId ∧ row.phase.migrationState = .ok item.state ∧
      row.tokens = item.tokens ∧ row.metadata = item.metadata := by
  simp only [ObjectAttemptRow.migrationItem, Except.bind_eq_ok_iff, Except.pure_eq_ok_iff] at h
  obtain ⟨state, hstate, rfl⟩ := h
  exact ⟨rfl, hstate, rfl, rfl⟩

theorem sourceIds_eq {rows : List ObjectAttemptRow}
    (h : List.Forall₂ (fun row item => row.migrationItem = .ok item) rows items) :
    rows.map ObjectAttemptRow.sourceId = items.map BodyMigrationItem.sourceId := by
  induction h with
  | nil => rfl
  | cons hitem _ ih => rw [List.map_cons, List.map_cons, ih, (migrationItem_eq hitem).1]

theorem showsItem_of_items (h : db.migrationItems = .ok items) (hitem : item ∈ items) :
    ∃ row deletion, ShowsItem db item row deletion := by
  obtain ⟨row, hrow, hitem'⟩ := List.Forall₂.exists_of_mem_right (List.mapM_eq_ok_iff.1 h) hitem
  rw [List.mem_insertionSort] at hrow
  obtain ⟨hsource, hstate, htokens, hmetadata⟩ := migrationItem_eq hitem'
  exact ⟨row, _, VaultDatabase.entry_eq_some_iff.2
    ⟨VaultDatabase.attemptOf_eq_some_iff.2 ⟨hrow, hsource.symm⟩, rfl⟩, hstate, htokens, hmetadata⟩

/-- Two items are of different sources. -/
theorem items_pairwise (h : db.migrationItems = .ok items) :
    items.Pairwise fun a b => a.sourceId ≠ b.sourceId := by
  have hkeys : (db.objectAttempts.insertionSort fun a b =>
      a.sourceId.asStr ≤ b.sourceId.asStr).map ObjectAttemptRow.sourceId =
        items.map BodyMigrationItem.sourceId := by
    exact sourceIds_eq (List.mapM_eq_ok_iff.1 h)
  have hnodup : (items.map BodyMigrationItem.sourceId).Nodup := by
    rw [← hkeys]
    exact ((List.perm_insertionSort _ _).map _).nodup_iff.2 db.attemptsValid.sources
  exact List.pairwise_map.1 hnodup

/-- An attempt that is only planned has no tokens. -/
theorem tokens_of_planned (hrow : row ∈ db.objectAttempts) (hphase : row.phase = .planned) :
    row.tokens = none := by
  have hcheck := db.attemptsValid.checked row hrow
  simp only [ObjectAttemptRow.check, Bool.and_eq_true, hphase, AttemptPhase.allowedAt,
    decide_eq_true_eq] at hcheck
  have hearly := hcheck.1.2
  rw [if_pos hearly] at hcheck
  simpa using (Bool.and_eq_true_iff.1 hcheck.2).1

/-- What is left to do for an item that is not retired. -/
theorem ShowsItem.unfinished (hdb : db.Lifecycle) (h : ShowsItem db item row deletion)
    (hstate : item.state ≠ .retired) :
    deletion = none ∧ (row.phase = .planned ∧ item.state = .planned ∨
      row.phase = .prepared ∧ item.state = .prepared ∨
        row.phase = .referenced ∧ item.state = .referenced) := by
  have hshown := h.state
  have hphases : row.phase = .planned ∧ item.state = .planned ∨
      row.phase = .prepared ∧ item.state = .prepared ∨
        row.phase = .referenced ∧ item.state = .referenced := by
    cases hphase : row.phase with
    | planned =>
      rw [hphase] at hshown
      exact .inl ⟨rfl, (Except.ok.inj hshown).symm⟩
    | prepared =>
      rw [hphase] at hshown
      exact .inr (.inl ⟨rfl, (Except.ok.inj hshown).symm⟩)
    | referenced =>
      rw [hphase] at hshown
      exact .inr (.inr ⟨rfl, (Except.ok.inj hshown).symm⟩)
    | retired =>
      rw [hphase] at hshown
      exact absurd (Except.ok.inj hshown).symm hstate
    | committed | abandoning | abandoned =>
      rw [hphase] at hshown
      cases hshown
  refine ⟨hdb.deletion_eq_none h.entry ?_, hphases⟩
  rcases hphases with ⟨hphase, -⟩ | ⟨hphase, -⟩ | ⟨hphase, -⟩ <;> simp [hphase]

end Items

/-! ## One item -/

section Migration

variable [Platform] [ObjectCipher] {key : KeyEncryptionKey} {origin : VaultDatabase}
  {vault vault' : Vault} {item : BodyMigrationItem} {row : ObjectAttemptRow}
  {metadata : ObjectMetadata} {random : RandomSource Nat} {s : Nat} {namespaceId : Identifier}

/-- The other entries are those of `db`. -/
def OthersKept (item : BodyMigrationItem) (db : VaultDatabase) (vault : Vault) : Prop :=
  ∀ other, other ≠ item.sourceId → vault.database.entry other = db.entry other

omit [Platform] [ObjectCipher] in
theorem othersKept_of_moved {db db' : VaultDatabase} {files : VaultFiles} {e : ObjectEntry}
    (h : VaultDatabase.Moved db db' item.sourceId e) : OthersKept item db ⟨db', files⟩ := by
  intro other hother
  change db'.entry other = _
  rw [h.entry, Function.update_of_ne hother]

omit [Platform] [ObjectCipher] in
theorem OthersKept.trans {db : VaultDatabase} (h : OthersKept item db vault)
    (h' : OthersKept item vault.database vault') : OthersKept item db vault' :=
  fun other hother => (h' other hother).trans (h other hother)

/-- The object of an item that was planned or prepared is published, and so far prepared. -/
def Placed (key : KeyEncryptionKey) (item : BodyMigrationItem) (tokens : ObjectTokens)
    (metadata : ObjectMetadata) (vault : Vault) : Prop :=
  ∃ row, row.phase = .prepared ∧ row.tokens = some tokens ∧ row.metadata = .ok metadata ∧
    vault.database.entry item.sourceId = some ⟨row, none⟩ ∧
      ∀ x, ObjectEntry.Publishes key ⟨row, none⟩ x →
        ∃ number, vault.files.Published x.good x.staging x.final number

/-- The reference of an item is stored. -/
def Referenced (item : BodyMigrationItem) (tokens : ObjectTokens) (metadata : ObjectMetadata)
    (db : VaultDatabase) : Prop :=
  ∃ row, row.phase = .referenced ∧ row.tokens = some tokens ∧ row.metadata = .ok metadata ∧
    db.entry item.sourceId = some ⟨row, none⟩

/-- Nothing is left of an item whose attempt is absent. -/
theorem gone_of_attemptAbsent (h : Sound key origin vault)
    (hitem : ShowsItem vault.database item row none) (hmetadata : item.metadata = .ok metadata)
    (hphase : row.phase = .planned ∧ item.state = .planned ∨
      row.phase = .prepared ∧ item.state = .prepared)
    (habsent : ((attemptAbsent key metadata item).run vault).1 = .ok true)
    {x : Publication VaultDirectory String} (hx : ObjectEntry.Publishes key ⟨row, none⟩ x) :
    vault.files.Gone x.staging x.final := by
  obtain ⟨tokens, metadata', htokens, hmetadata', rfl⟩ := hx
  rcases hphase with ⟨hplanned, -⟩ | ⟨hprepared, hstate⟩
  · rw [tokens_of_planned (VaultDatabase.entry_row hitem.entry).1 hplanned] at htokens
    cases htokens
  · obtain rfl : metadata' = metadata :=
      Except.ok.inj (hmetadata'.symm.trans (hitem.metadata.trans hmetadata))
    unfold attemptAbsent at habsent
    rw [if_neg (by rw [hstate]; decide)] at habsent
    obtain ⟨found, hfound, habsent⟩ := Program.run_bind_eq_ok_iff.1 habsent
    have hread : item.tokens = some found := Option.orError_eq_ok_iff.1 hfound
    obtain rfl : found = tokens := Option.some.inj (hread.symm.trans (hitem.tokens.symm.trans
      htokens))
    obtain ⟨state, hstate, habsent⟩ := Program.run_bind_eq_ok_iff.1 habsent
    have hnone : state = .absent := by simpa using Except.ok.inj habsent
    subst hnone
    have hinspect : ((inspectAttempt found.objectLocator found.attemptId metadata' key).run
        vault.files).1 = .ok .absent := by
      have hrun := hstate
      rw [show ((VaultIo.check item.requireTokens : VaultIo ObjectTokens).run vault).2 = vault
        from rfl, run_objects] at hrun
      exact Except.mapError_eq_ok_iff.1 hrun
    obtain ⟨hstaging, hfinal⟩ := inspectAttempt_absent hinspect
    have hat := h.at_stage hitem.entry (.of_tokens htokens hmetadata')
    rw [hprepared] at hat
    obtain ⟨number, hresumable⟩ := hat
    exact hresumable.gone hstaging hfinal

/-- The row of a body that is about to be published. -/
theorem prepareBody_prepared (h : Sound key origin vault)
    (hitem : ShowsItem vault.database item row none) (hmetadata : item.metadata = .ok metadata)
    (hgone : ∀ x, ObjectEntry.Publishes key ⟨row, none⟩ x →
      vault.files.Gone x.staging x.final) :
    ∀ tokens db', vault.database.prepareBody item tokens = .ok db' → ∃ row,
      row.phase = .prepared ∧ row.tokens = some tokens ∧ row.metadata = .ok metadata ∧
        VaultDatabase.Moved vault.database db' item.sourceId ⟨row, none⟩ ∧
        ∀ e x, vault.database.entry item.sourceId = some e → e.Publishes key x →
          vault.files.Gone x.staging x.final := by
  intro tokens db' hdb'
  obtain ⟨old, he, -, hmoved⟩ := VaultDatabase.prepareBody_ok h.lifecycle hdb'
  obtain rfl : row = old := congrArg ObjectEntry.row (Option.some.inj (hitem.entry.symm.trans he))
  refine ⟨{ row with phase := .prepared, tokens := some tokens }, rfl, rfl,
    hitem.metadata.trans hmetadata, hmoved, ?_⟩
  intro e x he' hx
  obtain rfl := Option.some.inj (hitem.entry.symm.trans he')
  exact hgone x hx

theorem recoverItem_upholds {tokens : ObjectTokens} {e : ObjectEntry}
    (h : Sound key origin vault) (he : vault.database.entry item.sourceId = some e)
    (htokens : e.row.tokens = some tokens) (hmetadata : e.row.metadata = .ok metadata)
    (hstage : e.row.phase.stage e.deletion = .resumable ∨
      e.row.phase.stage e.deletion = .published) :
    (VaultIo.objects (recoverAttempt tokens.objectLocator tokens.attemptId metadata key)).Upholds
      (Sound key origin)
      (fun _ vault' => ∃ files, vault' = { vault with files } ∧ ∀ x, e.Publishes key x →
        ∃ number, files.Published x.good x.staging x.final number) vault := by
  refine upholds_recovery h he htokens hmetadata hstage ?_
  intro number hresumable
  exact (finishAttempt_upholds hresumable).bind fun _ _ hI hdone => Program.upholds_pure hI hdone

theorem publishItem_upholds (h : Sound key origin vault)
    (hitem : ShowsItem vault.database item row none) (hmetadata : item.metadata = .ok metadata)
    (hphase : row.phase = .planned ∧ item.state = .planned ∨
      row.phase = .prepared ∧ item.state = .prepared) :
    (publishItem key metadata random s item).Upholds (Sound key origin)
      (fun result vault' => Placed key item result.1 metadata vault' ∧
        OthersKept item vault.database vault') vault := by
  refine (readOnly_attemptAbsent _ _ _).upholds_bind h ?_
  intro absent habsent
  cases absent with
  | true =>
    refine (readOnly_ask _).upholds_bind h fun _ _ => Program.upholds_ofExcept_bind h ?_
    intro body _
    refine (publishBody_upholds h (prepareBody_prepared h hitem hmetadata fun _ hx =>
      gone_of_attemptAbsent h hitem hmetadata hphase habsent hx)).mono ?_
    rintro ⟨tokens, rest⟩ vault' _ ⟨stored, hstored, htokens, hmeta, he, hothers, hpublished⟩
    exact ⟨⟨stored, hstored, htokens, hmeta, he, hpublished⟩, hothers⟩
  | false =>
    refine Program.upholds_ofExcept_bind h ?_
    intro tokens hread
    have htokens : row.tokens = some tokens :=
      hitem.tokens.trans (Option.orError_eq_ok_iff.1 hread)
    rcases hphase with ⟨hplanned, -⟩ | ⟨hprepared, -⟩
    · rw [tokens_of_planned (VaultDatabase.entry_row hitem.entry).1 hplanned] at htokens
      cases htokens
    · have hstage : row.phase.stage none = .resumable := by rw [hprepared]; rfl
      refine (recoverItem_upholds h hitem.entry htokens (hitem.metadata.trans hmetadata)
        (.inl hstage)).bind ?_
      rintro _ _ h' ⟨files, rfl, hpublished⟩
      refine Program.upholds_pure h' ⟨?_, fun _ _ => rfl⟩
      exact ⟨row, hprepared, htokens, hitem.metadata.trans hmetadata, hitem.entry, hpublished⟩

theorem referenceItem_upholds (h : Sound key origin vault)
    (hitem : ShowsItem vault.database item row none) (hmetadata : item.metadata = .ok metadata)
    (hphase : row.phase = .planned ∧ item.state = .planned ∨
      row.phase = .prepared ∧ item.state = .prepared ∨
        row.phase = .referenced ∧ item.state = .referenced) :
    (referenceItem key metadata random s item).Upholds (Sound key origin)
      (fun result vault' => Referenced item result.1 metadata vault'.database ∧
        OthersKept item vault.database vault') vault := by
  unfold referenceItem
  split
  · rename_i hstate
    have hopen : row.phase = .planned ∧ item.state = .planned ∨
        row.phase = .prepared ∧ item.state = .prepared := by
      rcases hphase with hplanned | hprepared | ⟨-, hreferenced⟩
      · exact .inl hplanned
      · exact .inr hprepared
      · rw [hreferenced] at hstate
        rcases hstate with hstate | hstate <;> cases hstate
    refine (publishItem_upholds h hitem hmetadata hopen).bind ?_
    rintro ⟨tokens, rest⟩ published h' ⟨⟨stored, hstored, htokens, hmeta, he, hpublished⟩, hothers⟩
    refine upholds_update_bind h' ?_
    intro db' hdb'
    obtain ⟨other, he', -, hmoved⟩ := VaultDatabase.commitReference_ok h'.lifecycle hdb'
    obtain rfl : stored = other :=
      congrArg ObjectEntry.row (Option.some.inj (he.symm.trans he'))
    have hsound : Sound key origin { published with database := db' } := by
      refine h'.advance he hmoved rfl rfl ?_
      rintro x ⟨tokens', metadata', htokens', hmeta', rfl⟩
      have hdone := hpublished (objectPublication key tokens' metadata' (stored.phase.stage none))
        (.of_tokens htokens' hmeta')
      exact hdone
    refine ⟨hsound, Program.upholds_pure hsound ⟨⟨{ stored with phase := .referenced }, rfl,
      htokens, hmeta, ?_⟩, hothers.trans (othersKept_of_moved hmoved)⟩⟩
    change db'.entry item.sourceId = _
    rw [hmoved.entry, Function.update_self]
  · rename_i hstate
    refine Program.upholds_ofExcept_bind h ?_
    intro tokens hread
    have htokens : row.tokens = some tokens :=
      hitem.tokens.trans (Option.orError_eq_ok_iff.1 hread)
    refine Program.upholds_pure h ⟨⟨row, ?_, htokens, hitem.metadata.trans hmetadata,
      hitem.entry⟩, fun _ _ => rfl⟩
    rcases hphase with ⟨-, hplanned⟩ | ⟨-, hprepared⟩ | ⟨hreferenced, -⟩
    · exact absurd (.inl hplanned) hstate
    · exact absurd (.inr hprepared) hstate
    · exact hreferenced

theorem migrateItem_upholds {deletion : Option ObjectDeletionState} (h : Sound key origin vault)
    (hitem : ShowsItem vault.database item row deletion) :
    (migrateItem key random s item).Upholds (Sound key origin)
      (fun _ vault' => OthersKept item vault.database vault') vault := by
  refine Program.upholds_ofExcept_bind h ?_
  intro metadata hmetadata
  dsimp only
  split
  · exact Program.upholds_pure h fun _ _ => rfl
  · rename_i hstate
    obtain ⟨rfl, hphase⟩ := hitem.unfinished h.lifecycle hstate
    refine (referenceItem_upholds h hitem hmetadata hphase).bind ?_
    rintro ⟨tokens, rest⟩ referenced h' ⟨⟨stored, hstored, htokens, hmeta, he⟩, hothers⟩
    have hstage : stored.phase.stage none = .published := by rw [hstored]; rfl
    refine (recoverItem_upholds h' he htokens hmeta (.inr hstage)).bind ?_
    rintro _ _ h'' ⟨files, rfl, hpublished⟩
    refine (readOnly_readReference _ _).upholds_bind h'' fun _ _ =>
      (readOnly_readReference _ _).upholds_bind h'' fun _ _ => ?_
    refine upholds_update_bind h'' ?_
    intro db' hdb'
    obtain ⟨other, he', -, hmoved⟩ := VaultDatabase.retireInline_ok h''.lifecycle hdb'
    obtain rfl : stored = other :=
      congrArg ObjectEntry.row (Option.some.inj (he.symm.trans he'))
    have hsound : Sound key origin ⟨db', files⟩ := by
      refine h''.advance he hmoved rfl rfl ?_
      rintro x ⟨tokens', metadata', htokens', hmeta', rfl⟩
      have hdone := hpublished (objectPublication key tokens' metadata' (stored.phase.stage none))
        (.of_tokens htokens' hmeta')
      exact hdone
    exact ⟨hsound, Program.upholds_pure hsound (hothers.trans (othersKept_of_moved hmoved))⟩

/-! ## All items -/

theorem migrateItems_upholds {items : List BodyMigrationItem}
    (hitems : items.Pairwise fun a b => a.sourceId ≠ b.sourceId) (h : Sound key origin vault)
    (hshown : ∀ item ∈ items, ∃ row deletion, ShowsItem vault.database item row deletion) :
    (items.foldlM (migrateItem key random) s).Upholds (Sound key origin) (fun _ _ => True)
      vault := by
  induction items generalizing vault s with
  | nil => exact Program.upholds_pure h trivial
  | cons item rest ih =>
    obtain ⟨hfirst, hrest⟩ := List.pairwise_cons.1 hitems
    obtain ⟨row, deletion, hitem⟩ := hshown item List.mem_cons_self
    rw [List.foldlM_cons]
    refine (migrateItem_upholds h hitem).bind ?_
    intro s' vault' h' hothers
    refine ih hrest h' ?_
    intro other hother
    obtain ⟨row', deletion', hshows⟩ := hshown other (List.mem_cons_of_mem _ hother)
    refine ⟨row', deletion', ?_, hshows.state, hshows.tokens, hshows.metadata⟩
    rw [hothers other.sourceId fun hsame => hfirst other hother hsame.symm]
    exact hshows.entry

/-- An inventory plans the objects of the bodies that have none. -/
theorem Sound.planned {db' : VaultDatabase} (h : Sound key origin vault)
    (hdb' : vault.database.initializeInventory namespaceId = .ok db') :
    Sound key origin { vault with database := db' } := by
  obtain ⟨hlifecycle, hentry⟩ := VaultDatabase.initializeInventory_ok h.lifecycle hdb'
  refine h.replace hlifecycle ?_ ?_ ?_
  · intro other
    rcases hentry other with hsame | ⟨hnone, row, hphase, -, hnew⟩
    · rw [hsame]
    · rw [hnone, hnew]
      exact .single (.planned hphase)
  · intro other e x he hx
    rcases hentry other with hsame | ⟨-, row, -, htokens, hnew⟩
    · exact .inl (hsame.symm.trans he)
    · obtain rfl := Option.some.inj (hnew.symm.trans he)
      obtain ⟨tokens, metadata, hsome, -, -⟩ := hx
      rw [htokens] at hsome
      cases hsome
  · intro other e x he hx
    rcases hentry other with hsame | ⟨hnone, -⟩
    · exact .inl ⟨e, x, hsame.trans he, hx, rfl⟩
    · rw [hnone] at he
      cases he

theorem prepareInventory_upholds (h : Sound key origin vault) :
    (prepareInventory namespaceId).Upholds (Sound key origin) (fun _ _ => True) vault := by
  refine (readOnly_ask _).upholds_bind h ?_
  intro prepared _
  split
  · refine (readOnly_objects (readOnly_verifyInventory _)).upholds_bind h ?_
    intro _ _
    refine upholds_update_bind h ?_
    intro db' hdb'
    have hsound := h.planned hdb'
    exact ⟨hsound, (readOnly_ask _).upholds hsound fun _ _ => trivial⟩
  · exact Program.upholds_pure h trivial

/-- Every attempt has been migrated. -/
def ObjectsRetired (db : VaultDatabase) : Prop :=
  ∀ sourceId e, db.entry sourceId = some e → e.row.phase = .retired

omit [Platform] [ObjectCipher] in
theorem objectsRetired_of_finishMigration {db db' : VaultDatabase}
    (h : db.finishMigration namespaceId = .ok db') : ObjectsRetired db' := by
  intro sourceId e he
  rw [(VaultDatabase.finishMigration_ok h).entry] at he
  simp only [VaultDatabase.finishMigration, VaultDatabase.migrationItems, Except.bind_eq_ok_iff,
    Except.exists_unit_iff, require_eq_ok_iff] at h
  obtain ⟨-, items, hitems, hretired, -⟩ := h
  obtain ⟨item, hitem, hshown⟩ := List.Forall₂.exists_of_mem_left (List.mapM_eq_ok_iff.1 hitems)
    ((List.mem_insertionSort _).2 (VaultDatabase.entry_row he).1)
  have hstate := (migrationItem_eq hshown).2.1
  rw [hretired item hitem] at hstate
  cases hphase : e.row.phase with
  | retired => rfl
  | planned | prepared | referenced | committed | abandoning | abandoned =>
    rw [hphase] at hstate
    cases hstate

theorem migrate_upholds {deviceId : Identifier}
    {loadExisting : Except SourceVaultError KeyEncryptionKey} (h : Sound key origin vault)
    (hkey : Loads key loadExisting) :
    (migrate namespaceId deviceId loadExisting random).Upholds (Sound key origin)
      (fun _ vault' => ObjectsRetired vault'.database) vault := by
  refine (readOnly_ask _).upholds_bind h fun _ _ => upholds_session h hkey ?_
  refine (prepareInventory_upholds h).bind ?_
  intro _ prepared h _
  refine (readOnly_ask _).upholds_bind h ?_
  intro items hitems
  have hlisted := ask_ok hitems
  refine (readOnly_verifyItems _).upholds_bind h fun _ _ =>
    (Program.readOnly_forM (readOnly_validateItem key) _).upholds_bind h fun _ _ => ?_
  refine (migrateItems_upholds (items_pairwise hlisted) h
    fun _ hitem => showsItem_of_items hlisted hitem).bind ?_
  intro _ migrated h _
  refine (readOnly_ask _).upholds_bind h fun _ _ => (readOnly_verifyItems _).upholds_bind h
    fun _ _ => (Program.readOnly_forM (readOnly_readReference key) _).upholds_bind h fun _ _ => ?_
  refine upholds_update_bind h ?_
  intro db' hdb'
  have hsound := h.same (VaultDatabase.finishMigration_ok hdb')
  exact ⟨hsound, Program.upholds_pure hsound (objectsRetired_of_finishMigration hdb')⟩

end Migration

end RadishMemory
