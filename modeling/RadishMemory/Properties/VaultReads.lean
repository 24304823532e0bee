import RadishMemory.Properties.VaultFiles

/-!
# What the operations of the encrypted library read

Authentication and verification change nothing, so that every operation may begin and end with
them.
-/

namespace Program

variable {L σ ε ε' α β : Type}

theorem ReadOnly.mapError {f : ε → ε'} {p : Program L σ ε α} (hp : p.ReadOnly) :
    (p.mapError f).ReadOnly := by
  induction p with
  | done result => trivial
  | access label effect next ih => exact ⟨hp.1, fun s => ih s (hp.2 s)⟩

theorem readOnly_forM {f : β → Program L σ ε PUnit} (hf : ∀ b, (f b).ReadOnly) (l : List β) :
    (l.forM f).ReadOnly := by
  induction l with
  | nil => exact readOnly_pure _
  | cons b rest ih => exact (hf b).bind fun _ => ih

theorem upholds_any (p : Program L σ ε α) (s : σ) :
    p.Upholds (fun _ => True) (fun _ _ => True) s := by
  induction p generalizing s with
  | done result => exact ⟨trivial, fun _ _ => trivial⟩
  | access label effect next ih => exact ⟨trivial, ih s (effect s)⟩

theorem upholds_forM {I J : σ → Prop} {f : β → Program L σ ε PUnit} {l : List β}
    {s : σ} (hI : I s) (hJ : J s)
    (hstep : ∀ b ∈ l, ∀ s, I s → J s → (f b).Upholds I (fun _ => J) s) :
    (l.forM f).Upholds I (fun _ => J) s := by
  induction l generalizing s with
  | nil => exact upholds_pure hI hJ
  | cons b rest ih =>
    refine (hstep b List.mem_cons_self s hI hJ).bind ?_
    intro _ s' hI' hJ'
    exact ih hI' hJ' fun b' hmem => hstep b' (List.mem_cons_of_mem _ hmem)

end Program

namespace RadishMemory

open DurableFiles VaultIo

/-! ## Files -/

section Files

theorem readOnly_verifyEntries (directory : VaultDirectory) (allowed : List String) :
    (verifyEntries directory allowed).ReadOnly :=
  (readOnly_look _).bind fun _ => Program.readOnly_forM (fun _ => (readOnly_check _).bind fun _ =>
    readOnly_present.bind fun _ => Program.readOnly_pure _) _

theorem readOnly_verifyInventory (attempts : List (ObjectLocator × AttemptId)) :
    (verifyInventory attempts).ReadOnly :=
  (readOnly_check _).bind fun _ => (readOnly_verifyEntries _ _).bind fun _ =>
    readOnly_verifyEntries _ _

theorem readOnly_filesCheck {α : Type} (result : Except MaintenanceError α) :
    (FilesIo.check result).ReadOnly :=
  Program.readOnly_ofExcept _

theorem readOnly_filesDatabase {α : Type} (result : Except SqliteError α) :
    (FilesIo.database result).ReadOnly :=
  Program.readOnly_ofExcept _

variable [Platform] [ObjectCipher]

theorem readOnly_readObject (locator : ObjectLocator) (expected : ObjectMetadata)
    (key : KeyEncryptionKey) : (readObject locator expected key).ReadOnly :=
  (readOnly_check _).bind fun _ => (readOnly_check _).bind fun _ => readOnly_readFile.bind fun _ =>
    (readOnly_check _).bind fun _ => (readOnly_check _).bind fun _ =>
      readOnly_verifyFile.bind fun _ => Program.readOnly_pure _

theorem readOnly_inspect (item : CaptureObject) (key : KeyEncryptionKey) :
    (item.inspect key).ReadOnly :=
  (readOnly_filesCheck _).bind fun _ => readOnly_inspectAttempt.mapError

theorem readOnly_readCommitted (db : VaultDatabase) (key : KeyEncryptionKey)
    (item : CaptureObject) : (readCommitted db key item).ReadOnly :=
  (readOnly_filesCheck _).bind fun _ => (readOnly_filesDatabase _).bind fun _ =>
    readOnly_inspectAttempt.mapError.bind fun _ => (readOnly_filesCheck _).bind fun _ =>
      (readOnly_readObject _ _ _).mapError.bind fun _ => readOnly_filesDatabase _

theorem readOnly_authenticateObject (db : VaultDatabase) (key : KeyEncryptionKey)
    (item : CaptureObject) : (authenticateObject db key item).ReadOnly := by
  unfold authenticateObject
  split
  · exact readOnly_readCommitted db key item
  · exact (readOnly_inspect item key).bind fun _ => (readOnly_filesCheck _).bind fun _ =>
      Program.readOnly_pure _

theorem readOnly_authenticateAll (db : VaultDatabase) (key : KeyEncryptionKey) :
    (authenticateAll db key).ReadOnly :=
  (readOnly_filesDatabase _).bind fun _ => (readOnly_verifyInventory _).mapError.bind fun _ =>
    (Program.readOnly_mapM (readOnly_authenticateObject db key) _).bind fun _ =>
      (readOnly_verifyInventory _).mapError.bind fun _ => Program.readOnly_pure _

end Files

/-! ## The library -/

theorem readOnly_ask {α : Type} (f : VaultDatabase → Except SqliteError α) : (ask f).ReadOnly :=
  Program.readOnly_read _ _

theorem readOnly_vaultCheck {α : Type} (result : Except MaintenanceError α) :
    (VaultIo.check result).ReadOnly :=
  Program.readOnly_ofExcept _

theorem readOnly_objects {α : Type} {p : ObjectIo α} (hp : p.ReadOnly) :
    (VaultIo.objects p).ReadOnly :=
  hp.mapError.on

theorem run_objects {α : Type} (p : ObjectIo α) (vault : Vault) :
    ((VaultIo.objects p).run vault).1 = (p.run vault.files).1.mapError .object := by
  unfold VaultIo.objects VaultIo.files FilesIo.objects
  rw [Program.run_on, Program.run_mapError]
  rfl

theorem ask_ok {α : Type} {f : VaultDatabase → Except SqliteError α} {vault : Vault} {a : α}
    (h : ((ask f).run vault).1 = .ok a) : f vault.database = .ok a :=
  Except.mapError_eq_ok_iff.1 h

section Library

variable [Platform] [ObjectCipher]

theorem readOnly_authenticateSources (key : KeyEncryptionKey) :
    (authenticateSources key).ReadOnly :=
  (readOnly_ask _).bind fun db => (readOnly_authenticateAll db key).on

theorem readOnly_verifyAll (namespaceId : Identifier) (key : KeyEncryptionKey) :
    (verifyAll namespaceId key).ReadOnly :=
  (readOnly_authenticateSources key).bind fun _ => (readOnly_ask _).bind fun _ =>
    Program.readOnly_pure _

theorem readOnly_inspectObject (item : CaptureObject) (key : KeyEncryptionKey) :
    (inspectObject item key).ReadOnly :=
  (readOnly_inspect item key).on

theorem readOnly_requireAbsent (item : CaptureObject) (key : KeyEncryptionKey) (reason : String) :
    (requireAbsent item key reason).ReadOnly :=
  (readOnly_inspectObject item key).bind fun _ => readOnly_vaultCheck _

theorem readOnly_inspectAbandonment (namespaceId deviceId : Identifier)
    (loadExisting : Except SourceVaultError KeyEncryptionKey) :
    (inspectAbandonment namespaceId deviceId loadExisting).ReadOnly :=
  (readOnly_ask _).bind fun _ => (readOnly_vaultCheck _).bind fun _ =>
    (readOnly_verifyAll _ _).bind fun _ => readOnly_ask _

/-- An attempt of which nothing is found has no names. -/
theorem inspectAttempt_absent {locator : ObjectLocator} {attempt : AttemptId}
    {metadata : ObjectMetadata} {key : KeyEncryptionKey} {fs : VaultFiles}
    (h : ((inspectAttempt locator attempt metadata key).run fs).1 = .ok .absent) :
    fs.lookup (stagingPath locator attempt) = none ∧ fs.lookup (objectPath locator) = none := by
  obtain ⟨-, -, staged, published, hstaged, hpublished, -, hstate⟩ := inspectAttempt_eq_ok_iff.1 h
  have hstagedSome := hstaged.isSome
  have hpublishedSome := hpublished.isSome
  cases hs : staged.isSome with
  | true =>
    cases hp : published.isSome with
    | true =>
      rw [hs, hp] at hstate
      cases hstate
    | false =>
      rw [hs, hp] at hstate
      cases hstate
  | false =>
    cases hp : published.isSome with
    | true =>
      rw [hs, hp] at hstate
      cases hstate
    | false =>
      rw [hs] at hstagedSome
      rw [hp] at hpublishedSome
      exact ⟨Option.isNone_iff_eq_none.1 (by simpa using hstagedSome.symm),
        Option.isNone_iff_eq_none.1 (by simpa using hpublishedSome.symm)⟩

end Library

end RadishMemory
