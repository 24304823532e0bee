import RadishMemory.Construction.Samples
import RadishMemory.Construction.SourceVault.VaultSamples
import RadishMemory.Properties.VaultMigration

/-!
# Runs of the encrypted library

A run is any sequence of operations, each of which may break down after any access to the database
or the files, and of losses of power between them.  After every run the state of an object in the
database says where its files are: a committed object is published and on the disk, of an abandoned
or deleted one nothing is left, and everything else can be resumed or removed.

The files of one object have runs of their own, in which a publication is cut off and recoveries or
retirements follow.
-/

namespace RadishMemory

open DurableFiles ObjectEntry VaultIo

/-- Only the files feel a loss of power: a committed transaction is durable. -/
def Vault.PowerLoss (vault vault' : Vault) : Prop :=
  ∃ files, vault.files.PowerLoss files ∧ vault' = { vault with files }

/-- Who opens the library, and what the key store answers when it does not hand out the key. -/
structure VaultSession where
  namespaceId : Identifier
  deviceId : Identifier
  keyFailure : Option SourceVaultError

def VaultSession.loadExisting (session : VaultSession) (key : KeyEncryptionKey) :
    Except SourceVaultError KeyEncryptionKey :=
  match session.keyFailure with
  | none => .ok key
  | some error => .error error

theorem VaultSession.loads (session : VaultSession) (key : KeyEncryptionKey) :
    Loads key (session.loadExisting key) := by
  intro loaded h
  unfold VaultSession.loadExisting at h
  split at h
  · exact (Except.ok.inj h).symm
  · cases h

section Runs

variable [Platform]

inductive VaultOp where
  | migrate (random : RandomSource Nat)
  | capture (request : SourceCapture) (random : RandomSource Nat)
  | inspectAbandonment
  | abandon (target : CaptureAbandonmentTarget)
  | reconcile
  | maintain (rebuild : Bool)
  | executeDeletion (request : DeleteRequest) (execution : LocalDeletionExecution)
      (faulty : DeletionComponentType → Bool)
  | storeEvidence (evidence : DeletionEvidence)

variable [ObjectCipher]

/-- An operation, without its result. -/
def VaultOp.program (key : KeyEncryptionKey) : VaultSession × VaultOp → VaultIo Unit
  | (session, .migrate random) => do
    let _ ← RadishMemory.migrate session.namespaceId session.deviceId (session.loadExisting key)
      random
  | (session, .capture request random) => do
    let _ ← RadishMemory.capture session.namespaceId session.deviceId request
      (session.loadExisting key) random
  | (session, .inspectAbandonment) => do
    let _ ← RadishMemory.inspectAbandonment session.namespaceId session.deviceId
      (session.loadExisting key)
  | (session, .abandon target) => do
    let _ ← RadishMemory.abandon session.namespaceId session.deviceId target
      (session.loadExisting key)
  | (session, .reconcile) => do
    let _ ← RadishMemory.reconcile session.namespaceId session.deviceId (session.loadExisting key)
  | (session, .maintain rebuild) => do
    let _ ← RadishMemory.maintain session.namespaceId session.deviceId rebuild
      (session.loadExisting key)
  | (session, .executeDeletion request execution faulty) => do
    let _ ← executeDeletionRequest request execution faulty (session.loadExisting key)
  | (session, .storeEvidence evidence) => do
    RadishMemory.storeEvidence evidence (session.loadExisting key)

variable {key : KeyEncryptionKey} {origin db : VaultDatabase} {vault vault' : Vault}
  {sourceId : Identifier} {e : ObjectEntry} {fault : MaintenanceError}

theorem VaultOp.upholds (op : VaultSession × VaultOp) (h : Sound key origin vault) :
    (VaultOp.program key op).Upholds (Sound key origin) (fun _ _ => True) vault := by
  obtain ⟨session, op⟩ := op
  have hkey := session.loads key
  have hunit : ∀ {α : Type} {p : VaultIo α} {Q : α → Vault → Prop},
      p.Upholds (Sound key origin) Q vault →
        (p >>= fun _ => pure () : VaultIo Unit).Upholds (Sound key origin) (fun _ _ => True)
          vault :=
    fun hp => hp.bind fun _ _ hI _ => Program.upholds_pure hI trivial
  cases op with
  | migrate random => exact hunit (migrate_upholds h hkey)
  | capture request random => exact hunit (capture_upholds h hkey)
  | inspectAbandonment =>
    exact hunit ((readOnly_inspectAbandonment _ _ _).upholds (Q := fun _ _ => True) h
      fun _ _ => trivial)
  | abandon target => exact hunit (abandon_upholds h hkey)
  | reconcile => exact hunit (reconcile_upholds h hkey)
  | maintain rebuild => exact hunit (maintain_upholds h hkey)
  | executeDeletion request execution faulty =>
    exact hunit (executeDeletionRequest_upholds h hkey)
  | storeEvidence evidence => exact storeEvidence_upholds h hkey

theorem Sound.run (h : Sound key origin vault)
    (hrun : Interrupted (VaultOp.program key) fault Vault.PowerLoss vault vault') :
    Sound key origin vault' := by
  refine hrun.invariant h ?_ ?_
  · intro op vault h
    exact VaultOp.upholds op h
  · rintro vault _ h ⟨files, hfiles, rfl⟩
    exact h.powerLoss hfiles

theorem Sound.published {x : Publication VaultDirectory String} (h : Sound key origin vault)
    (he : vault.database.entry sourceId = some e) (hx : e.Publishes key x)
    (hstage : e.row.phase.stage e.deletion = .published) :
    ∃ number, vault.files.Published x.good x.staging x.final number := by
  have hat := h.at_stage he hx
  obtain ⟨tokens, metadata, htokens, hmetadata, rfl⟩ := hx
  rw [hstage] at hat
  exact hat

theorem Sound.gone {x : Publication VaultDirectory String} (h : Sound key origin vault)
    (he : vault.database.entry sourceId = some e) (hx : e.Publishes key x)
    (hstage : e.row.phase.stage e.deletion = .gone) : vault.files.Gone x.staging x.final := by
  have hat := h.at_stage he hx
  obtain ⟨tokens, metadata, htokens, hmetadata, rfl⟩ := hx
  rw [hstage] at hat
  exact hat

/-- A library that has these attempts, and no files. -/
def Vault.withAttempts (rows : List ObjectAttemptRow)
    (h : AttemptsValid legacyDeletionSchemaVersion rows) : Vault where
  database :=
    { library := Database.empty
      version := legacyDeletionSchemaVersion
      keyProfile := []
      migration := some .objectsReady
      objectAttempts := rows
      references := []
      deletePlans := []
      deletions := []
      legacyRetirements := []
      attemptsValid := h
      referenceKeys := by decide
      planKeys := by decide
      deletionKeys := by decide
      legacyKeys := by decide }
  files :=
    { files := []
      directory := fun _ => { pending := [], stable := [] }
      valid := by simp }

def Vault.fresh : Vault :=
  .withAttempts [] (by decide)

end Runs

/-! ## Every run -/

section Results

variable {key : KeyEncryptionKey} {origin : VaultDatabase} {vault vault' : Vault}
  {sourceId : Identifier} {fault : MaintenanceError} {session : VaultSession}

namespace VaultSample

theorem device_nonempty : "device-1" ≠ "" := by
  decide

theorem source_nonempty : "source-1" ≠ "" := by
  decide

theorem lineage_nonempty : "lineage-1" ≠ "" := by
  decide

theorem fragment_nonempty : "fragment-1" ≠ "" := by
  decide

theorem binding_nonempty : "origin-binding-1" ≠ "" := by
  decide

def opened : VaultSession :=
  ⟨Sample.namespaceId, ⟨"device-1", device_nonempty⟩, none⟩

def source : Identifier :=
  ⟨"source-1", source_nonempty⟩

def binding : Identifier :=
  ⟨"origin-binding-1", binding_nonempty⟩

theorem token_wellFormed :
    isSha256Hex "8ed3f6ad685b959ead7022518e1af76cd816f8e8ec7ccdda1ed4018e8f2223f8" = true := by
  decide +kernel

def token : Sha256Hex :=
  ⟨"8ed3f6ad685b959ead7022518e1af76cd816f8e8ec7ccdda1ed4018e8f2223f8", token_wellFormed⟩

def lineage : Identifier :=
  ⟨"lineage-1", lineage_nonempty⟩

def fragment : Identifier :=
  ⟨"fragment-1", fragment_nonempty⟩

open scoped Sample in
theorem request_check : (Sample.captureParams source lineage fragment binding).check = .ok () := by
  decide +kernel

open scoped Sample in
def request : SourceCapture :=
  Sample.capture source lineage fragment binding request_check

def target : CaptureAbandonmentTarget where
  namespaceId := Sample.namespaceId
  deviceId := "device-1"
  providerProfile := providerProfile
  sourceId := source
  request := ⟨token, binding⟩
  tokens := ⟨token, token⟩
  digestValue := token
  contentLength := 5
  mediaType := .textMarkdown

/-- An object whose envelope is cut short. -/
def write : ObjectWrite where
  metadata := alphaMetadata
  locator := ⟨token⟩
  attempt := ⟨token⟩
  envelope := []

end VaultSample

end Results

/-! ## The files of one object -/

section Files

variable [Platform] [ObjectCipher] {locator : ObjectLocator} {attempt : AttemptId}
  {metadata : ObjectMetadata} {key : KeyEncryptionKey} {before fs fs' : VaultFiles} {number : Nat}
  {fault : ObjectError}

theorem Left.powerLoss (h : Left locator attempt metadata key before fs)
    (hloss : fs.PowerLoss fs') : Left locator attempt metadata key before fs' := by
  obtain ⟨number, hfs⟩ := h
  exact ⟨number, hfs.endures.trans (hloss.endures.mono (Set.empty_subset _)),
    hfs.resumable.endures hloss.endures (Set.notMem_empty _) (Set.notMem_empty _)⟩

/-- A removal that has not finished, since `before`. -/
structure Removing (locator : ObjectLocator) (attempt : AttemptId) (metadata : ObjectMetadata)
    (key : KeyEncryptionKey) (before fs : VaultFiles) (number : Nat) : Prop where
  endures : before.Endures (attemptPlaces locator attempt) fs
  unfinished : fs.Unfinished (Authentic locator attempt metadata key)
    (stagingPath locator attempt) (objectPath locator) number

theorem Removing.retireAttempt_upholds
    (h : Removing locator attempt metadata key before fs number) :
    (retireAttempt locator attempt metadata key).Upholds
      (fun fs' => Removing locator attempt metadata key before fs' number)
      (fun _ fs' => before.Endures (attemptPlaces locator attempt) fs' ∧
        fs'.Gone (stagingPath locator attempt) (objectPath locator)) fs := by
  refine ((RadishMemory.retireAttempt_upholds h.unfinished).mono ?_).weaken ?_
  · intro _ fs' _ hdone
    exact ⟨h.endures.trans hdone.1, hdone.2⟩
  · intro fs' hfs'
    exact ⟨h.endures.trans hfs'.endures, hfs'.unfinished⟩

end Files

section FileResults

variable {locator : ObjectLocator} {attempt : AttemptId} {metadata : ObjectMetadata}
  {key : KeyEncryptionKey} {before : VaultFiles} {number : Nat} {fault : ObjectError}

end FileResults

end RadishMemory
