import RadishMemory.Construction.SourceVault.KeyInitialization
import RadishMemory.Properties.KeyReadback

/-!
# Key initialization never replaces a key

Any number of processes initialize the key of one library, and each may stop anywhere.  A process
writes a secret only while it holds the writer lock, after it has read in the same transaction
that there is no key profile, that the directories are empty and that the slot is empty.  Nobody
else writes while it holds the lock, so all of this still holds at the write.  A secret that is
there stays, and every key that is returned was decoded from it.
-/

namespace RadishMemory

variable {ι : Type} {s s' : KeyLibrary ι} {i : ι}

/-! ## What the actors guarantee -/

/-- The library may receive its first secret. -/
structure Unkeyed (s : KeyLibrary ι) : Prop where
  secret : s.slot.secret = none
  keyProfile : s.database.keyProfile = []
  objects : s.objects = []
  staging : s.staging = []

/-- What one write of a secret does. -/
structure FirstSecret (s s' : KeyLibrary ι) : Prop where
  unkeyed : Unkeyed s
  stored : ∃ value, s'.slot.secret = some value ∧ s'.slot.written = s.slot.written ++ [value]

/-- The secret and the history of its writes are untouched. -/
structure SameSecret (s s' : KeyLibrary ι) : Prop where
  secret : s'.slot.secret = s.slot.secret
  written : s'.slot.written = s.slot.written

/-- What an actor may do to the library. -/
structure KeyGuarantee (actor : Actor ι) (s s' : KeyLibrary ι) : Prop where
  secret : SameSecret s s' ∨ FirstSecret s s'
  objects : s'.objects = s.objects
  staging : s'.staging = s.staging
  locked : ∀ i, s.writer = some i → actor ≠ .process i →
    s'.writer = some i ∧ s'.database = s.database ∧ SameSecret s s'

/-- At most one secret has been written, and it is still there. -/
def OneSecret (s : KeyLibrary ι) : Prop :=
  s.slot.written = [] ∨ ∃ value, s.slot.secret = some value ∧ s.slot.written = [value]

/-- The key is decoded from the secret in the slot. -/
def SecretKey (key : KeyEncryptionKey) (s : KeyLibrary ι) : Prop :=
  ∃ value, s.slot.secret = some value ∧ decode value = .ok key

theorem KeyGuarantee.kept {actor : Actor ι} (h : KeyGuarantee actor s s') {value : List UInt8}
    (hsecret : s.slot.secret = some value) :
    s'.slot.secret = some value ∧ s'.slot.written = s.slot.written := by
  rcases h.secret with hsame | hfirst
  · exact ⟨hsame.secret.trans hsecret, hsame.written⟩
  · have hnone := hfirst.unkeyed.secret
    rw [hsecret] at hnone
    cases hnone

theorem KeyGuarantee.secretKey {actor : Actor ι} (h : KeyGuarantee actor s s')
    {key : KeyEncryptionKey} (hkey : SecretKey key s) : SecretKey key s' := by
  obtain ⟨value, hvalue, hdecode⟩ := hkey
  exact ⟨value, (h.kept hvalue).1, hdecode⟩

theorem SameSecret.oneSecret (h : SameSecret s s') (hone : OneSecret s) : OneSecret s' := by
  unfold OneSecret
  rw [h.secret, h.written]
  exact hone

theorem FirstSecret.oneSecret (h : FirstSecret s s') (hone : OneSecret s) : OneSecret s' := by
  obtain ⟨value, hsecret, hwritten⟩ := h.stored
  rcases hone with hempty | ⟨old, hold, _⟩
  · exact .inr ⟨value, hsecret, by rw [hwritten, hempty]; rfl⟩
  · have hnone := h.unkeyed.secret
    rw [hold] at hnone
    cases hnone

/-! ## Facts that survive the others -/

abbrev KeyRespects {ε α : Type} (Q : Except ε α → KeyLibrary ι → Prop)
    (p : Program (Actor ι) (KeyLibrary ι) ε α) (s : KeyLibrary ι) : Prop :=
  p.Respects OneSecret KeyGuarantee (· ≠ ·) Q s

/-- The fact survives whatever the others do while the process waits. -/
abbrev Survives (i : ι) (P : KeyLibrary ι → Prop) : Prop :=
  Program.StableAt OneSecret KeyGuarantee (· ≠ ·) P (.process i)

theorem survives_true : Survives i fun _ => True :=
  fun _ _ _ _ => trivial

theorem survives_secretKey {key : KeyEncryptionKey} : Survives i (SecretKey key) := by
  rintro s s' hkey ⟨actor, _, hG, _⟩
  exact hG.secretKey hkey

theorem survives_secret {value : List UInt8} :
    Survives i fun s => s.slot.secret = some value := by
  rintro s s' hvalue ⟨actor, _, hG, _⟩
  exact (hG.kept hvalue).1

/-- The process holds the writer lock. -/
def Holds (i : ι) (s : KeyLibrary ι) : Prop :=
  s.writer = some i

theorem survives_holds : Survives i (Holds i) := by
  rintro s s' hholds ⟨actor, hother, hG, _⟩
  exact (hG.locked i hholds fun heq => hother heq.symm).1

/-- The process holds the writer lock of a library without a key profile and objects. -/
structure Eligible (i : ι) (s : KeyLibrary ι) : Prop where
  holds : Holds i s
  keyProfile : s.database.keyProfile = []
  objects : s.objects = []
  staging : s.staging = []

theorem survives_eligible : Survives i (Eligible i) := by
  rintro s s' h ⟨actor, hother, hG, _⟩
  obtain ⟨hwriter, hdatabase, -⟩ := hG.locked i h.holds fun heq => hother heq.symm
  exact ⟨hwriter, by rw [hdatabase]; exact h.keyProfile, hG.objects.trans h.objects,
    hG.staging.trans h.staging⟩

theorem survives_unkeyed : Survives i fun s => Eligible i s ∧ s.slot.secret = none := by
  rintro s s' ⟨h, hnone⟩ hstep
  refine ⟨survives_eligible _ _ h hstep, ?_⟩
  obtain ⟨actor, hother, hG, _⟩ := hstep
  obtain ⟨-, -, hsame⟩ := hG.locked i h.holds fun heq => hother heq.symm
  exact hsame.secret.trans hnone

/-! ## Single accesses -/

theorem KeyGuarantee.refl (actor : Actor ι) (s : KeyLibrary ι) : KeyGuarantee actor s s :=
  ⟨.inl ⟨rfl, rfl⟩, rfl, rfl, fun _ h _ => ⟨h, rfl, rfl, rfl⟩⟩

variable {ε α : Type} {P : KeyLibrary ι → Prop}

theorem respects_query {query : KeyLibrary ι → Except ε α} {Q : Except ε α → KeyLibrary ι → Prop}
    (hP : P s) (hsurvives : Survives i P) (h : ∀ s, P s → Q (query s) s) :
    KeyRespects Q (.read (.process i) query) s :=
  Program.respects_access hP hsurvives fun s hP hInv => ⟨.refl _ s, hInv, h s hP⟩

/-- A query whose caller keeps a fact and learns another one. -/
theorem respects_learn {query : KeyLibrary ι → Except ε α} {R : α → KeyLibrary ι → Prop}
    (hP : P s) (hsurvives : Survives i P) (h : ∀ s a, P s → query s = .ok a → R a s) :
    KeyRespects (fun r s => ∀ a, r = .ok a → P s ∧ R a s) (.read (.process i) query) s :=
  respects_query hP hsurvives fun s hP a ha => ⟨hP, h s a hP ha⟩

/-- A query that only may fail. -/
theorem respects_check {query : KeyLibrary ι → Except ε α} (hP : P s) (hsurvives : Survives i P) :
    KeyRespects (fun r s => ∀ a, r = .ok a → P s) (.read (.process i) query) s :=
  respects_query hP hsurvives fun _ hP _ _ => hP

theorem readSecret_eq_ok {slot : SlotState} {value : List UInt8}
    (h : slot.readSecret = .ok value) : slot.secret = some value := by
  unfold SlotState.readSecret at h
  split at h
  · cases h
  · rwa [Option.orError_eq_ok_iff] at h

/-- A store that reports a missing key has none. -/
theorem readSecret_keyMissing {slot : SlotState} {error : SourceVaultError}
    (h : slot.readSecret = .error error) (hcode : error.code = .keyMissing) :
    slot.secret = none := by
  unfold SlotState.readSecret at h
  split at h
  · rename_i fault _
    cases h
    exact absurd hcode fault.present
  · cases hsecret : slot.secret with
    | none => rfl
    | some value =>
      rw [hsecret] at h
      cases h

/-! ## The provider -/

/-- Loading a key leaves everything alone. -/
theorem loadExisting_respects (hP : P s) (hsurvives : Survives i P) :
    KeyRespects (fun r s => ∀ key, r = .ok key → P s ∧ SecretKey key s)
      (loadExisting (libraryStore i)) s := by
  unfold loadExisting
  refine Program.respects_bind_ok (respects_learn hP hsurvives fun s value _ hread =>
    readSecret_eq_ok hread) (fun value s hvalue => ?_) fun _ _ _ h => by cases h
  refine Program.respects_ofExcept_bind (fun key hdecode => ?_) fun _ _ h => by cases h
  have hkey : P s ∧ SecretKey key s := ⟨hvalue.1, value, hvalue.2, hdecode⟩
  have hboth : Survives i fun s => P s ∧ SecretKey key s := fun s s' h hstep =>
    ⟨hsurvives _ _ h.1 hstep, survives_secretKey _ _ h.2 hstep⟩
  refine Program.respects_bind_ok (respects_check hkey hboth) (fun _ s hkey => ?_)
    fun _ _ _ h => by cases h
  refine Program.respects_bind_ok (respects_check hkey hboth) (fun _ s hkey => ?_)
    fun _ _ _ h => by cases h
  refine Program.respects_ofExcept_bind (fun _ _ => ?_) fun _ _ h => by cases h
  refine Program.respects_bind_ok (respects_check hkey hboth) (fun _ s hkey => ?_)
    fun _ _ _ h => by cases h
  rintro _ ⟨⟩
  exact hkey

/-- The write of a generated secret: the slot has none. -/
theorem writeSecret_respects (value : List UInt8)
    (h : Eligible i s ∧ s.slot.secret = none) :
    KeyRespects (fun _ s => Eligible i s) ((libraryStore i).writeSecret value) s := by
  refine Program.respects_access h survives_unkeyed fun s h hInv => ?_
  obtain ⟨heligible, hnone⟩ := h
  unfold SlotState.writeSecret
  by_cases heffect : s.slot.takesEffect = true
  · rw [if_pos heffect]
    have hfirst : FirstSecret s { s with slot :=
        { s.slot with secret := some value, written := s.slot.written ++ [value] } } :=
      ⟨⟨hnone, heligible.keyProfile, heligible.objects, heligible.staging⟩, value, rfl, rfl⟩
    refine ⟨⟨.inr hfirst, rfl, rfl, fun j hj hother => ?_⟩, hfirst.oneSecret hInv, ?_⟩
    · -- The lock belongs to the process that writes.
      have hsame : some j = some i := hj.symm.trans heligible.holds
      cases hsame
      exact absurd rfl hother
    · exact ⟨heligible.holds, heligible.keyProfile, heligible.objects, heligible.staging⟩
  · rw [if_neg heffect]
    exact ⟨.refl _ s, hInv, heligible⟩

theorem setLabel_respects (h : Eligible i s) :
    KeyRespects (fun _ s => Eligible i s) (libraryStore i).setLabel s := by
  refine Program.respects_access h survives_eligible fun s h hInv => ?_
  have hslot : s.slot.setLabel.secret = s.slot.secret ∧
      s.slot.setLabel.written = s.slot.written := by
    unfold SlotState.setLabel
    split
    · exact ⟨rfl, rfl⟩
    · exact ⟨rfl, rfl⟩
  have hsame : SameSecret s { s with slot := s.slot.setLabel } := ⟨hslot.1, hslot.2⟩
  exact ⟨⟨.inl hsame, rfl, rfl, fun _ hj _ => ⟨hj, rfl, hsame⟩⟩, hsame.oneSecret hInv,
    h.holds, h.keyProfile, h.objects, h.staging⟩

/-- A caller that learns nothing from a failed read but that the key is missing. -/
theorem attemptRead_respects (hP : P s) (hsurvives : Survives i P) :
    KeyRespects (fun r s => P s ∧ ∀ error, r = .ok (.error error) → error.code = .keyMissing →
      s.slot.secret = none) (libraryStore i).readSecret.attempt s := by
  refine Program.respects_attempt (respects_query hP hsurvives fun s hP => ⟨hP, ?_⟩)
  intro error herror hcode
  exact readSecret_keyMissing (Except.ok.inj herror) hcode

theorem expectedValue_respects (random : Except SourceVaultError KeyEncryptionKey)
    (h : Eligible i s) :
    KeyRespects (fun r s => ∀ value, r = .ok value → Eligible i s)
      (expectedValue (libraryStore i) random) s := by
  unfold expectedValue
  refine Program.respects_bind ((attemptRead_respects h survives_eligible).mono
    fun r s hfirst => ?_)
  cases r with
  | error e => exact fun _ h => by cases h
  | ok first => ?_
  cases first with
  | ok value =>
    refine Program.respects_ofExcept_bind (fun _ _ => ?_) fun _ _ h => by cases h
    exact fun _ _ => hfirst.1
  | error e => ?_
  by_cases hmissing : e.code = .keyMissing
  · simp only [if_pos hmissing]
    refine Program.respects_ofExcept_bind (fun generated _ => ?_) fun _ _ h => by cases h
    refine Program.respects_bind ((attemptRead_respects hfirst.1 survives_eligible).mono
      fun r s hsecond => ?_)
    cases r with
    | error e => exact fun _ h => by cases h
    | ok second => ?_
    cases second with
    | ok value =>
      refine Program.respects_ofExcept_bind (fun _ _ => ?_) fun _ _ h => by cases h
      exact fun _ _ => hsecond.1
    | error e => ?_
    by_cases hstill : e.code = .keyMissing
    · simp only [if_pos hstill]
      refine Program.respects_bind_ok ((writeSecret_respects generated
        ⟨hsecond.1, hsecond.2 e rfl hstill⟩).mono fun _ s h _ _ => h) (fun _ s h => ?_)
        fun _ _ _ h => by cases h
      exact fun _ _ => h
    · simp only [if_neg hstill]
      exact fun _ h => by cases h
  · simp only [if_neg hmissing]
    exact fun _ h => by cases h

theorem ensureLabel_respects (h : Eligible i s) :
    KeyRespects (fun r s => ∀ u, r = .ok u → Eligible i s) (ensureLabel (libraryStore i)) s := by
  unfold ensureLabel
  refine Program.respects_bind (Program.respects_attempt
    (respects_query h survives_eligible fun s h => ?_))
  dsimp only
  cases s.slot.checkLabel "read key label" with
  | ok _ => exact fun _ _ => h
  | error e => ?_
  dsimp only
  by_cases hlabel : e.code = .keyMetadataMismatch
  · rw [if_pos hlabel]
    exact (setLabel_respects h).mono fun _ s h _ _ => h
  · rw [if_neg hlabel]
    exact fun _ h => by cases h

theorem bootstrap_respects (random : Except SourceVaultError KeyEncryptionKey)
    (h : Eligible i s) :
    KeyRespects (fun r s => ∀ key, r = .ok key → Eligible i s ∧ SecretKey key s)
      (bootstrap (libraryStore i) random) s := by
  unfold bootstrap
  refine Program.respects_bind_ok (expectedValue_respects random h) (fun expected s h => ?_)
    fun _ _ _ h => by cases h
  refine Program.respects_bind_ok (respects_check h survives_eligible) (fun _ s h => ?_)
    fun _ _ _ h => by cases h
  refine Program.respects_ofExcept_bind (fun _ _ => ?_) fun _ _ h => by cases h
  refine Program.respects_bind_ok (ensureLabel_respects h) (fun _ s h => ?_)
    fun _ _ _ h => by cases h
  refine Program.respects_bind_ok (loadExisting_respects h survives_eligible)
    (fun key s hkey => ?_) fun _ _ _ h => by cases h
  have hboth : Survives i fun s => Eligible i s ∧ SecretKey key s := fun s s' h hstep =>
    ⟨survives_eligible _ _ h.1 hstep, survives_secretKey _ _ h.2 hstep⟩
  refine Program.respects_bind_ok (respects_check hkey hboth) (fun _ s hkey => ?_)
    fun _ _ _ h => by cases h
  refine Program.respects_ofExcept_bind (fun _ _ => ?_) fun _ _ h => by cases h
  rintro _ ⟨⟩
  exact hkey

/-! ## The transaction -/

theorem observe_respects {query : KeyLibrary ι → Except SourceVaultError α}
    {R : α → KeyLibrary ι → Prop} (hP : P s) (hsurvives : Survives i P)
    (h : ∀ s a, P s → query s = .ok a → R a s) :
    KeyRespects (fun r s => ∀ a, r = .ok a → P s ∧ R a s) (observe i query) s :=
  respects_learn hP hsurvives fun s a hP ha => h s a hP (Except.mapError_eq_ok_iff.1 ha)

theorem verifyPath_respects (hP : P s) (hsurvives : Survives i P) :
    KeyRespects (fun r s => ∀ u, r = .ok u → P s) (verifyPath i) s :=
  respects_check hP hsurvives

theorem isEmptyForKeyInitialization_respects (hP : P s) (hsurvives : Survives i P) :
    KeyRespects (fun r s => ∀ empty, r = .ok empty →
      P s ∧ (empty = true → s.objects = [] ∧ s.staging = []))
      (isEmptyForKeyInitialization i) s := by
  unfold isEmptyForKeyInitialization
  refine Program.respects_bind_ok (observe_respects (R := fun objects s =>
    objects = true → s.objects = []) hP hsurvives fun s objects _ hread hobjects => ?_)
    (fun objects s h => ?_) fun _ _ _ h => by cases h
  · cases hverdict : s.verdicts.directory with
    | error e =>
      rw [hverdict] at hread
      cases hread
    | ok _ =>
      rw [hverdict] at hread
      cases hread
      exact List.isEmpty_iff.1 hobjects
  · cases objects with
    | false =>
      rintro _ ⟨⟩
      exact ⟨h.1, fun hfalse => by cases hfalse⟩
    | true =>
      have hboth : Survives i fun s => P s ∧ s.objects = [] := by
        rintro s s' h ⟨actor, hother, hG, hInv⟩
        exact ⟨hsurvives _ _ h.1 ⟨actor, hother, hG, hInv⟩, hG.objects.trans h.2⟩
      refine (observe_respects (R := fun staging s => staging = true → s.staging = [])
        ⟨h.1, h.2 rfl⟩ hboth fun s staging _ hread hstaging => ?_).mono
          fun r s hr empty hempty => ?_
      · cases hverdict : s.verdicts.directory with
        | error e =>
          rw [hverdict] at hread
          cases hread
        | ok _ =>
          rw [hverdict] at hread
          cases hread
          exact List.isEmpty_iff.1 hstaging
      · obtain ⟨hkept, hstaging⟩ := hr empty hempty
        exact ⟨hkept.1, fun htrue => ⟨hkept.2, hstaging htrue⟩⟩

theorem stillEmpty_respects (empty : Bool) (hP : P s) (hsurvives : Survives i P) :
    KeyRespects (fun r s => ∀ unchanged, r = .ok unchanged → P s) (stillEmpty i empty) s := by
  cases empty with
  | true =>
    exact (isEmptyForKeyInitialization_respects hP hsurvives).mono fun r s hr e he => (hr e he).1
  | false => exact fun _ _ => hP

/-- A library whose key is not initialized has no key profile. -/
theorem checkEligibility_respects (namespaceId deviceId profile : String) (h : Holds i s) :
    KeyRespects (fun r s => ∀ initialized, r = .ok initialized →
      Holds i s ∧ (initialized = false → s.database.keyProfile = []))
      (checkEligibility i namespaceId deviceId profile) s := by
  refine respects_learn h survives_holds fun s initialized _ hcheck hfalse => ?_
  rw [Except.mapError_eq_ok_iff] at hcheck
  simp only [preflight, Except.bind_eq_ok_iff, Except.exists_unit_iff, Except.pure_eq_ok_iff,
    require_eq_ok_iff] at hcheck
  obtain ⟨found, ⟨hsupported, _, hfound⟩, _, _, hresult⟩ := hcheck
  by_cases hversion : found = keyInitializationSchemaVersion
  · rw [if_pos hversion] at hresult
    simp only [Except.bind_eq_ok_iff, Except.exists_unit_iff, Except.pure_eq_ok_iff] at hresult
    rw [hfalse] at hresult
    cases hresult.2
  · refine s.database.created (lt_of_le_of_ne hsupported ?_)
    rw [hfound]
    exact hversion

theorem beginImmediate_respects :
    KeyRespects (fun r s => ∀ u, r = .ok u → Holds i s) (beginImmediate i) s := by
  refine Program.respects_access trivial survives_true fun s _ hInv => ?_
  dsimp only [Program.commit]
  cases hbody : (do
      s.verdicts.begins.mapError .ofSqlite
      require (s.writer = none) (.database .storage none)
      return ((), { s with writer := some i }) :
      Except VaultMaintenanceError (Unit × KeyLibrary ι)) with
  | error e => exact ⟨.refl _ s, hInv, fun _ h => by cases h⟩
  | ok r =>
    simp only [Except.bind_eq_ok_iff, Except.exists_unit_iff, Except.pure_eq_ok_iff,
      require_eq_ok_iff] at hbody
    obtain ⟨_, hfree, rfl⟩ := hbody
    have hsame : SameSecret s { s with writer := some i } := ⟨rfl, rfl⟩
    refine ⟨⟨.inl hsame, rfl, rfl, fun j hj _ => ?_⟩, hsame.oneSecret hInv, fun _ _ => rfl⟩
    rw [hfree] at hj
    cases hj

theorem commitKeyInitialization_respects (initialized : Bool)
    (namespaceId deviceId profile : String) {key : KeyEncryptionKey}
    (h : Holds i s ∧ SecretKey key s) :
    KeyRespects (fun r s => ∀ u, r = .ok u → SecretKey key s)
      (commitKeyInitialization i initialized namespaceId deviceId profile) s := by
  have hboth : Survives i fun s => Holds i s ∧ SecretKey key s := fun s s' h hstep =>
    ⟨survives_holds _ _ h.1 hstep, survives_secretKey _ _ h.2 hstep⟩
  refine Program.respects_access h hboth fun s h hInv => ?_
  have hcommitted : ∀ database, KeyGuarantee (.process i) s
      { s with database := database, writer := none } := fun database => by
    refine ⟨.inl ⟨rfl, rfl⟩, rfl, rfl, fun j hj hother => ?_⟩
    have hsame : some j = some i := hj.symm.trans h.1
    cases hsame
    exact absurd rfl hother
  dsimp only [Program.commit]
  cases s.verdicts.commits with
  | error e => exact ⟨.refl _ s, hInv, fun _ h => by cases h⟩
  | ok _ =>
    cases initialized with
    | true => exact ⟨hcommitted s.database, hInv, fun _ _ => h.2⟩
    | false => exact ⟨hcommitted _, hInv, fun _ _ => h.2⟩

theorem loadOrBootstrap_respects {initialized : Bool}
    (random : Except SourceVaultError KeyEncryptionKey) (hholds : Holds i s)
    (h : initialized = false → Eligible i s) :
    KeyRespects (fun r s => ∀ key, r = .ok key → Holds i s ∧ SecretKey key s)
      (loadOrBootstrap (libraryStore i) initialized random) s := by
  unfold loadOrBootstrap
  cases initialized with
  | true => exact loadExisting_respects hholds survives_holds
  | false =>
    exact (bootstrap_respects random (h rfl)).mono fun r s hr key hkey =>
      ⟨(hr key hkey).1.holds, (hr key hkey).2⟩

variable [DecidableEq ι]

theorem rollback_guarantee (i : ι) (s : KeyLibrary ι) :
    KeyGuarantee (.process i) s (rollback i s) ∧ SameSecret s (rollback i s) := by
  unfold rollback
  by_cases hholds : s.writer = some i
  · rw [if_pos hholds]
    refine ⟨⟨.inl ⟨rfl, rfl⟩, rfl, rfl, fun j hj hother => ?_⟩, rfl, rfl⟩
    have hsame : some j = some i := hj.symm.trans hholds
    cases hsame
    exact absurd rfl hother
  · rw [if_neg hholds]
    exact ⟨.refl _ s, rfl, rfl⟩

theorem inTransaction_respects {body : KeyStep ι α} {R : α → KeyLibrary ι → Prop}
    (h : KeyRespects (fun r s => ∀ a, r = .ok a → R a s) body s) :
    KeyRespects (fun r s => ∀ a, r = .ok a → R a s) (inTransaction i body) s := by
  unfold inTransaction
  refine Program.respects_bind (Program.respects_attempt (h.mono fun r s hr => ?_))
  dsimp only
  cases r with
  | ok a =>
    rintro _ ⟨⟩
    exact hr a rfl
  | error e =>
    refine Program.respects_access trivial survives_true fun s _ hInv => ?_
    obtain ⟨hG, hsame⟩ := rollback_guarantee i s
    exact ⟨hG, hsame.oneSecret hInv, fun _ h => by cases h⟩

omit [DecidableEq ι] in
/-- Everything a process does under the writer lock. -/
theorem initializeInTransaction_respects (namespaceId deviceId : String)
    (random : Except SourceVaultError KeyEncryptionKey) (h : Holds i s) :
    KeyRespects (fun r s => ∀ key, r = .ok key → SecretKey key s)
      (initializeInTransaction i namespaceId deviceId random) s := by
  unfold initializeInTransaction
  refine Program.respects_bind_ok (checkEligibility_respects _ _ _ h)
    (fun initialized s h => ?_) fun _ _ _ h => by cases h
  -- Nobody commits a key profile while this process holds the lock.
  have hprofile : Survives i fun s =>
      Holds i s ∧ (initialized = false → s.database.keyProfile = []) := by
    rintro s s' ⟨hholds, hnone⟩ ⟨actor, hother, hG, hInv⟩
    obtain ⟨hwriter, hdatabase, -⟩ := hG.locked i hholds fun heq => hother heq.symm
    rw [hdatabase]
    exact ⟨hwriter, hnone⟩
  refine Program.respects_bind_ok (verifyPath_respects h hprofile) (fun _ s h => ?_)
    fun _ _ _ h => by cases h
  refine Program.respects_bind_ok (isEmptyForKeyInitialization_respects h hprofile)
    (fun empty s h => ?_) fun _ _ _ h => by cases h
  obtain ⟨⟨hholds, hnone⟩, hempty⟩ := h
  have heligible : (initialized || !empty) = false → Eligible i s := by
    intro hneither
    rw [Bool.or_eq_false_iff, Bool.not_eq_false'] at hneither
    obtain ⟨hobjects, hstaging⟩ := hempty hneither.2
    exact ⟨hholds, hnone hneither.1, hobjects, hstaging⟩
  refine Program.respects_bind_ok (P := fun key s => Holds i s ∧ SecretKey key s)
    (Program.respects_mapError ((loadOrBootstrap_respects random hholds heligible).mono
      fun r s hr key hkey => hr key (Except.mapError_eq_ok_iff.1 hkey)))
    (fun key s h => ?_) fun _ _ _ h => by cases h
  have hboth : Survives i fun s => Holds i s ∧ SecretKey key s := fun s s' h hstep =>
    ⟨survives_holds _ _ h.1 hstep, survives_secretKey _ _ h.2 hstep⟩
  refine Program.respects_bind_ok (stillEmpty_respects empty h hboth) (fun unchanged s h => ?_)
    fun _ _ _ h => by cases h
  refine Program.respects_ofExcept_bind (fun _ _ => ?_) fun _ _ h => by cases h
  refine Program.respects_bind_ok (verifyPath_respects h hboth) (fun _ s h => ?_)
    fun _ _ _ h => by cases h
  refine Program.respects_bind_ok (commitKeyInitialization_respects _ _ _ _ h)
    (fun _ s h => ?_) fun _ _ _ h => by cases h
  rintro _ ⟨⟩
  exact h

theorem initializeLibraryKey_respects (namespaceId deviceId : String)
    (random : Except SourceVaultError KeyEncryptionKey) (s : KeyLibrary ι) :
    KeyRespects (fun r s => ∀ key, r = .ok key → SecretKey key s)
      (initializeLibraryKey i namespaceId deviceId random) s := by
  unfold initializeLibraryKey initializeInDatabase
  refine Program.respects_ofExcept_bind (fun _ _ => ?_) fun _ _ h => by cases h
  refine Program.respects_bind_ok (verifyPath_respects trivial survives_true) (fun _ s _ => ?_)
    fun _ _ _ h => by cases h
  refine Program.respects_bind_ok (respects_check trivial survives_true) (fun _ s _ => ?_)
    fun _ _ _ h => by cases h
  refine Program.respects_bind_ok (verifyPath_respects trivial survives_true) (fun _ s _ => ?_)
    fun _ _ _ h => by cases h
  refine Program.respects_bind_ok (verifyPath_respects trivial survives_true) (fun _ s _ => ?_)
    fun _ _ _ h => by cases h
  refine Program.respects_ofExcept_bind (fun _ _ => ?_) fun _ _ h => by cases h
  refine Program.respects_bind_ok beginImmediate_respects (fun _ s hholds => ?_)
    fun _ _ _ h => by cases h
  refine Program.respects_bind_ok (inTransaction_respects
    (initializeInTransaction_respects namespaceId deviceId random hholds)) (fun key s h => ?_)
    fun _ _ _ h => by cases h
  refine Program.respects_bind_ok (verifyPath_respects h survives_secretKey) (fun _ s h => ?_)
    fun _ _ _ h => by cases h
  rintro _ ⟨⟩
  exact h

/-! ## Every access is the process's own -/

section Own

open Processes (Own)

omit [DecidableEq ι] in
theorem verifyPath_own : (verifyPath i).Each (Own i) :=
  Program.each_read rfl

omit [DecidableEq ι] in
theorem isEmptyForKeyInitialization_own : (isEmptyForKeyInitialization i).Each (Own i) := by
  refine Program.Each.bind (Program.each_read rfl) fun objects => ?_
  cases objects with
  | true => exact Program.each_read rfl
  | false => trivial

omit [DecidableEq ι] in
theorem stillEmpty_own (empty : Bool) : (stillEmpty i empty).Each (Own i) := by
  cases empty with
  | true => exact isEmptyForKeyInitialization_own
  | false => trivial

omit [DecidableEq ι] in
theorem loadExisting_own : (loadExisting (libraryStore i)).Each (Own i) :=
  Program.Each.bind (Program.each_read rfl) fun _ =>
    Program.Each.bind (Program.each_ofExcept _) fun _ =>
      Program.Each.bind (Program.each_read rfl) fun _ =>
        Program.Each.bind (Program.each_read rfl) fun _ =>
          Program.Each.bind (Program.each_ofExcept _) fun _ =>
            Program.Each.bind (Program.each_read rfl) fun _ => trivial

omit [DecidableEq ι] in
theorem readSecret_own : (libraryStore i).readSecret.Each (Own i) :=
  Program.each_read rfl

omit [DecidableEq ι] in
theorem validateLabel_own : (libraryStore i).validateLabel.Each (Own i) :=
  Program.each_read rfl

omit [DecidableEq ι] in
theorem expectedValue_own (random : Except SourceVaultError KeyEncryptionKey) :
    (expectedValue (libraryStore i) random).Each (Own i) := by
  refine Program.Each.bind readSecret_own.attempt fun first => ?_
  cases first with
  | ok value => exact Program.Each.bind (Program.each_ofExcept _) fun _ => trivial
  | error e => ?_
  dsimp only
  split
  · refine Program.Each.bind (Program.each_ofExcept _) fun _ => ?_
    refine Program.Each.bind readSecret_own.attempt fun second => ?_
    cases second with
    | ok value => exact Program.Each.bind (Program.each_ofExcept _) fun _ => trivial
    | error e => ?_
    dsimp only
    split
    · exact ⟨rfl, fun s => Program.Each.bind (Program.each_ofExcept _) fun _ => trivial⟩
    · trivial
  · trivial

omit [DecidableEq ι] in
theorem ensureLabel_own : (ensureLabel (libraryStore i)).Each (Own i) := by
  refine Program.Each.bind validateLabel_own.attempt fun label => ?_
  cases label with
  | ok _ => trivial
  | error e => ?_
  dsimp only
  split
  · exact ⟨rfl, fun _ => trivial⟩
  · trivial

omit [DecidableEq ι] in
theorem loadOrBootstrap_own (initialized : Bool)
    (random : Except SourceVaultError KeyEncryptionKey) :
    (loadOrBootstrap (libraryStore i) initialized random).Each (Own i) := by
  cases initialized with
  | true => exact loadExisting_own
  | false =>
    exact Program.Each.bind (expectedValue_own random) fun _ =>
      Program.Each.bind (Program.each_read rfl) fun _ =>
        Program.Each.bind (Program.each_ofExcept _) fun _ =>
          Program.Each.bind ensureLabel_own fun _ =>
            Program.Each.bind loadExisting_own fun _ =>
              Program.Each.bind (Program.each_read rfl) fun _ =>
                Program.Each.bind (Program.each_ofExcept _) fun _ => trivial

theorem inTransaction_own {body : KeyStep ι α} (h : body.Each (Own i)) :
    (inTransaction i body).Each (Own i) := by
  refine Program.Each.bind h.attempt fun result => ?_
  cases result with
  | ok a => trivial
  | error e => exact ⟨rfl, fun _ => trivial⟩

omit [DecidableEq ι] in
theorem initializeInTransaction_own (namespaceId deviceId : String)
    (random : Except SourceVaultError KeyEncryptionKey) :
    (initializeInTransaction i namespaceId deviceId random).Each (Own i) := by
  refine Program.Each.bind (Program.each_read rfl) fun initialized => ?_
  refine Program.Each.bind verifyPath_own fun _ => ?_
  refine Program.Each.bind isEmptyForKeyInitialization_own fun empty => ?_
  refine Program.Each.bind (loadOrBootstrap_own _ random).mapError fun key => ?_
  refine Program.Each.bind (stillEmpty_own empty) fun unchanged => ?_
  exact Program.Each.bind (Program.each_ofExcept _) fun _ =>
    Program.Each.bind verifyPath_own fun _ =>
      Program.Each.bind (Program.each_transact rfl) fun _ => trivial

theorem initializeLibraryKey_own (namespaceId deviceId : String)
    (random : Except SourceVaultError KeyEncryptionKey) :
    (initializeLibraryKey i namespaceId deviceId random).Each (Own i) := by
  refine Program.Each.bind (Program.each_ofExcept _) fun _ => ?_
  refine Program.Each.bind verifyPath_own fun _ => ?_
  refine Program.Each.bind (Program.each_read rfl) fun _ => ?_
  refine Program.Each.bind verifyPath_own fun _ => ?_
  refine Program.Each.bind verifyPath_own fun _ => ?_
  refine Program.Each.bind (Program.each_ofExcept _) fun _ => ?_
  refine Program.Each.bind (Program.each_transact rfl) fun _ => ?_
  exact Program.Each.bind (inTransaction_own (initializeInTransaction_own _ _ random)) fun _ =>
    Program.Each.bind verifyPath_own fun _ => trivial

end Own

/-! ## Runs -/

/-- What a process has returned is the key of the secret in the slot. -/
def ReturnsSecretKey (_ : ι) (result : Except VaultMaintenanceError KeyEncryptionKey)
    (s : KeyLibrary ι) : Prop :=
  ∀ key, result = .ok key → SecretKey key s

theorem key_discipline :
    Processes.Discipline OneSecret KeyGuarantee ReturnsSecretKey rollback .crashed
      (KeyLibrary.Surroundings (ι := ι)) where
  environment s s' hInv h := by
    have hsame : SameSecret s s' := ⟨h.secret, h.written⟩
    exact ⟨hsame.oneSecret hInv, .inl hsame, h.objects, h.staging, fun i hi _ =>
      ⟨h.writer.trans hi, h.database, hsame⟩⟩
  recover i s hInv := ⟨(rollback_guarantee i s).2.oneSecret hInv, (rollback_guarantee i s).1⟩
  stopped _ _ _ h := by cases h
  returned _ _ _ _ _ _ hG hresult key hkey := hG.secretKey (hresult key hkey)

theorem initial_sound (library : KeyLibrary ι) (namespaceId deviceId : String)
    (random : ι → Except SourceVaultError KeyEncryptionKey) :
    (KeyProcesses.initial library namespaceId deviceId random).Sound OneSecret KeyGuarantee
      ReturnsSecretKey where
  invariant := .inl rfl
  own _ := initializeLibraryKey_own _ _ _
  respects _ := initializeLibraryKey_respects _ _ _ _

omit [DecidableEq ι] in
/-- Two results that are keys are the same key. -/
theorem SecretKey.unique {a b : KeyEncryptionKey} (ha : SecretKey a s) (hb : SecretKey b s) :
    a = b := by
  obtain ⟨value, hvalue, hdecode⟩ := ha
  obtain ⟨value', hvalue', hdecode'⟩ := hb
  rw [hvalue] at hvalue'
  cases hvalue'
  exact Except.ok.inj (hdecode.symm.trans hdecode')

/-- What may happen in one step: a secret that is there stays, and a secret is written only to an
empty slot of a library without a key profile and without objects. -/
structure KeepsKey (s s' : KeyLibrary ι) : Prop where
  secret : ∀ value, s.slot.secret = some value →
    s'.slot.secret = some value ∧ s'.slot.written = s.slot.written
  written : s'.slot.written ≠ s.slot.written → Unkeyed s

/-- What holds of a state: one secret at most has been written, and one key at most has been
returned. -/
structure OneKey (s : KeyProcesses ι) : Prop where
  written : s.store.slot.written.length ≤ 1
  returned : ∀ i j a b, s.process i = .done (.ok a) → s.process j = .done (.ok b) → a = b

omit [DecidableEq ι] in
theorem KeyGuarantee.keepsKey {actor : Actor ι} (h : KeyGuarantee actor s s') : KeepsKey s s' := by
  refine ⟨fun value hvalue => h.kept hvalue, fun hwritten => ?_⟩
  rcases h.secret with hsame | hfirst
  · exact absurd hsame.written hwritten
  · exact hfirst.unkeyed

omit [DecidableEq ι] in
theorem OneSecret.length_le (h : OneSecret s) : s.slot.written.length ≤ 1 := by
  rcases h with hnone | ⟨value, -, hone⟩
  · rw [hnone]
    exact Nat.zero_le 1
  · rw [hone]
    exact le_refl 1

/-- In every run of key initializations that may stop anywhere, no secret is replaced, one secret
at most is written, none is written once there is a key profile or an object, and all calls that
return a key return the same one. -/
theorem key_is_never_replaced (library : KeyLibrary ι) (namespaceId deviceId : String)
    (random : ι → Except SourceVaultError KeyEncryptionKey) (s : KeyProcesses ι)
    (hrun : Relation.ReflTransGen KeyProcesses.Step
      (KeyProcesses.initial library namespaceId deviceId random) s) :
    OneKey s ∧ ∀ s', KeyProcesses.Step s s' → KeepsKey s.store s'.store := by
  have hsound := (initial_sound library namespaceId deviceId random).run key_discipline hrun
  refine ⟨⟨hsound.invariant.length_le, fun i j a b ha hb => ?_⟩, fun s' hstep => ?_⟩
  · exact (hsound.returned ha a rfl).unique (hsound.returned hb b rfl)
  · obtain ⟨actor, hG⟩ := (hsound.step key_discipline hstep).2
    exact hG.keepsKey

/-! ## Two processes -/

namespace Sample

/-- A library at schema version 6 with an empty slot. -/
def unkeyedLibrary : KeyLibrary Bool where
  database := { userVersion := 6, keyProfile := [], created := fun _ => rfl }
  writer := none
  objects := []
  staging := []
  slot := { secret := none, label := "", fault := none, written := [] }
  verdicts :=
    { path := .ok (), begins := .ok (), facts := .ok (), directory := .ok (), commits := .ok () }

/-- Two processes with different random keys. -/
def initializations : KeyProcesses Bool :=
  KeyProcesses.initial unkeyedLibrary "namespace-0123456789abcdef0123456789abcdef"
    "device-fedcba9876543210fedcba9876543210"
    fun second => .ok (if second then repeatedKey 2 else repeatedKey 1)

/-- The first process runs to its end before the second starts. -/
def oneAfterTheOther : KeyProcesses Bool :=
  .advanceFor true 40 (.advanceFor false 40 initializations)

end Sample

open Sample

/-- Both return the key that the first has written. -/
theorem key_of_two_initializations :
    ((oneAfterTheOther.process false).run oneAfterTheOther.store).1 = .ok (repeatedKey 1) ∧
      ((oneAfterTheOther.process true).run oneAfterTheOther.store).1 = .ok (repeatedKey 1) ∧
        OneKey oneAfterTheOther ∧ ∀ s', KeyProcesses.Step oneAfterTheOther s' →
          KeepsKey oneAfterTheOther.store s'.store := by
  have hevaluated :
      ((oneAfterTheOther.process false).run oneAfterTheOther.store).1 = .ok (repeatedKey 1) ∧
      ((oneAfterTheOther.process true).run oneAfterTheOther.store).1 = .ok (repeatedKey 1) := by
    decide +kernel
  have hfirst : Relation.ReflTransGen KeyProcesses.Step initializations
      (.advanceFor false 40 initializations) := Processes.advanceFor_reaches false 40 _
  have hsecond : Relation.ReflTransGen KeyProcesses.Step (.advanceFor false 40 initializations)
      oneAfterTheOther := Processes.advanceFor_reaches true 40 _
  exact ⟨hevaluated.1, hevaluated.2,
    key_is_never_replaced unkeyedLibrary _ _ _ oneAfterTheOther (hfirst.trans hsecond)⟩

end RadishMemory
