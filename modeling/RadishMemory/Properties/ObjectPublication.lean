import RadishMemory.Properties.ObjectReads

/-!
# Publishing, recovering and retiring object files

The three programs that change the object files, from the states they can start in.  Whatever
interrupts them, nothing but the two names of their attempt has changed, and what is left of these
is an unfinished publication or removal (`Framework.Publication`).  A publication and a recovery
that succeed leave the object published, and a retirement that succeeds leaves nothing.
-/

namespace RadishMemory

open ObjectIo DurableFiles

/-! ## Changes -/

section Changes

variable {α : Type} {I : VaultFiles → Prop} {Q : α → VaultFiles → Prop} {fs : VaultFiles}

theorem upholds_change {Q : Unit → VaultFiles → Prop} {effect : VaultFiles → VaultFiles}
    (hI : I fs) (hnext : I (effect fs)) (h : Q () (effect fs)) :
    (change effect).Upholds I Q fs := by
  apply Program.upholds_transact hI
  rintro _ _ ⟨⟩
  exact ⟨hnext, h⟩

theorem upholds_change_bind {effect : VaultFiles → VaultFiles} {f : Unit → ObjectIo α}
    (hI : I fs) (hnext : I (effect fs)) (h : (f ()).Upholds I Q (effect fs)) :
    (change effect >>= f).Upholds I Q fs := by
  apply Program.upholds_transact_bind hI
  rintro _ _ ⟨⟩
  exact ⟨hnext, h⟩

theorem upholds_createNewFile_bind {path : VaultPath} {f : Nat → ObjectIo α} (hI : I fs)
    (hnext : I (fs.createNew path).2)
    (h : (f (fs.createNew path).1).Upholds I Q (fs.createNew path).2) :
    (createNewFile path >>= f).Upholds I Q fs := by
  apply Program.upholds_transact_bind hI
  intro number fs' hbody
  cases hlookup : fs.lookup path with
  | some other =>
    rw [hlookup] at hbody
    cases hbody
  | none =>
    rw [hlookup] at hbody
    obtain ⟨rfl, rfl⟩ := Prod.mk.inj (Except.ok.inj hbody)
    exact ⟨hnext, h⟩

theorem upholds_hardLink {original path : VaultPath} {taken : ObjectError} {reason : String}
    {Q : Unit → VaultFiles → Prop} (hI : I fs)
    (h : ∀ number hvalid, fs.lookup original = some number → fs.lookup path = none →
      I (fs.record path (some number) hvalid) ∧ Q () (fs.record path (some number) hvalid)) :
    (hardLink original path taken reason).Upholds I Q fs := by
  apply Program.upholds_transact hI
  intro _ fs' hbody
  split at hbody
  · cases hbody
  · rename_i number hlookup
    split at hbody
    · cases hbody
    · rename_i hfree
      obtain ⟨-, rfl⟩ := Prod.mk.inj (Except.ok.inj hbody)
      exact h number _ hlookup hfree

theorem upholds_removeFile {path : VaultPath} {reason : String} {Q : Unit → VaultFiles → Prop}
    (hI : I fs) (hnext : I (fs.unlink path)) (h : Q () (fs.unlink path)) :
    (removeFile path reason).Upholds I Q fs := by
  apply Program.upholds_transact hI
  intro _ fs' hbody
  split at hbody
  · cases hbody
  · obtain ⟨-, rfl⟩ := Prod.mk.inj (Except.ok.inj hbody)
    exact ⟨hnext, h⟩

theorem upholds_removeFile_bind {path : VaultPath} {reason : String} {f : Unit → ObjectIo α}
    (hI : I fs) (hnext : I (fs.unlink path)) (h : (f ()).Upholds I Q (fs.unlink path)) :
    (removeFile path reason >>= f).Upholds I Q fs :=
  (upholds_removeFile (Q := fun _ fs' => fs' = fs.unlink path) hI hnext rfl).bind
    fun _ _ _ hfs => hfs ▸ h

theorem upholds_onlyIf {condition : Bool} {body : ObjectIo Unit} {Q : Unit → VaultFiles → Prop}
    (hbody : condition = true → body.Upholds I Q fs)
    (hskip : condition = false → I fs ∧ Q () fs) : (onlyIf condition body).Upholds I Q fs := by
  cases condition with
  | false => exact Program.upholds_pure (hskip rfl).1 (hskip rfl).2
  | true => exact hbody rfl

theorem syncFile_upholds {path : VaultPath} {observed : Observation}
    (hI : I fs) (hnext : I (fs.syncFile observed.identity)) :
    (syncFile path observed).Upholds I (fun _ fs' => fs' = fs.syncFile observed.identity) fs := by
  refine (readOnly_look _).upholds_bind hI ?_
  rintro ⟨bytes, handle⟩ _
  refine Program.upholds_ofExcept_bind hI ?_
  intro _ hsame
  rw [require_eq_ok_iff] at hsame
  subst hsame
  refine upholds_change_bind hI hnext ?_
  exact readOnly_verifyFile.upholds hnext fun _ _ => rfl

end Changes

/-- The staging file and the object are in different directories. -/
theorem stagingPath_ne_objectPath (locator : ObjectLocator) (attempt : AttemptId) :
    stagingPath locator attempt ≠ objectPath locator := by
  intro h
  cases congrArg Prod.fst h

/-! ## Attempts -/

variable [Platform] [ObjectCipher]

/-- Bytes that authenticate as the object of an attempt. -/
def Authentic (locator : ObjectLocator) (attempt : AttemptId) (metadata : ObjectMetadata)
    (key : KeyEncryptionKey) (bytes : List UInt8) : Prop :=
  authenticate bytes metadata locator attempt key = .ok ()

/-- The two names of an attempt. -/
def attemptPlaces (locator : ObjectLocator) (attempt : AttemptId) : Set VaultPath :=
  {stagingPath locator attempt, objectPath locator}

section Publication

variable {locator : ObjectLocator} {attempt : AttemptId} {metadata : ObjectMetadata}
  {key : KeyEncryptionKey} {before fs : VaultFiles} {number : Nat}

omit [Platform] [ObjectCipher] in
theorem staging_mem : stagingPath locator attempt ∈ attemptPlaces locator attempt :=
  Set.mem_insert _ _

omit [Platform] [ObjectCipher] in
theorem object_mem : objectPath locator ∈ attemptPlaces locator attempt :=
  Set.mem_insert_of_mem _ rfl

/-- A publication or a recovery that has not finished, since `before`. -/
structure Publishing (locator : ObjectLocator) (attempt : AttemptId) (metadata : ObjectMetadata)
    (key : KeyEncryptionKey) (before fs : VaultFiles) (number : Nat) : Prop where
  endures : before.Endures (attemptPlaces locator attempt) fs
  resumable : fs.Resumable (Authentic locator attempt metadata key)
    (stagingPath locator attempt) (objectPath locator) number

/-- It has finished. -/
structure HasPublished (locator : ObjectLocator) (attempt : AttemptId)
    (metadata : ObjectMetadata) (key : KeyEncryptionKey) (before fs : VaultFiles)
    (number : Nat) : Prop where
  endures : before.Endures (attemptPlaces locator attempt) fs
  published : fs.Published (Authentic locator attempt metadata key)
    (stagingPath locator attempt) (objectPath locator) number

theorem HasPublished.publishing
    (h : HasPublished locator attempt metadata key before fs number) :
    Publishing locator attempt metadata key before fs number :=
  ⟨h.endures, h.published.resumable⟩

section Steps

theorem Publishing.step {fs' : VaultFiles}
    (h : Publishing locator attempt metadata key before fs number)
    (hstep : fs.Endures (attemptPlaces locator attempt) fs')
    (hresumable : fs'.Resumable (Authentic locator attempt metadata key)
      (stagingPath locator attempt) (objectPath locator) number) :
    Publishing locator attempt metadata key before fs' number :=
  ⟨h.endures.trans hstep, hresumable⟩

theorem Publishing.syncFile (h : Publishing locator attempt metadata key before fs number)
    (other : Nat) : Publishing locator attempt metadata key before (fs.syncFile other) number :=
  h.step (endures_syncFile.mono (Set.empty_subset _)) (h.resumable.syncFile other)

theorem Publishing.syncDirectory (h : Publishing locator attempt metadata key before fs number)
    (d : VaultDirectory) :
    Publishing locator attempt metadata key before (fs.syncDirectory d) number :=
  h.step (endures_syncDirectory.mono (Set.empty_subset _)) (h.resumable.syncDirectory d)

theorem Publishing.link (h : Publishing locator attempt metadata key before fs number)
    (hholds : fs.Holds (Authentic locator attempt metadata key) number)
    (hstaged : fs.lookup (stagingPath locator attempt) = some number)
    (hvalid : ∀ other, some number = some other → other < fs.files.length) :
    Publishing locator attempt metadata key before
      (fs.record (objectPath locator) (some number) hvalid) number :=
  h.step ((endures_record hvalid).mono (Set.singleton_subset_iff.2 object_mem))
    (h.resumable.link (stagingPath_ne_objectPath locator attempt).symm hholds hstaged hvalid)

theorem Publishing.published (h : Publishing locator attempt metadata key before fs number)
    (hlinked : fs.lookup (objectPath locator) = some number) :
    HasPublished locator attempt metadata key before (fs.syncDirectory .objects) number :=
  ⟨(h.syncDirectory .objects).endures, h.resumable.published hlinked⟩

theorem HasPublished.syncDirectory
    (h : HasPublished locator attempt metadata key before fs number) (d : VaultDirectory) :
    HasPublished locator attempt metadata key before (fs.syncDirectory d) number :=
  ⟨(h.publishing.syncDirectory d).endures, h.published.syncDirectory d⟩

theorem HasPublished.syncFile
    (h : HasPublished locator attempt metadata key before fs number) (other : Nat) :
    HasPublished locator attempt metadata key before (fs.syncFile other) number :=
  ⟨(h.publishing.syncFile other).endures, h.published.syncFile other⟩

theorem HasPublished.unlink
    (h : HasPublished locator attempt metadata key before fs number) :
    HasPublished locator attempt metadata key before
      (fs.unlink (stagingPath locator attempt)) number :=
  ⟨h.endures.trans (endures_unlink.mono (Set.singleton_subset_iff.2 staging_mem)),
    h.published.unlink (stagingPath_ne_objectPath locator attempt)⟩

end Steps

/-- The file that is being written: it has no other name yet. -/
structure Writing (locator : ObjectLocator) (attempt : AttemptId) (metadata : ObjectMetadata)
    (key : KeyEncryptionKey) (before fs : VaultFiles) (number : Nat) : Prop extends
    Publishing locator attempt metadata key before fs number where
  unlinked : ∀ entry ∈ fs.outcomes (objectPath locator), entry = none
  unsettled : ∀ file, fs.files[number]? = some file → file.settled = false

theorem Writing.append (h : Writing locator attempt metadata key before fs number)
    (bytes : List UInt8) :
    Writing locator attempt metadata key before (fs.append number bytes) number where
  toPublishing := h.step ((endures_append h.unsettled).mono (Set.empty_subset _))
    (h.resumable.append number bytes h.unlinked)
  unlinked := h.unlinked
  unsettled _ := unsettled_of_append

theorem writing_createNew
    (hgone : before.Gone (stagingPath locator attempt) (objectPath locator)) :
    Writing locator attempt metadata key before (before.createNew (stagingPath locator attempt)).2
      (before.createNew (stagingPath locator attempt)).1 where
  endures := endures_createNew.mono (Set.singleton_subset_iff.2 staging_mem)
  resumable := hgone.createNew (stagingPath_ne_objectPath locator attempt)
  unlinked := by
    intro entry hentry
    exact hgone.atFinal entry
      (endures_createNew.outcomes _ (fun h => stagingPath_ne_objectPath locator attempt h.symm)
        entry hentry)
  unsettled _ := unsettled_of_createNew

theorem writeAll_upholds {α : Type} {bytes : List UInt8} {f : Unit → ObjectIo α}
    {I : VaultFiles → Prop} {Q : α → VaultFiles → Prop}
    (h : Writing locator attempt metadata key before fs number)
    (hI : ∀ fs', Writing locator attempt metadata key before fs' number → I fs')
    (hrest : ∀ fs', Writing locator attempt metadata key before fs' number →
      (f ()).Upholds I Q fs') : (writeAll number bytes >>= f).Upholds I Q fs := by
  refine Program.Upholds.bind (P := fun _ fs' =>
    Writing locator attempt metadata key before fs' number) ?_ fun _ fs' _ hfs => hrest fs' hfs
  apply Program.upholds_foldlM (hI fs h) h
  intro _ byte _ fs' _ hfs
  exact upholds_change (hI fs' hfs) (hI _ (hfs.append [byte])) (hfs.append [byte])

/-- What is left of a publication or a recovery, wherever it stops. -/
def Left (locator : ObjectLocator) (attempt : AttemptId) (metadata : ObjectMetadata)
    (key : KeyEncryptionKey) (before fs : VaultFiles) : Prop :=
  ∃ number, Publishing locator attempt metadata key before fs number

theorem Publishing.left (h : Publishing locator attempt metadata key before fs number) :
    Left locator attempt metadata key before fs :=
  ⟨number, h⟩

theorem HasPublished.left (h : HasPublished locator attempt metadata key before fs number) :
    Left locator attempt metadata key before fs :=
  h.publishing.left

/-- An attempt of which nothing exists. -/
theorem left_of_gone (h : before.Gone (stagingPath locator attempt) (objectPath locator)) :
    Left locator attempt metadata key before before :=
  ⟨0, Endures.refl _ _, h.resumable 0⟩

/-! ## Publishing -/

variable {write : ObjectWrite}

/-- The staged object is complete and on the disk. -/
structure Staged (locator : ObjectLocator) (attempt : AttemptId) (metadata : ObjectMetadata)
    (key : KeyEncryptionKey) (before fs : VaultFiles) (number : Nat) : Prop extends
    Publishing locator attempt metadata key before fs number where
  holds : fs.Holds (Authentic locator attempt metadata key) number
  staged : fs.lookup (stagingPath locator attempt) = some number

theorem stageObject_upholds
    (hgone : before.Gone (stagingPath write.locator write.attempt) (objectPath write.locator)) :
    (stageObject write key).Upholds
      (Left write.locator write.attempt write.metadata key before)
      (fun result fs => Staged write.locator write.attempt write.metadata key before fs
        result.2.identity) before := by
  have hwriting : Writing write.locator write.attempt write.metadata key before
      (before.createNew (stagingPath write.locator write.attempt)).2
      (before.createNew (stagingPath write.locator write.attempt)).1 := writing_createNew hgone
  refine upholds_createNewFile_bind (left_of_gone hgone) hwriting.left ?_
  refine writeAll_upholds hwriting (fun fs' h => h.left) ?_
  intro fs hfs
  have hsynced := hfs.toPublishing.syncFile (before.createNew (stagingPath write.locator
    write.attempt)).1
  refine upholds_change_bind hfs.left hsynced.left ?_
  refine readOnly_open.upholds_bind hsynced.left ?_
  intro written hwritten
  refine Program.upholds_ofExcept_bind hsynced.left ?_
  intro _ hidentity
  refine upholds_change_bind hsynced.left (hsynced.syncDirectory .staging).left ?_
  refine readOnly_readFile.upholds_bind (hsynced.syncDirectory .staging).left ?_
  rintro ⟨bytes, observed⟩ hread
  refine Program.upholds_ofExcept_bind (hsynced.syncDirectory .staging).left ?_
  intro _ hsame
  refine Program.upholds_ofExcept_bind (hsynced.syncDirectory .staging).left ?_
  intro _ hauthentic
  rw [require_eq_ok_iff] at hidentity hsame
  obtain ⟨hlookup, file, hfile, rfl⟩ := readFile_ok hread
  have hnumber : observed.identity =
      (before.createNew (stagingPath write.locator write.attempt)).1 :=
    (congrArg Observation.identity hsame.2).trans hidentity
  refine Program.upholds_pure (hsynced.syncDirectory .staging).left ⟨?_, ?_, hlookup⟩
  · rw [hnumber]
    exact hsynced.syncDirectory .staging
  · rw [hnumber] at hfile ⊢
    exact ⟨file, hfile, settled_of_syncFile hfile, hauthentic⟩

theorem linkObject_upholds {bytes : List UInt8} {observed : Observation}
    (h : Staged write.locator write.attempt write.metadata key before fs observed.identity) :
    (linkObject write key bytes observed).Upholds
      (Left write.locator write.attempt write.metadata key before)
      (fun _ fs => HasPublished write.locator write.attempt write.metadata key before fs
        observed.identity) fs := by
  refine readOnly_verifyFile.upholds_bind h.left ?_
  intro _ _
  refine Program.Upholds.bind (P := fun _ fs' =>
    Publishing write.locator write.attempt write.metadata key before fs' observed.identity ∧
      fs'.lookup (objectPath write.locator) = some observed.identity)
    (upholds_hardLink h.left ?_) ?_
  · intro number hvalid hlookup _
    obtain rfl : observed.identity = number := Option.some.inj (h.staged.symm.trans hlookup)
    have hlinked := h.link h.holds h.staged hvalid
    exact ⟨hlinked.left, hlinked, lookup_record_self⟩
  rintro _ fs' hleft ⟨hlinked, hlookup⟩
  have hpublished := hlinked.published hlookup
  refine upholds_change_bind hleft hpublished.left ?_
  refine readOnly_readFile.upholds_bind hpublished.left ?_
  intro _ _
  refine Program.upholds_ofExcept_bind hpublished.left ?_
  intro _ _
  refine Program.upholds_ofExcept_bind hpublished.left ?_
  intro _ _
  exact Program.upholds_pure hpublished.left hpublished

theorem unlinkStaging_upholds {observed publishedObservation : Observation}
    (h : HasPublished write.locator write.attempt write.metadata key before fs number) :
    (unlinkStaging write observed publishedObservation).Upholds
      (Left write.locator write.attempt write.metadata key before)
      (fun _ fs => HasPublished write.locator write.attempt write.metadata key before fs number)
      fs := by
  refine readOnly_verifyFile.upholds_bind h.left ?_
  intro _ _
  refine readOnly_verifyFile.upholds_bind h.left ?_
  intro _ _
  refine upholds_removeFile_bind h.left h.unlink.left ?_
  refine upholds_change_bind h.unlink.left (h.unlink.syncDirectory .staging).left ?_
  refine readOnly_verifyFile.upholds (h.unlink.syncDirectory .staging).left ?_
  intro _ _
  exact h.unlink.syncDirectory .staging

/-- Wherever a publication stops, the object has its final name only if it is complete and on the
disk; and nothing but the two names has changed. -/
theorem publish_upholds
    (hgone : before.Gone (stagingPath write.locator write.attempt) (objectPath write.locator)) :
    (publish write key).Upholds (Left write.locator write.attempt write.metadata key before)
      (fun _ fs => ∃ number, HasPublished write.locator write.attempt write.metadata key before fs
        number) before := by
  have hstart : Left write.locator write.attempt write.metadata key before before :=
    left_of_gone hgone
  refine Program.upholds_ofExcept_bind hstart fun _ _ => ?_
  refine Program.upholds_ofExcept_bind hstart fun _ _ => ?_
  refine Program.upholds_ofExcept_bind hstart fun _ _ => ?_
  refine readOnly_present.upholds_bind hstart fun _ _ => ?_
  refine Program.upholds_ofExcept_bind hstart fun _ _ => ?_
  refine (stageObject_upholds hgone).bind ?_
  rintro ⟨bytes, observed⟩ fs _ hstaged
  refine (linkObject_upholds hstaged).bind ?_
  intro publishedObservation fs' _ hpublished
  refine (unlinkStaging_upholds hpublished).bind ?_
  intro _ fs'' hleft hend
  exact Program.upholds_pure hleft ⟨_, hend⟩

/-! ## Recovering -/

/-- A recovery: an object that was published stays published throughout. -/
structure Recovering (locator : ObjectLocator) (attempt : AttemptId) (metadata : ObjectMetadata)
    (key : KeyEncryptionKey) (before : VaultFiles) (number : Nat) (fs : VaultFiles) : Prop extends
    Publishing locator attempt metadata key before fs number where
  kept : before.Published (Authentic locator attempt metadata key) (stagingPath locator attempt)
      (objectPath locator) number →
    fs.Published (Authentic locator attempt metadata key) (stagingPath locator attempt)
      (objectPath locator) number

theorem HasPublished.recovering
    (h : HasPublished locator attempt metadata key before fs number) :
    Recovering locator attempt metadata key before number fs :=
  ⟨h.publishing, fun _ => h.published⟩

theorem removeStagingLink_upholds {bytes : List UInt8} {reference : Observation}
    (h : HasPublished locator attempt metadata key before fs number) :
    (removeStagingLink locator attempt bytes reference).Upholds
      (Recovering locator attempt metadata key before number)
      (fun _ fs' => HasPublished locator attempt metadata key before fs' number) fs := by
  refine readOnly_readFile.upholds_bind h.recovering fun _ _ => ?_
  refine Program.upholds_ofExcept_bind h.recovering fun _ _ => ?_
  refine readOnly_verifyFile.upholds_bind h.recovering fun _ _ => ?_
  refine readOnly_verifyFile.upholds_bind h.recovering fun _ _ => ?_
  exact upholds_removeFile h.recovering h.unlink.recovering h.unlink

theorem completeRecovery_upholds {hasStaging : Bool} {bytes : List UInt8}
    {observed : Observation}
    (h : Recovering locator attempt metadata key before number fs)
    (hlinked : fs.lookup (objectPath locator) = some number) :
    (completeRecovery locator attempt metadata key hasStaging bytes observed).Upholds
      (Recovering locator attempt metadata key before number)
      (fun _ fs' => HasPublished locator attempt metadata key before fs' number) fs := by
  have hpublished := h.toPublishing.published hlinked
  refine upholds_change_bind h hpublished.recovering ?_
  refine readOnly_readFile.upholds_bind hpublished.recovering fun _ _ => ?_
  refine Program.upholds_ofExcept_bind hpublished.recovering fun _ _ => ?_
  refine Program.upholds_ofExcept_bind hpublished.recovering fun _ _ => ?_
  refine Program.Upholds.bind (P := fun _ fs' =>
    HasPublished locator attempt metadata key before fs' number) ?_ ?_
  · exact upholds_onlyIf (fun _ => removeStagingLink_upholds hpublished)
      fun _ => ⟨hpublished.recovering, hpublished⟩
  · intro _ fs' _ hfs'
    have hsynced := hfs'.syncDirectory .staging
    refine upholds_change_bind hfs'.recovering hsynced.recovering ?_
    refine readOnly_verifyFile.upholds_bind hsynced.recovering fun _ _ => ?_
    exact Program.upholds_pure hsynced.recovering hsynced

theorem Inspected.holds_syncFile {path : VaultPath} {bytes : List UInt8} {observed : Observation}
    (h : Inspected fs path locator attempt metadata key (some (bytes, observed))) :
    (fs.syncFile observed.identity).Holds (Authentic locator attempt metadata key)
      observed.identity := by
  obtain ⟨-, file, hfile, rfl⟩ := readFile_ok h.1
  have hsynced : (fs.syncFile observed.identity).files[observed.identity]? =
      some { file with settled := true } := by
    rw [DurableFiles.syncFile, modifyFile, List.getElem?_modify_eq, hfile]
    rfl
  exact ⟨_, hsynced, rfl, h.2⟩

theorem linkStaged_upholds {bytes : List UInt8} {observed : Observation}
    (h : before.Resumable (Authentic locator attempt metadata key) (stagingPath locator attempt)
      (objectPath locator) number)
    (hsynced : Recovering locator attempt metadata key before number
      (before.syncFile observed.identity))
    (hstaged : Inspected before (stagingPath locator attempt) locator attempt metadata key
      (some (bytes, observed))) :
    (linkStaged locator attempt observed).Upholds
      (Recovering locator attempt metadata key before number)
      (fun _ fs => Recovering locator attempt metadata key before number fs ∧
        fs.lookup (objectPath locator) = some number) (before.syncFile observed.identity) := by
  obtain ⟨hlookup, -⟩ := readFile_ok hstaged.1
  obtain rfl := h.lookup_staging hlookup
  refine readOnly_verifyFile.upholds_bind hsynced fun _ _ => ?_
  refine upholds_hardLink hsynced ?_
  intro other hvalid hother hfree
  obtain rfl : observed.identity = other := Option.some.inj (hlookup.symm.trans hother)
  suffices hlinked : Recovering locator attempt metadata key before observed.identity
      ((before.syncFile observed.identity).record (objectPath locator) _ hvalid) from
    ⟨hlinked, hlinked, lookup_record_self⟩
  refine ⟨hsynced.toPublishing.link hstaged.holds_syncFile hlookup hvalid, ?_⟩
  intro hpublished
  change before.lookup (objectPath locator) = none at hfree
  rw [hpublished.lookup] at hfree
  cases hfree

/-- A recovery, from whatever an interrupted publication has left. -/
theorem finishAttempt_upholds {allowPublication : Bool}
    (h : before.Resumable (Authentic locator attempt metadata key) (stagingPath locator attempt)
      (objectPath locator) number) :
    (finishAttempt locator attempt metadata key allowPublication).Upholds
      (Recovering locator attempt metadata key before number)
      (fun _ fs => HasPublished locator attempt metadata key before fs number) before := by
  have hstart : Recovering locator attempt metadata key before number before :=
    ⟨⟨Endures.refl _ _, h⟩, id⟩
  refine readOnly_inspectAttempt.upholds_bind hstart ?_
  intro state _
  refine Program.upholds_ofExcept_bind hstart fun _ _ => ?_
  refine readOnly_readFile.upholds_bind hstart ?_
  rintro ⟨bytes, observed⟩ hread
  refine Program.upholds_ofExcept_bind hstart ?_
  intro _ hauthentic
  have hsynced : Recovering locator attempt metadata key before number
      (before.syncFile observed.identity) :=
    ⟨hstart.toPublishing.syncFile _, fun hpublished => hpublished.syncFile _⟩
  refine (syncFile_upholds hstart hsynced).bind ?_
  rintro _ _ _ rfl
  refine Program.Upholds.bind (P := fun _ fs =>
    Recovering locator attempt metadata key before number fs ∧
      fs.lookup (objectPath locator) = some number) (upholds_onlyIf ?_ ?_) fun _ fs _ hfs =>
        completeRecovery_upholds hfs.1 hfs.2
  · -- Only the staging file is there: it gets its final name now.
    intro hstaging
    obtain rfl : state = .authenticatedStaging := by simpa using hstaging
    exact linkStaged_upholds h hsynced ⟨hread, hauthentic⟩
  · intro htarget
    have hstate : state ≠ .authenticatedStaging := by simpa using htarget
    simp only [bne_iff_ne, ne_eq, hstate, not_false_eq_true, if_true] at hread
    obtain ⟨hlookup, -⟩ := readFile_ok hread
    obtain ⟨hnumber, -⟩ := h.toUnfinished.lookup_final hlookup
    exact ⟨hsynced, hsynced, hnumber ▸ hlookup⟩

/-! ## Retiring -/

/-- A removal that has not finished, since `before`; what was gone stays gone. -/
structure Retiring (locator : ObjectLocator) (attempt : AttemptId) (metadata : ObjectMetadata)
    (key : KeyEncryptionKey) (before : VaultFiles) (number : Nat) (fs : VaultFiles) : Prop where
  endures : before.Endures (attemptPlaces locator attempt) fs
  unfinished : fs.Unfinished (Authentic locator attempt metadata key)
    (stagingPath locator attempt) (objectPath locator) number
  kept : before.Gone (stagingPath locator attempt) (objectPath locator) →
    fs.Gone (stagingPath locator attempt) (objectPath locator)

theorem Retiring.unlink (h : Retiring locator attempt metadata key before number fs)
    {path : VaultPath} (hpath : path ∈ attemptPlaces locator attempt) :
    Retiring locator attempt metadata key before number (fs.unlink path) :=
  ⟨h.endures.trans (endures_unlink.mono (Set.singleton_subset_iff.2 hpath)),
    h.unfinished.unlink path, fun hgone => (h.kept hgone).unlink path⟩

theorem Retiring.syncDirectory (h : Retiring locator attempt metadata key before number fs)
    (d : VaultDirectory) :
    Retiring locator attempt metadata key before number (fs.syncDirectory d) :=
  ⟨h.endures.trans (endures_syncDirectory.mono (Set.empty_subset _)),
    h.unfinished.syncDirectory d, fun hgone => (h.kept hgone).syncDirectory d⟩

omit [Platform] [ObjectCipher] in
theorem readOnly_verifyRetiring {path : VaultPath} (observed : Option Observation) :
    (verifyRetiring path observed).ReadOnly := by
  cases observed with
  | none => exact readOnly_present.bind fun _ => readOnly_check _
  | some observation => exact readOnly_verifyFile

omit [Platform] [ObjectCipher] in
theorem verifyRetiring_none_ok {path : VaultPath}
    (h : ((verifyRetiring path none).run fs).1 = .ok ()) : fs.lookup path = none := by
  simp only [verifyRetiring, Program.run_bind_eq_ok_iff, run_check, require_eq_ok_iff] at h
  obtain ⟨found, hfound, rfl⟩ := h
  exact Option.isNone_iff_eq_none.1 (by simpa using (present_ok hfound).symm)

theorem removeRetired_upholds {path : VaultPath} {observed : Option Observation}
    (h : Retiring locator attempt metadata key before number fs)
    (hpath : path ∈ attemptPlaces locator attempt) :
    (removeRetired path observed).Upholds (Retiring locator attempt metadata key before number)
      (fun _ fs' => Retiring locator attempt metadata key before number fs') fs := by
  cases observed with
  | none => exact Program.upholds_pure h h
  | some observation => exact upholds_removeFile h (h.unlink hpath) (h.unlink hpath)

/-- A retirement that succeeds leaves nothing, not even for a loss of power. -/
theorem retireAttempt_upholds
    (h : before.Unfinished (Authentic locator attempt metadata key)
      (stagingPath locator attempt) (objectPath locator) number) :
    (retireAttempt locator attempt metadata key).Upholds
      (Retiring locator attempt metadata key before number)
      (fun _ fs => before.Endures (attemptPlaces locator attempt) fs ∧
        fs.Gone (stagingPath locator attempt) (objectPath locator)) before := by
  have hstart : Retiring locator attempt metadata key before number before :=
    ⟨Endures.refl _ _, h, id⟩
  refine readOnly_inspectAttempt.upholds_bind hstart fun _ _ => ?_
  refine readOnly_inspectPath.upholds_bind hstart fun _ _ => ?_
  refine readOnly_inspectPath.upholds_bind hstart fun _ _ => ?_
  refine Program.upholds_ofExcept_bind hstart fun _ _ => ?_
  refine (readOnly_verifyRetiring _).upholds_bind hstart fun _ _ => ?_
  refine (readOnly_verifyRetiring _).upholds_bind hstart fun _ _ => ?_
  refine (removeRetired_upholds hstart staging_mem).bind ?_
  intro _ fs _ hfs
  refine (readOnly_verifyRetiring _).upholds_bind hfs fun _ _ => ?_
  refine (readOnly_verifyRetiring _).upholds_bind hfs fun _ _ => ?_
  refine (removeRetired_upholds hfs object_mem).bind ?_
  intro _ fs _ hfs
  have hstaging := hfs.syncDirectory .staging
  have hobjects := hstaging.syncDirectory .objects
  refine upholds_change_bind hfs hstaging ?_
  refine upholds_change_bind hstaging hobjects ?_
  refine (readOnly_verifyRetiring _).upholds_bind hobjects ?_
  intro _ hstagingGone
  refine (readOnly_verifyRetiring _).upholds hobjects ?_
  intro _ hobjectGone
  have hstagingNone := verifyRetiring_none_ok hstagingGone
  have hobjectNone := verifyRetiring_none_ok hobjectGone
  rw [lookup_syncDirectory, lookup_syncDirectory] at hstagingNone hobjectNone
  exact ⟨hobjects.endures, gone_of_lookup hstagingNone hobjectNone⟩

end Publication

end RadishMemory
