import RadishMemory.Construction.SourceVault.ObjectFiles
import RadishMemory.Framework.Publication
import RadishMemory.Framework.Upholds

/-!
# What the calls on object files read

The calls that only look at the files, each with what it has seen when it succeeds.
-/

namespace RadishMemory

open ObjectIo

/-! ## Files at paths -/

theorem fileOf_eq_some_iff {fs : VaultFiles} {path : VaultPath} {number : Nat}
    {file : DurableFile} :
    fileOf fs path = some (number, file) ↔
      fs.lookup path = some number ∧ fs.files[number]? = some file := by
  simp only [fileOf, Option.bind_eq_some_iff, Option.map_eq_some_iff, Prod.mk.injEq]
  constructor
  · rintro ⟨n, hlookup, f, hfile, rfl, rfl⟩
    exact ⟨hlookup, hfile⟩
  · rintro ⟨hlookup, hfile⟩
    exact ⟨number, hlookup, file, hfile, rfl, rfl⟩

/-- An entry leads to a file. -/
theorem exists_fileOf {fs : VaultFiles} {path : VaultPath} {number : Nat}
    (h : fs.lookup path = some number) : ∃ file, fileOf fs path = some (number, file) := by
  have hlt : number < fs.files.length :=
    DurableFiles.lt_of_mem_outcomes (h ▸ fs.lookup_mem_outcomes path)
  exact ⟨fs.files[number], fileOf_eq_some_iff.2 ⟨h, List.getElem?_eq_getElem hlt⟩⟩

theorem fileOf_eq_none_iff {fs : VaultFiles} {path : VaultPath} :
    fileOf fs path = none ↔ fs.lookup path = none := by
  constructor
  · intro h
    cases hlookup : fs.lookup path with
    | none => rfl
    | some number =>
      obtain ⟨file, hfile⟩ := exists_fileOf hlookup
      rw [h] at hfile
      cases hfile
  · intro h
    rw [fileOf, h, Option.bind_none]

/-! ## Calls that only look -/

section ReadOnly

variable {path : VaultPath} {observed : Observation}

theorem readOnly_look {α : Type} (query : VaultFiles → Except ObjectError α) :
    (look query).ReadOnly :=
  Program.readOnly_read () query

theorem readOnly_check {α : Type} (result : Except ObjectError α) : (check result).ReadOnly :=
  Program.readOnly_ofExcept result

theorem readOnly_present : (present path).ReadOnly :=
  readOnly_look _

theorem readOnly_open : (Observation.open path).ReadOnly :=
  readOnly_look _

theorem readOnly_verifyFile : (verifyFile path observed).ReadOnly :=
  readOnly_open.bind fun _ => readOnly_check _

theorem readOnly_readFile : (readFile path).ReadOnly :=
  readOnly_open.bind fun _ => (readOnly_look _).bind fun _ => (readOnly_check _).bind fun _ =>
    (readOnly_check _).bind fun _ => readOnly_verifyFile.bind fun _ => Program.readOnly_pure _

theorem readOnly_recheckPath (found : Option (List UInt8 × Observation)) :
    (recheckPath path found).ReadOnly := by
  cases found with
  | none => exact readOnly_present.bind fun _ => readOnly_check _
  | some entry => exact readOnly_verifyFile

end ReadOnly

/-! ## Results -/

section Results

variable {fs : VaultFiles} {path : VaultPath} {observed : Observation}

theorem run_look {α : Type} (query : VaultFiles → Except ObjectError α) :
    (look query).run fs = (query fs, fs) := rfl

theorem run_check {α : Type} (result : Except ObjectError α) :
    (check result).run fs = (result, fs) := rfl

theorem present_eq_ok_iff {found : Bool} :
    ((present path).run fs).1 = .ok found ↔
      (∀ number file, fileOf fs path = some (number, file) →
        file.bytes.length ≤ Envelope.maxEnvelopeBytes) ∧
      found = (fs.lookup path).isSome := by
  rw [present, run_look]
  cases hfile : fileOf fs path with
  | none =>
    rw [fileOf_eq_none_iff.1 hfile]
    simp [eq_comm]
  | some entry =>
    obtain ⟨number, file⟩ := entry
    rw [(fileOf_eq_some_iff.1 hfile).1]
    simp only [requireFile, Except.bind_eq_ok_iff, Except.exists_unit_iff, require_eq_ok_iff,
      Except.pure_eq_ok_iff, Option.some.injEq, Prod.mk.injEq, and_imp, Option.isSome_some]
    constructor
    · rintro ⟨hbound, rfl⟩
      exact ⟨fun _ _ _ heq => heq ▸ hbound, rfl⟩
    · rintro ⟨hbound, rfl⟩
      exact ⟨hbound number file rfl rfl, rfl⟩

theorem present_ok {found : Bool} (h : ((present path).run fs).1 = .ok found) :
    found = (fs.lookup path).isSome :=
  (present_eq_ok_iff.1 h).2

theorem open_eq_ok_iff :
    ((Observation.open path).run fs).1 = .ok observed ↔
      ∃ file, fileOf fs path = some (observed.identity, file) ∧
        observed.length = file.bytes.length ∧
        file.bytes.length ≤ Envelope.maxEnvelopeBytes := by
  rw [Observation.open, run_look]
  simp only [Except.bind_eq_ok_iff, Option.orError_eq_ok_iff, Prod.exists, requireFile,
    Except.exists_unit_iff, require_eq_ok_iff, Except.pure_eq_ok_iff]
  constructor
  · rintro ⟨number, file, hfile, hbound, rfl⟩
    exact ⟨file, hfile, rfl, hbound⟩
  · rintro ⟨file, hfile, hlength, hbound⟩
    refine ⟨observed.identity, file, hfile, hbound, ?_⟩
    rw [← hlength]

theorem verifyFile_eq_ok_iff :
    ((verifyFile path observed).run fs).1 = .ok () ↔
      ((Observation.open path).run fs).1 = .ok observed := by
  rw [verifyFile, Program.run_bind_eq_ok_iff]
  constructor
  · rintro ⟨current, hopen, hcheck⟩
    rw [run_check, require_eq_ok_iff] at hcheck
    exact hcheck ▸ hopen
  · intro hopen
    refine ⟨observed, hopen, ?_⟩
    rw [run_check, require_eq_ok_iff]

/-- A file is read as it is. -/
theorem readFile_eq_ok_iff {bytes : List UInt8} :
    ((readFile path).run fs).1 = .ok (bytes, observed) ↔
      ((Observation.open path).run fs).1 = .ok observed ∧
        ∃ file, fs.files[observed.identity]? = some file ∧ file.bytes = bytes := by
  simp only [readFile, Program.run_bind_eq_ok_iff, readOnly_open.run_snd, readToEnd, run_look,
    run_check, Prod.exists, Except.bind_eq_ok_iff, Option.orError_eq_ok_iff,
    Except.pure_eq_ok_iff, Except.exists_unit_iff, require_eq_ok_iff, readOnly_verifyFile.run_snd,
    verifyFile_eq_ok_iff, Program.run_pure, Except.ok.injEq, Prod.mk.injEq]
  constructor
  · rintro ⟨current, hopen, content, handle, ⟨number, file, hfile, rfl, rfl⟩, hhandle, -, -, rfl,
      rfl⟩
    obtain ⟨other, hother, -⟩ := open_eq_ok_iff.1 hopen
    rw [hfile] at hother
    obtain ⟨hidentity, rfl⟩ := Prod.mk.inj (Option.some.inj hother)
    exact ⟨hopen, file, hidentity ▸ (fileOf_eq_some_iff.1 hfile).2, rfl⟩
  · rintro ⟨hopen, file, hfile, rfl⟩
    obtain ⟨other, hother, hlength, hbound⟩ := open_eq_ok_iff.1 hopen
    obtain ⟨hlookup, hsame⟩ := fileOf_eq_some_iff.1 hother
    rw [hfile] at hsame
    obtain rfl := Option.some.inj hsame
    refine ⟨observed, hopen, file.bytes, observed, ⟨observed.identity, file, hother, rfl, ?_⟩, rfl,
      ⟨hbound, hlength.symm⟩, hopen, rfl, rfl⟩
    rw [← hlength]

/-- What a reader knows of the file it has read. -/
theorem readFile_ok {bytes : List UInt8} (h : ((readFile path).run fs).1 = .ok (bytes, observed)) :
    fs.lookup path = some observed.identity ∧
      ∃ file, fs.files[observed.identity]? = some file ∧ file.bytes = bytes := by
  obtain ⟨hopen, hbytes⟩ := readFile_eq_ok_iff.1 h
  obtain ⟨file, hfile, -⟩ := open_eq_ok_iff.1 hopen
  exact ⟨(fileOf_eq_some_iff.1 hfile).1, hbytes⟩

theorem verifyFile_ok (h : ((verifyFile path observed).run fs).1 = .ok ()) :
    fs.lookup path = some observed.identity := by
  obtain ⟨file, hfile, -⟩ := open_eq_ok_iff.1 (verifyFile_eq_ok_iff.1 h)
  exact (fileOf_eq_some_iff.1 hfile).1

theorem present_of_readFile {bytes : List UInt8} {observed : Observation}
    (h : ((readFile path).run fs).1 = .ok (bytes, observed)) :
    ((present path).run fs).1 = .ok true := by
  obtain ⟨file, hfile, -, hbound⟩ := open_eq_ok_iff.1 (readFile_eq_ok_iff.1 h).1
  refine present_eq_ok_iff.2 ⟨?_, by rw [(readFile_ok h).1]; rfl⟩
  intro number other hother
  rw [hfile] at hother
  obtain ⟨-, rfl⟩ := Prod.mk.inj (Option.some.inj hother)
  exact hbound

theorem present_of_none (h : fs.lookup path = none) :
    ((present path).run fs).1 = .ok false := by
  refine present_eq_ok_iff.2 ⟨?_, by rw [h]; rfl⟩
  intro number file hfile
  rw [fileOf_eq_none_iff.2 h] at hfile
  cases hfile

end Results

/-! ## Attempts -/

section Attempts

variable [Platform] [ObjectCipher] {fs : VaultFiles} {path : VaultPath} {locator : ObjectLocator}
  {attempt : AttemptId} {metadata : ObjectMetadata} {key : KeyEncryptionKey}

theorem readOnly_inspectPath : (inspectPath path locator attempt metadata key).ReadOnly := by
  refine readOnly_present.bind fun found => ?_
  cases found with
  | false => exact Program.readOnly_pure _
  | true => exact readOnly_readFile.bind fun _ => (readOnly_check _).bind fun _ =>
      Program.readOnly_pure _

theorem readOnly_inspectAttempt : (inspectAttempt locator attempt metadata key).ReadOnly :=
  (readOnly_check _).bind fun _ => (readOnly_check _).bind fun _ =>
    readOnly_inspectPath.bind fun _ => readOnly_inspectPath.bind fun _ =>
      (readOnly_check _).bind fun _ => (readOnly_recheckPath _).bind fun _ =>
        (readOnly_recheckPath _).bind fun _ => Program.readOnly_pure _

/-- An authenticated file, or none. -/
def Inspected (fs : VaultFiles) (path : VaultPath) (locator : ObjectLocator)
    (attempt : AttemptId) (metadata : ObjectMetadata) (key : KeyEncryptionKey) :
    Option (List UInt8 × Observation) → Prop
  | none => fs.lookup path = none
  | some (bytes, observed) => ((readFile path).run fs).1 = .ok (bytes, observed) ∧
      authenticate bytes metadata locator attempt key = .ok ()

theorem Inspected.isSome {found : Option (List UInt8 × Observation)}
    (h : Inspected fs path locator attempt metadata key found) :
    found.isSome = (fs.lookup path).isSome := by
  cases found with
  | none =>
    rw [show fs.lookup path = none from h]
    rfl
  | some entry =>
    rw [(readFile_ok h.1).1]
    rfl

theorem inspectPath_eq_ok_iff {found : Option (List UInt8 × Observation)} :
    ((inspectPath path locator attempt metadata key).run fs).1 = .ok found ↔
      Inspected fs path locator attempt metadata key found := by
  rw [inspectPath, Program.run_bind_eq_ok_iff, readOnly_present.run_snd]
  constructor
  · rintro ⟨present, hpresent, hrest⟩
    have hlookup := present_ok hpresent
    cases present with
    | false =>
      obtain rfl := Except.ok.inj hrest
      exact Option.isNone_iff_eq_none.1 (by simpa using hlookup.symm)
    | true =>
      simp only [if_true, Program.run_bind_eq_ok_iff, readOnly_readFile.run_snd, run_check,
        Program.run_pure, Except.exists_unit_iff, Prod.exists, Except.ok.injEq] at hrest
      obtain ⟨bytes, observed, hread, hgood, rfl⟩ := hrest
      exact ⟨hread, hgood⟩
  · intro h
    cases found with
    | none => exact ⟨false, present_of_none h, rfl⟩
    | some entry =>
      refine ⟨true, present_of_readFile h.1, ?_⟩
      simp only [if_true, Program.run_bind_eq_ok_iff, readOnly_readFile.run_snd, run_check,
        Program.run_pure, Except.exists_unit_iff, Prod.exists, Except.ok.injEq]
      exact ⟨entry.1, entry.2, h.1, h.2, rfl⟩

theorem recheckPath_of_inspected {found : Option (List UInt8 × Observation)}
    (h : Inspected fs path locator attempt metadata key found) :
    ((recheckPath path found).run fs).1 = .ok () := by
  cases found with
  | none =>
    simp only [recheckPath, Program.run_bind_eq_ok_iff, run_check, require_eq_ok_iff,
      readOnly_present.run_snd]
    exact ⟨false, present_of_none h, rfl⟩
  | some entry => exact verifyFile_eq_ok_iff.2 (readFile_eq_ok_iff.1 h.1).1

/-- An inspection succeeds on authenticated files that agree, and says which of them there are. -/
theorem inspectAttempt_eq_ok_iff {state : AttemptState} :
    ((inspectAttempt locator attempt metadata key).run fs).1 = .ok state ↔
      Envelope.validateMetadata metadata = .ok () ∧ locator.verify metadata = .ok () ∧
      ∃ staged published,
        Inspected fs (stagingPath locator attempt) locator attempt metadata key staged ∧
        Inspected fs (objectPath locator) locator attempt metadata key published ∧
        (staged.isSome = true → published.isSome = true → staged = published) ∧
        state = .ofPresent staged.isSome published.isSome := by
  simp only [inspectAttempt, Program.run_bind_eq_ok_iff, run_check, Except.exists_unit_iff,
    Except.mapError_eq_ok_iff, readOnly_inspectPath.run_snd, inspectPath_eq_ok_iff,
    require_eq_ok_iff, (readOnly_recheckPath _).run_snd, Program.run_pure, Except.ok.injEq]
  constructor
  · rintro ⟨hmetadata, hlocator, staged, hstaged, published, hpublished, hsame, -, -, rfl⟩
    exact ⟨hmetadata, hlocator, staged, published, hstaged, hpublished, hsame, rfl⟩
  · rintro ⟨hmetadata, hlocator, staged, published, hstaged, hpublished, hsame, rfl⟩
    exact ⟨hmetadata, hlocator, staged, hstaged, published, hpublished, hsame,
      recheckPath_of_inspected hstaged, recheckPath_of_inspected hpublished, rfl⟩

end Attempts

end RadishMemory
