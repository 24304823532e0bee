import RadishMemory.Framework.Program
import Mathlib.Data.List.Dedup
import Mathlib.Data.Set.Basic
import Mathlib.Logic.Function.Basic

/-!
# Files and directories under loss of power

A file knows whether its contents have reached the disk, and a directory is the list of the
changes that were made to it: those that have reached the disk, and those that are pending until
the directory is synced.  A loss of power keeps some of the pending changes and forgets the
others, each for itself, and leaves anything in a file that had not reached the disk.

`outcomes` are the entries that a place may have after a loss of power; the entry that it has now
is one of them.  What is said of all outcomes, and of files that have reached the disk, is
therefore kept by a loss of power (`PowerLoss.endures`), and it is what a program that is
interrupted anywhere can rely on.  Syncing a directory leaves one outcome for each of its places.
-/

structure DurableFile where
  bytes : List UInt8
  /-- All of it has reached the disk. -/
  settled : Bool
deriving DecidableEq, Repr

/-! ## Directories -/

/-- A name gets an entry, the number of a file, or loses it. -/
abbrev DirectoryChange (ν : Type) :=
  ν × Option Nat

/-- The changes of a directory, the newest first. -/
structure DurableDirectory (ν : Type) where
  pending : List (DirectoryChange ν)
  stable : List (DirectoryChange ν)

namespace DurableDirectory

variable {ν : Type} [DecidableEq ν]

/-- The newest change of a name says what its entry is. -/
def entryIn (changes : List (DirectoryChange ν)) (name : ν) : Option Nat :=
  (changes.find? fun change => change.1 == name).bind Prod.snd

def lookup (directory : DurableDirectory ν) (name : ν) : Option Nat :=
  entryIn (directory.pending ++ directory.stable) name

omit [DecidableEq ν] in
/-- The change is not on the disk yet. -/
def record (directory : DurableDirectory ν) (name : ν) (entry : Option Nat) :
    DurableDirectory ν :=
  { directory with pending := (name, entry) :: directory.pending }

omit [DecidableEq ν] in
def sync (directory : DurableDirectory ν) : DurableDirectory ν :=
  { pending := [], stable := directory.pending ++ directory.stable }

/-- The names that have an entry. -/
def names (directory : DurableDirectory ν) : List ν :=
  ((directory.pending ++ directory.stable).map Prod.fst).dedup.filter
    fun name => (directory.lookup name).isSome

/-- The entries that a name may have after a loss of power. -/
def outcomes (directory : DurableDirectory ν) (name : ν) : List (Option Nat) :=
  (directory.pending.filter fun change => change.1 == name).map Prod.snd ++
    [entryIn directory.stable name]

omit [DecidableEq ν] in
/-- Some of the pending changes have reached the disk. -/
def PowerLoss (directory directory' : DurableDirectory ν) : Prop :=
  ∃ kept, kept.Sublist directory.pending ∧
    directory' = { pending := [], stable := kept ++ directory.stable }

variable {directory directory' : DurableDirectory ν} {name other : ν} {entry : Option Nat}

theorem entryIn_cons (change : DirectoryChange ν) (changes : List (DirectoryChange ν)) :
    entryIn (change :: changes) name =
      if change.1 = name then change.2 else entryIn changes name := by
  unfold entryIn
  rw [List.find?_cons]
  by_cases h : change.1 = name
  · simp [h]
  · rw [if_neg h, beq_eq_false_iff_ne.2 h]

theorem lookup_record_self : (directory.record name entry).lookup name = entry := by
  simp [lookup, record, entryIn_cons]

theorem lookup_record_of_ne (h : name ≠ other) :
    (directory.record name entry).lookup other = directory.lookup other := by
  simp [lookup, record, entryIn_cons, h]

theorem lookup_sync : directory.sync.lookup name = directory.lookup name := by
  simp [lookup, sync]

theorem outcomes_record_self :
    (directory.record name entry).outcomes name = entry :: directory.outcomes name := by
  simp [outcomes, record]

theorem outcomes_record_of_ne (h : name ≠ other) :
    (directory.record name entry).outcomes other = directory.outcomes other := by
  simp [outcomes, record, h]

theorem outcomes_sync : directory.sync.outcomes name = [directory.lookup name] := by
  simp [outcomes, sync, lookup]

/-- The entry that a name has after some changes is one of theirs or the one below them. -/
theorem entryIn_append_mem (changes rest : List (DirectoryChange ν)) :
    entryIn (changes ++ rest) name ∈
      (changes.filter fun change => change.1 == name).map Prod.snd ++ [entryIn rest name] := by
  induction changes with
  | nil => simp
  | cons change changes ih =>
    rw [List.cons_append, entryIn_cons]
    by_cases h : change.1 = name
    · simp [h]
    · simpa [h] using ih

theorem lookup_mem_outcomes : directory.lookup name ∈ directory.outcomes name :=
  entryIn_append_mem directory.pending directory.stable

theorem PowerLoss.outcomes (h : directory.PowerLoss directory')
    (hentry : entry ∈ directory'.outcomes name) : entry ∈ directory.outcomes name := by
  obtain ⟨kept, hkept, rfl⟩ := h
  simp only [DurableDirectory.outcomes, List.filter_nil, List.map_nil, List.nil_append,
    List.mem_singleton] at hentry
  subst hentry
  have hmem : entryIn (kept ++ directory.stable) name ∈
      (kept.filter fun change => change.1 == name).map Prod.snd ++
        [entryIn directory.stable name] := entryIn_append_mem kept directory.stable
  rw [DurableDirectory.outcomes, List.mem_append]
  rcases List.mem_append.1 hmem with hchange | hstable
  · exact .inl (((hkept.filter _).map Prod.snd).subset hchange)
  · exact .inr hstable

/-- After a loss of power nothing is pending. -/
theorem PowerLoss.outcomes_eq (h : directory.PowerLoss directory') :
    directory'.outcomes name = [directory'.lookup name] := by
  obtain ⟨kept, -, rfl⟩ := h
  simp [DurableDirectory.outcomes, lookup]

theorem lookup_isSome_of_mem_names (h : name ∈ directory.names) :
    (directory.lookup name).isSome = true := by
  simp only [names, List.mem_filter] at h
  exact h.2

theorem mem_names_of_lookup {number : Nat} (h : directory.lookup name = some number) :
    name ∈ directory.names := by
  have hfound : ∃ change ∈ directory.pending ++ directory.stable, change.1 = name := by
    unfold lookup entryIn at h
    cases hfind : (directory.pending ++ directory.stable).find? fun change => change.1 == name with
    | none => simp [hfind] at h
    | some change =>
      exact ⟨change, List.mem_of_find?_eq_some hfind, by simpa using List.find?_some hfind⟩
  obtain ⟨change, hmem, hname⟩ := hfound
  simp only [names, List.mem_filter, List.mem_dedup, List.mem_map]
  exact ⟨⟨change, hmem, hname⟩, by simp [h]⟩

end DurableDirectory

/-! ## Stores -/

/-- A name in one of the directories. -/
abbrev FilePlace (D ν : Type) :=
  D × ν

/-- Numbered files, and directories whose entries are numbers of files. -/
structure DurableFiles (D ν : Type) where
  files : List DurableFile
  directory : D → DurableDirectory ν
  valid : ∀ d change number, change ∈ (directory d).pending ++ (directory d).stable →
    change.2 = some number → number < files.length

namespace DurableFiles

variable {D ν : Type}

section Operations

/-- Change one file; its number stays. -/
def modifyFile (fs : DurableFiles D ν) (number : Nat) (f : DurableFile → DurableFile) :
    DurableFiles D ν where
  files := fs.files.modify number f
  directory := fs.directory
  valid d change other hmem hentry := by
    rw [List.length_modify]
    exact fs.valid d change other hmem hentry

def append (fs : DurableFiles D ν) (number : Nat) (bytes : List UInt8) : DurableFiles D ν :=
  fs.modifyFile number fun file => { bytes := file.bytes ++ bytes, settled := false }

/-- All of the file reaches the disk. -/
def syncFile (fs : DurableFiles D ν) (number : Nat) : DurableFiles D ν :=
  fs.modifyFile number fun file => { file with settled := true }

/-- A further file, which has no entry yet. -/
def addFile (fs : DurableFiles D ν) : DurableFiles D ν where
  files := fs.files ++ [{ bytes := [], settled := false }]
  directory := fs.directory
  valid d change number hmem hentry := by
    have := fs.valid d change number hmem hentry
    simp only [List.length_append, List.length_singleton]
    omega

theorem lt_addFile (fs : DurableFiles D ν) :
    ∀ number, some fs.files.length = some number → number < fs.addFile.files.length := by
  rintro number ⟨⟩
  simp [addFile]

variable [DecidableEq D]

def record (fs : DurableFiles D ν) (place : FilePlace D ν) (entry : Option Nat)
    (h : ∀ number, entry = some number → number < fs.files.length) : DurableFiles D ν where
  files := fs.files
  directory := Function.update fs.directory place.1 ((fs.directory place.1).record place.2 entry)
  valid d change number hmem hentry := by
    by_cases hd : d = place.1
    · subst hd
      rw [Function.update_self, DurableDirectory.record, List.cons_append,
        List.mem_cons] at hmem
      rcases hmem with rfl | hmem
      · exact h number hentry
      · exact fs.valid _ change number hmem hentry
    · rw [Function.update_of_ne hd] at hmem
      exact fs.valid d change number hmem hentry

/-- A new, empty file with an entry, and its number. -/
def createNew (fs : DurableFiles D ν) (place : FilePlace D ν) : Nat × DurableFiles D ν :=
  (fs.files.length, fs.addFile.record place (some fs.files.length) fs.lt_addFile)

def unlink (fs : DurableFiles D ν) (place : FilePlace D ν) : DurableFiles D ν :=
  fs.record place none (by simp)

def syncDirectory (fs : DurableFiles D ν) (d : D) : DurableFiles D ν where
  files := fs.files
  directory := Function.update fs.directory d (fs.directory d).sync
  valid d' change number hmem hentry := by
    by_cases hd : d' = d
    · subst hd
      rw [Function.update_self] at hmem
      exact fs.valid _ change number hmem hentry
    · rw [Function.update_of_ne hd] at hmem
      exact fs.valid d' change number hmem hentry

variable {fs : DurableFiles D ν} {place : FilePlace D ν}

@[simp] theorem files_record {entry : Option Nat} {h} : (fs.record place entry h).files = fs.files := rfl

@[simp] theorem files_unlink : (fs.unlink place).files = fs.files := rfl

@[simp] theorem files_syncDirectory {d : D} : (fs.syncDirectory d).files = fs.files := rfl

theorem files_createNew :
    (fs.createNew place).2.files = fs.files ++ [{ bytes := [], settled := false }] := rfl

omit [DecidableEq D] in
theorem settled_of_syncFile {number : Nat} {file : DurableFile}
    (h : (fs.syncFile number).files[number]? = some file) : file.settled = true := by
  rw [syncFile, modifyFile, List.getElem?_modify_eq] at h
  obtain ⟨old, -, rfl⟩ := Option.map_eq_some_iff.1 h
  rfl

omit [DecidableEq D] in
theorem unsettled_of_append {number : Nat} {bytes : List UInt8} {file : DurableFile}
    (h : (fs.append number bytes).files[number]? = some file) : file.settled = false := by
  rw [append, modifyFile, List.getElem?_modify_eq] at h
  obtain ⟨old, -, rfl⟩ := Option.map_eq_some_iff.1 h
  rfl

theorem unsettled_of_createNew {file : DurableFile}
    (h : (fs.createNew place).2.files[(fs.createNew place).1]? = some file) :
    file.settled = false := by
  rw [files_createNew] at h
  change (fs.files ++ [_])[fs.files.length]? = some file at h
  rw [List.getElem?_append_right le_rfl] at h
  simp only [Nat.sub_self, List.getElem?_cons_zero, Option.some.injEq] at h
  rw [← h]

end Operations

section Entries

variable [DecidableEq ν]

def lookup (fs : DurableFiles D ν) (place : FilePlace D ν) : Option Nat :=
  (fs.directory place.1).lookup place.2

def outcomes (fs : DurableFiles D ν) (place : FilePlace D ν) : List (Option Nat) :=
  (fs.directory place.1).outcomes place.2

/-- The file at a place. -/
def fileAt (fs : DurableFiles D ν) (place : FilePlace D ν) : Option DurableFile :=
  (fs.lookup place).bind fun number => fs.files[number]?

@[simp] theorem lookup_modifyFile {fs : DurableFiles D ν} {place : FilePlace D ν}
    {number : Nat} (f : DurableFile → DurableFile) :
    (fs.modifyFile number f).lookup place = fs.lookup place := rfl

@[simp] theorem outcomes_modifyFile {fs : DurableFiles D ν} {place : FilePlace D ν}
    {number : Nat} (f : DurableFile → DurableFile) :
    (fs.modifyFile number f).outcomes place = fs.outcomes place := rfl

theorem lookup_mem_outcomes (fs : DurableFiles D ν) (place : FilePlace D ν) :
    fs.lookup place ∈ fs.outcomes place :=
  DurableDirectory.lookup_mem_outcomes

theorem lt_of_mem_outcomes {fs : DurableFiles D ν} {place : FilePlace D ν} {number : Nat}
    (h : some number ∈ fs.outcomes place) : number < fs.files.length := by
  simp only [outcomes, DurableDirectory.outcomes, List.mem_append, List.mem_map,
    List.mem_filter, List.mem_singleton] at h
  rcases h with ⟨change, ⟨hmem, -⟩, hentry⟩ | hstable
  · exact fs.valid _ change number (List.mem_append_left _ hmem) hentry
  · unfold DurableDirectory.entryIn at hstable
    obtain ⟨change, hfound, hentry⟩ := Option.bind_eq_some_iff.1 hstable.symm
    exact fs.valid _ change number
      (List.mem_append_right _ (List.mem_of_find?_eq_some hfound)) hentry

/-- What a loss of power may leave. -/
structure PowerLoss (fs fs' : DurableFiles D ν) : Prop where
  directory : ∀ d, (fs.directory d).PowerLoss (fs'.directory d)
  settled : ∀ (number : Nat) (file : DurableFile), fs.files[number]? = some file → file.settled = true →
    fs'.files[number]? = some file

/-- Nothing but these places has got a new outcome; where an entry is another one than before,
it is the only outcome; and no file that had reached the disk has changed. -/
structure Endures (places : Set (FilePlace D ν)) (fs fs' : DurableFiles D ν) : Prop where
  outcomes : ∀ place ∉ places, ∀ entry ∈ fs'.outcomes place, entry ∈ fs.outcomes place
  lookup : ∀ place ∉ places, fs'.lookup place = fs.lookup place ∨
    ∀ entry ∈ fs'.outcomes place, entry = fs'.lookup place
  settled : ∀ (number : Nat) (file : DurableFile), fs.files[number]? = some file → file.settled = true →
    fs'.files[number]? = some file

variable {places places' : Set (FilePlace D ν)} {fs fs' fs'' : DurableFiles D ν}
  {place other : FilePlace D ν} {entry : Option Nat}

theorem Endures.refl (places : Set (FilePlace D ν)) (fs : DurableFiles D ν) :
    fs.Endures places fs where
  outcomes _ _ _ h := h
  lookup _ _ := .inl rfl
  settled _ _ h _ := h

theorem Endures.trans (h : fs.Endures places fs') (h' : fs'.Endures places fs'') :
    fs.Endures places fs'' where
  outcomes place hplace entry hentry :=
    h.outcomes place hplace entry (h'.outcomes place hplace entry hentry)
  lookup place hplace := by
    rcases h'.lookup place hplace with hsame' | honly'
    · rcases h.lookup place hplace with hsame | honly
      · exact .inl (hsame'.trans hsame)
      · right
        intro entry hentry
        rw [hsame']
        exact honly entry (h'.outcomes place hplace entry hentry)
    · exact .inr honly'
  settled number file hfile hsettled :=
    h'.settled number file (h.settled number file hfile hsettled) hsettled

theorem Endures.mono (h : fs.Endures places fs') (hplaces : places ⊆ places') :
    fs.Endures places' fs' where
  outcomes place hplace := h.outcomes place fun hmem => hplace (hplaces hmem)
  lookup place hplace := h.lookup place fun hmem => hplace (hplaces hmem)
  settled := h.settled

theorem PowerLoss.endures (h : fs.PowerLoss fs') : fs.Endures ∅ fs' where
  outcomes place _ _ hentry := (h.directory place.1).outcomes hentry
  lookup place _ := by
    right
    intro entry hentry
    rwa [DurableFiles.outcomes, (h.directory place.1).outcomes_eq, List.mem_singleton] at hentry
  settled := h.settled

variable {number : Nat}

theorem endures_addFile : fs.Endures ∅ fs.addFile := by
  refine ⟨fun _ _ _ h => h, fun _ _ => .inl rfl, ?_⟩
  intro number file hfile _
  rw [addFile, List.getElem?_append_left (List.getElem?_eq_some_iff.1 hfile).1]
  exact hfile

theorem endures_syncFile : fs.Endures ∅ (fs.syncFile number) := by
  refine ⟨fun _ _ _ h => h, fun _ _ => .inl rfl, ?_⟩
  intro other file hfile hsettled
  rw [syncFile, modifyFile, List.getElem?_modify, hfile]
  by_cases h : number = other
  · simp [h, ← hsettled]
  · simp [h]

/-- A file that has not reached the disk may grow. -/
theorem endures_append {bytes : List UInt8}
    (h : ∀ file, fs.files[number]? = some file → file.settled = false) :
    fs.Endures ∅ (fs.append number bytes) := by
  refine ⟨fun _ _ _ h => h, fun _ _ => .inl rfl, ?_⟩
  intro other file hfile hsettled
  rw [append, modifyFile, List.getElem?_modify, hfile]
  by_cases hsame : number = other
  · subst hsame
    rw [h file hfile] at hsettled
    cases hsettled
  · simp [hsame]

end Entries

/-! ## What the operations do -/

section Effects

variable [DecidableEq D] [DecidableEq ν] {fs : DurableFiles D ν} {place other : FilePlace D ν}
  {entry : Option Nat}

theorem lookup_record_self {h} : (fs.record place entry h).lookup place = entry := by
  simp [lookup, record, DurableDirectory.lookup_record_self]

theorem lookup_record_of_ne {h} (hne : place ≠ other) :
    (fs.record place entry h).lookup other = fs.lookup other := by
  simp only [lookup, record]
  by_cases hd : other.1 = place.1
  · rw [hd, Function.update_self, DurableDirectory.lookup_record_of_ne]
    exact fun hname => hne (Prod.ext hd.symm hname)
  · rw [Function.update_of_ne hd]

theorem outcomes_record_self {h} :
    (fs.record place entry h).outcomes place = entry :: fs.outcomes place := by
  simp [outcomes, record, DurableDirectory.outcomes_record_self]

theorem outcomes_record_of_ne {h} (hne : place ≠ other) :
    (fs.record place entry h).outcomes other = fs.outcomes other := by
  simp only [outcomes, record]
  by_cases hd : other.1 = place.1
  · rw [hd, Function.update_self, DurableDirectory.outcomes_record_of_ne]
    exact fun hname => hne (Prod.ext hd.symm hname)
  · rw [Function.update_of_ne hd]

theorem lookup_syncDirectory {d : D} : (fs.syncDirectory d).lookup place = fs.lookup place := by
  simp only [lookup, syncDirectory]
  by_cases hd : place.1 = d
  · rw [hd, Function.update_self, DurableDirectory.lookup_sync]
  · rw [Function.update_of_ne hd]

theorem outcomes_syncDirectory_self :
    (fs.syncDirectory place.1).outcomes place = [fs.lookup place] := by
  simp [outcomes, syncDirectory, lookup, DurableDirectory.outcomes_sync]

theorem outcomes_syncDirectory_of_ne {d : D} (hd : place.1 ≠ d) :
    (fs.syncDirectory d).outcomes place = fs.outcomes place := by
  simp only [outcomes, syncDirectory]
  rw [Function.update_of_ne hd]

theorem endures_record (h : ∀ number, entry = some number → number < fs.files.length) :
    fs.Endures {place} (fs.record place entry h) := by
  refine ⟨?_, ?_, fun _ _ hfile _ => hfile⟩
  · intro other hother outcome houtcome
    rwa [outcomes_record_of_ne fun heq => hother heq.symm] at houtcome
  · intro other hother
    exact .inl (lookup_record_of_ne fun heq => hother heq.symm)

theorem endures_createNew : fs.Endures {place} (fs.createNew place).2 :=
  (endures_addFile.mono (Set.empty_subset _)).trans (endures_record fs.lt_addFile)

theorem endures_unlink : fs.Endures {place} (fs.unlink place) :=
  endures_record _

theorem endures_syncDirectory {d : D} : fs.Endures ∅ (fs.syncDirectory d) := by
  refine ⟨?_, fun _ _ => .inl lookup_syncDirectory, fun _ _ hfile _ => hfile⟩
  intro place _ outcome houtcome
  by_cases hd : place.1 = d
  · subst hd
    rw [outcomes_syncDirectory_self, List.mem_singleton] at houtcome
    rw [houtcome]
    exact fs.lookup_mem_outcomes place
  · rwa [outcomes_syncDirectory_of_ne hd] at houtcome

end Effects

end DurableFiles
