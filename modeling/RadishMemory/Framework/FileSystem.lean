import RadishMemory.Framework.FileTree
import RadishMemory.Framework.Program

/-!
# File systems and calls that may fail

A file system is a tree whose file entries name inodes.  A call walks its path in the tree; it
follows at most `symlinkLimit` links.  An open file stays what it is when its entries change.

A program works on a `World`: the file system, a clock, and what is to happen at each call: how
far the clock goes on, whether the call fails for a reason outside the tree, and how much a short
write takes.  The world keeps a log of the calls with their faults.
-/

structure Inode where
  bytes : List UInt8
  modified : Nat
  changed : Nat
deriving DecidableEq, Inhabited

/-- Every file entry names an inode. -/
structure FileSystem where
  tree : FileTree Nat
  inodes : List Inode
  valid : ∀ entry ∈ tree.entries, ∀ inode, entry.2 = .file inode → inode < inodes.length

inductive IoError where
  | path (error : WalkError)
  | alreadyExists
  | isADirectory
  | fault (code : Nat)
deriving DecidableEq, Repr

inductive FileMetadata where
  | directory
  | symlink
  | special
  | file (inode : Nat) (data : Inode)
deriving DecidableEq

def FileMetadata.isSymlink : FileMetadata → Bool
  | .symlink => true
  | _ => false

def FileMetadata.isDir : FileMetadata → Bool
  | .directory => true
  | _ => false

def FileMetadata.isFile : FileMetadata → Bool
  | .file _ _ => true
  | _ => false

namespace FileSystem

def symlinkLimit : Nat :=
  40

def inode (fs : FileSystem) (number : Nat) : Inode :=
  fs.inodes.getD number default

def metadataOf (fs : FileSystem) : FileEntry Nat → FileMetadata
  | .directory => .directory
  | .link _ => .symlink
  | .special => .special
  | .file number => .file number (fs.inode number)

/-! ## Reading the tree -/

def entryAt (fs : FileSystem) (path : FilePath) : Except IoError (FilePath × FileEntry Nat) :=
  (fs.tree.entryAt symlinkLimit path).mapError IoError.path

theorem lookup_of_entryAt {fs : FileSystem} {path place : FilePath} {entry : FileEntry Nat}
    (h : fs.entryAt path = .ok (place, entry)) : fs.tree.lookup place = some entry := by
  rw [entryAt, Except.mapError_eq_ok_iff] at h
  induction path using List.reverseRecOn with
  | nil =>
    cases h
    rfl
  | append_singleton front name _ =>
    obtain ⟨parent, left, -, -, hlookup, rfl⟩ := FileTree.entryAt_append_singleton.1 h
    exact hlookup

theorem inode_lt {fs : FileSystem} {place : FilePath} {number : Nat}
    (h : fs.tree.lookup place = some (.file number)) : number < fs.inodes.length := by
  unfold FileTree.lookup at h
  split at h
  · simp at h
  · obtain ⟨entry, hfind, hfile⟩ := Option.map_eq_some_iff.1 h
    exact fs.valid entry (List.mem_of_find?_eq_some hfind) number hfile

def symlinkMetadata (fs : FileSystem) (path : FilePath) : Except IoError FileMetadata := do
  let (_, entry) ← fs.entryAt path
  return fs.metadataOf entry

def canonicalize (fs : FileSystem) (path : FilePath) : Except IoError FilePath := do
  let (location, _) ← (fs.tree.walk symlinkLimit [] (nameSteps path)).mapError IoError.path
  return location

/-- Open what a path leads to. -/
def openPath (fs : FileSystem) (path : FilePath) : Except IoError (FileEntry Nat) := do
  let location ← fs.canonicalize path
  (fs.tree.lookup location).orError (.path .notFound)

def metadata (fs : FileSystem) (path : FilePath) : Except IoError FileMetadata := do
  let entry ← fs.openPath path
  return fs.metadataOf entry

/-- The first bytes of an open file. -/
def readAtMost (fs : FileSystem) (limit : Nat) : FileEntry Nat → Except IoError (List UInt8)
  | .file number => .ok ((fs.inode number).bytes.take limit)
  | _ => .error .isADirectory

/-! ## Changing it -/

/-- The place of a new entry: its parent is a directory, and nothing is there yet. -/
def freePlace (fs : FileSystem) (path : FilePath) : Except IoError FilePath :=
  match fs.entryAt path with
  | .ok _ => .error .alreadyExists
  | .error (.path .notFound) => do
    let (parent, _) ← (fs.tree.walk symlinkLimit [] (nameSteps path.dropLast)).mapError
      IoError.path
    return parent ++ path.drop (path.length - 1)
  | .error error => .error error

def addEntry (fs : FileSystem) (place : FilePath) (entry : FileEntry Nat)
    (h : ∀ number, entry = .file number → number < fs.inodes.length) : FileSystem :=
  { tree := ⟨fs.tree.entries ++ [(place, entry)]⟩
    inodes := fs.inodes
    valid := by
      intro other hother number hfile
      rcases List.mem_append.1 hother with hold | hnew
      · exact fs.valid other hold number hfile
      · rw [List.mem_singleton] at hnew
        subst hnew
        exact h number hfile }

def addInode (fs : FileSystem) (inode : Inode) : FileSystem :=
  { tree := fs.tree
    inodes := fs.inodes ++ [inode]
    valid := by
      intro entry hentry number hfile
      rw [List.length_append]
      exact (fs.valid entry hentry number hfile).trans_le (Nat.le_add_right _ _) }

def updateInode (fs : FileSystem) (number : Nat) (f : Inode → Inode) : FileSystem :=
  { tree := fs.tree
    inodes := fs.inodes.modify number f
    valid := by
      intro entry hentry inode hfile
      rw [List.length_modify]
      exact fs.valid entry hentry inode hfile }

def removeEntry (fs : FileSystem) (place : FilePath) : FileSystem :=
  { tree := ⟨deleteWhere (fun entry => entry.1 == place) fs.tree.entries⟩
    inodes := fs.inodes
    valid := fun entry hentry => fs.valid entry (mem_deleteWhere.1 hentry).1 }

/-- The inode notes that its entries changed. -/
def noteChange (fs : FileSystem) (time : Nat) : FileEntry Nat → FileSystem
  | .file number => fs.updateInode number fun inode => { inode with changed := time }
  | _ => fs

/-- A new, empty file; an existing entry is not opened. -/
def createNew (fs : FileSystem) (time : Nat) (path : FilePath) :
    Except IoError (Nat × FileSystem) := do
  let place ← fs.freePlace path
  let added := fs.addInode { bytes := [], modified := time, changed := time }
  return (fs.inodes.length, added.addEntry place (.file fs.inodes.length) (by
    intro number hnumber
    cases hnumber
    simp [added, addInode]))

/-- Append to an open file. -/
def append (fs : FileSystem) (time number : Nat) (bytes : List UInt8) : FileSystem :=
  fs.updateInode number fun inode =>
    { bytes := inode.bytes ++ bytes, modified := time, changed := time }

/-- A second entry for the file of a path; an existing entry is not replaced. -/
def hardLink (fs : FileSystem) (time : Nat) (original path : FilePath) :
    Except IoError FileSystem :=
  match h : fs.entryAt original with
  | .error error => .error error
  | .ok (_, .directory) => .error .isADirectory
  | .ok (_, entry) => do
    let place ← fs.freePlace path
    return (fs.addEntry place entry fun _ hnumber =>
      inode_lt (hnumber ▸ lookup_of_entryAt h)).noteChange time entry

def removeFile (fs : FileSystem) (time : Nat) (path : FilePath) : Except IoError FileSystem := do
  let (place, entry) ← fs.entryAt path
  require (entry ≠ .directory) IoError.isADirectory
  return (fs.removeEntry place).noteChange time entry

/-! ## Entries of a real directory -/

section Entries

variable {fs : FileSystem} {parent place path : FilePath} {name : FileName}

theorem entryAt_of_real (h : fs.tree.RealPath parent)
    (hdirectory : fs.tree.isDirectory parent = true) :
    fs.entryAt (parent ++ [name]) = (fs.tree.lookup (parent ++ [name])).elim
      (.error (.path .notFound)) fun entry => .ok (parent ++ [name], entry) := by
  rw [entryAt, h.entryAt hdirectory]
  cases fs.tree.lookup (parent ++ [name]) with
  | none => rfl
  | some entry => rfl

theorem freePlace_of_real (h : fs.tree.RealPath parent)
    (hdirectory : fs.tree.isDirectory parent = true) :
    fs.freePlace (parent ++ [name]) = (fs.tree.lookup (parent ++ [name])).elim
      (.ok (parent ++ [name])) fun _ => .error .alreadyExists := by
  unfold freePlace
  rw [entryAt_of_real h hdirectory]
  cases fs.tree.lookup (parent ++ [name]) with
  | some entry => rfl
  | none =>
    simp only [Option.elim_none, List.dropLast_concat, h.walk symlinkLimit]
    simp [Except.mapError, Except.ok_bind, pure, Except.pure]

theorem lookup_addEntry {entry : FileEntry Nat} {h} (hplace : place ≠ [])
    (hfree : fs.tree.lookup place = none) :
    (fs.addEntry place entry h).tree.lookup path =
      if path = place then some entry else fs.tree.lookup path := by
  unfold FileTree.lookup at hfree
  rw [if_neg hplace, Option.map_eq_none_iff] at hfree
  simp only [FileTree.lookup, addEntry, List.find?_append]
  by_cases hempty : path = []
  · rw [if_pos hempty, if_pos hempty, if_neg (hempty ▸ hplace.symm)]
  · rw [if_neg hempty, if_neg hempty]
    by_cases hsame : path = place
    · subst hsame
      rw [if_pos rfl, hfree]
      simp
    · rw [if_neg hsame]
      simp [Ne.symm hsame]

theorem lookup_removeEntry (hplace : place ≠ []) :
    (fs.removeEntry place).tree.lookup path =
      if path = place then none else fs.tree.lookup path := by
  simp only [FileTree.lookup, removeEntry, deleteWhere]
  by_cases hempty : path = []
  · rw [if_pos hempty, if_pos hempty, if_neg (hempty ▸ hplace.symm)]
  · rw [if_neg hempty, if_neg hempty]
    by_cases hsame : path = place
    · subst hsame
      rw [if_pos rfl, Option.map_eq_none_iff, List.find?_eq_none]
      simp
    · rw [if_neg hsame, List.find?_filter]
      congr 2
      funext entry
      by_cases hentry : entry.1 = path
      · simp [hentry, hsame]
      · simp [hentry]

@[simp] theorem updateInode_tree (number : Nat) (f : Inode → Inode) :
    (fs.updateInode number f).tree = fs.tree := rfl

theorem updateInode_inodes (number : Nat) (f : Inode → Inode) :
    (fs.updateInode number f).inodes = fs.inodes.modify number f := rfl

@[simp] theorem addEntry_inodes {entry : FileEntry Nat} {h} :
    (fs.addEntry place entry h).inodes = fs.inodes := rfl

@[simp] theorem removeEntry_inodes : (fs.removeEntry place).inodes = fs.inodes := rfl

theorem noteChange_tree (time : Nat) (entry : FileEntry Nat) :
    (fs.noteChange time entry).tree = fs.tree := by
  cases entry with
  | file number => rfl
  | directory => rfl
  | link target => rfl
  | special => rfl

end Entries

end FileSystem

/-! ## Calls -/

/-- What happens at a call. -/
structure Turn where
  fault : Option Nat
  advance : Nat
  chunk : Nat

def Turn.calm : Turn :=
  { fault := none, advance := 0, chunk := 0 }

structure World (L : Type) where
  fs : FileSystem
  clock : Nat
  turns : List Turn
  log : List (L × Option Nat)

variable {L ε α β : Type}

namespace World

def turn (w : World L) : Turn :=
  w.turns.headD .calm

def time (w : World L) : Nat :=
  w.clock + w.turn.advance

/-- The world after a call that left the file system `fs`. -/
def next (w : World L) (label : L) (fs : FileSystem) : World L :=
  { fs
    clock := w.time
    turns := w.turns.tail
    log := w.log ++ [(label, w.turn.fault)] }

/-- A call is given the time and the size of a short write. -/
def perform (w : World L) (label : L)
    (body : Nat → Nat → FileSystem → Except IoError (α × FileSystem)) :
    Except IoError α × World L :=
  match w.turn.fault with
  | some code => (.error (.fault code), w.next label w.fs)
  | none =>
    match body w.time w.turn.chunk w.fs with
    | .ok (a, fs) => (.ok a, w.next label fs)
    | .error error => (.error error, w.next label w.fs)

end World

abbrev FileIo (L ε α : Type) :=
  Program L (World L) ε α

/-- A call hands its error to the program. -/
def ioCall (label : L) (body : Nat → Nat → FileSystem → Except IoError (α × FileSystem)) :
    FileIo L ε (Except IoError α) :=
  .access label (fun w => (w.perform label body).2) fun w =>
    .done (.ok (w.perform label body).1)

/-- A call that only reads. -/
def ioQuery (label : L) (query : FileSystem → Except IoError α) :
    FileIo L ε (Except IoError α) :=
  ioCall label fun _ _ fs => return (← query fs, fs)

section Calls

variable {I : World L → Prop} {w : World L} {label : L}

/-- A call fails for a reason outside the tree, does what its body does, or fails as it does. -/
theorem safe_ioCall {Q : Except ε (Except IoError α) → World L → Prop}
    {body : Nat → Nat → FileSystem → Except IoError (α × FileSystem)}
    (hfault : ∀ code, w.turn.fault = some code →
      I (w.next label w.fs) ∧ Q (.ok (.error (.fault code))) (w.next label w.fs))
    (hok : ∀ a fs, w.turn.fault = none → body w.time w.turn.chunk w.fs = .ok (a, fs) →
      I (w.next label fs) ∧ Q (.ok (.ok a)) (w.next label fs))
    (herror : ∀ error, w.turn.fault = none → body w.time w.turn.chunk w.fs = .error error →
      I (w.next label w.fs) ∧ Q (.ok (.error error)) (w.next label w.fs)) :
    (ioCall label body).Safe I Q w := by
  change I (w.perform label body).2 ∧
    Q (.ok (w.perform label body).1) (w.perform label body).2
  unfold World.perform
  cases hturn : w.turn.fault with
  | some code => exact hfault code hturn
  | none =>
    dsimp only
    cases hbody : body w.time w.turn.chunk w.fs with
    | ok result => exact hok result.1 result.2 hturn hbody
    | error error => exact herror error hturn hbody

/-- A call, with what is done for each of its answers. -/
theorem safe_call {f : Except IoError α → FileIo L ε β} {R : Except ε β → World L → Prop}
    {body : Nat → Nat → FileSystem → Except IoError (α × FileSystem)}
    (hfault : ∀ code, w.turn.fault = some code → I (w.next label w.fs) ∧
      (f (.error (.fault code))).Safe I R (w.next label w.fs))
    (hok : ∀ a fs, w.turn.fault = none → body w.time w.turn.chunk w.fs = .ok (a, fs) →
      I (w.next label fs) ∧ (f (.ok a)).Safe I R (w.next label fs))
    (herror : ∀ error, w.turn.fault = none → body w.time w.turn.chunk w.fs = .error error →
      I (w.next label w.fs) ∧ (f (.error error)).Safe I R (w.next label w.fs)) :
    (ioCall label body >>= f).Safe I R w :=
  Program.safe_bind (safe_ioCall hfault hok herror)

theorem safe_query {f : Except IoError α → FileIo L ε β} {R : Except ε β → World L → Prop}
    {query : FileSystem → Except IoError α} (hI : I (w.next label w.fs))
    (hfault : ∀ code, w.turn.fault = some code →
      (f (.error (.fault code))).Safe I R (w.next label w.fs))
    (hanswer : w.turn.fault = none → (f (query w.fs)).Safe I R (w.next label w.fs)) :
    (ioQuery label query >>= f).Safe I R w := by
  apply safe_call
  · exact fun code hturn => ⟨hI, hfault code hturn⟩
  · intro a fs hturn hbody
    simp only [Except.bind_eq_ok_iff, Except.pure_eq_ok_iff, Prod.mk.injEq] at hbody
    obtain ⟨value, hquery, rfl, rfl⟩ := hbody
    exact ⟨hI, hquery ▸ hanswer hturn⟩
  · intro error hturn hbody
    refine ⟨hI, ?_⟩
    cases hquery : query w.fs with
    | ok a =>
      rw [hquery] at hbody
      cases hbody
    | error other =>
      rw [hquery] at hbody
      obtain rfl := Except.error.inj hbody
      exact hquery ▸ hanswer hturn

theorem World.log_next (w : World L) (label : L) (fs : FileSystem) :
    w.log <+: (w.next label fs).log :=
  List.prefix_append _ _

/-! ## Programs that only look -/

/-- From any world with this file system, the program leaves the file system as it is. -/
def Program.Observes (fs : FileSystem) (p : FileIo L ε α) (Q : Except ε α → Prop) : Prop :=
  ∀ w : World L, w.fs = fs → p.Safe (fun w' => w'.fs = fs)
    (fun result w' => w'.fs = fs ∧ w.log <+: w'.log ∧ Q result) w

variable {fs : FileSystem} {Q : Except ε α → Prop}

theorem observes_done {result : Except ε α} (h : Q result) :
    (Program.done result : FileIo L ε α).Observes fs Q :=
  fun w hw => ⟨hw, List.prefix_refl w.log, h⟩

/-- A program that looks, before one that may change the file system. -/
theorem Program.Observes.thenSafe {p : FileIo L ε β} {f : β → FileIo L ε α}
    {P : Except ε β → Prop} {R : Except ε α → World L → Prop} (hp : p.Observes fs P)
    (hw : w.fs = fs) (hI : ∀ w', w'.fs = fs → I w')
    (hok : ∀ b w', w'.fs = fs → w.log <+: w'.log → P (.ok b) → (f b).Safe I R w')
    (herror : ∀ e w', w'.fs = fs → w.log <+: w'.log → P (.error e) → R (.error e) w') :
    (p >>= f).Safe I R w := by
  refine Program.safe_bind (((hp w hw).weaken hI).mono ?_)
  rintro result w' ⟨hfs, hlog, hresult⟩
  cases result with
  | ok b => exact hok b w' hfs hlog hresult
  | error e => exact herror e w' hfs hlog hresult

theorem Program.Observes.bind {p : FileIo L ε β} {f : β → FileIo L ε α}
    {P : Except ε β → Prop} (hp : p.Observes fs P)
    (hok : ∀ b, P (.ok b) → (f b).Observes fs Q) (herror : ∀ e, P (.error e) → Q (.error e)) :
    (p >>= f).Observes fs Q := by
  intro w hw
  refine Program.safe_bind ((hp w hw).mono ?_)
  rintro result w' ⟨hfs, hlog, hresult⟩
  cases result with
  | ok b =>
    refine (hok b hresult w' hfs).mono ?_
    rintro later w'' ⟨hfs', hlog', hlater⟩
    exact ⟨hfs', hlog.trans hlog', hlater⟩
  | error e => exact ⟨hfs, hlog, herror e hresult⟩

theorem observes_ioQuery {query : FileSystem → Except IoError β}
    {Q : Except ε (Except IoError β) → Prop} (hok : ∀ b, query fs = .ok b → Q (.ok (.ok b)))
    (herror : ∀ error, query fs = .error error ∨ (∃ code, error = .fault code) →
      Q (.ok (.error error))) :
    (ioQuery label query : FileIo L ε (Except IoError β)).Observes fs Q := by
  rintro w rfl
  have hlog := w.log_next label w.fs
  apply safe_ioCall
  · exact fun code _ => ⟨rfl, rfl, hlog, herror _ (.inr ⟨code, rfl⟩)⟩
  · intro _ fs' _ hbody
    simp only [Except.bind_eq_ok_iff, Except.pure_eq_ok_iff, Prod.mk.injEq] at hbody
    obtain ⟨value, hquery, rfl, rfl⟩ := hbody
    exact ⟨rfl, rfl, hlog, hok value hquery⟩
  · intro error _ hbody
    refine ⟨rfl, rfl, hlog, herror _ (.inl ?_)⟩
    cases hquery : query w.fs with
    | ok b =>
      rw [hquery] at hbody
      cases hbody
    | error other =>
      rw [hquery] at hbody
      cases hbody
      rfl

/-- What holds of the value of a successful result. -/
def OnOk (P : α → Prop) : Except ε α → Prop
  | .ok a => P a
  | .error _ => True

theorem Program.Observes.mono {p : FileIo L ε α} {P R : α → Prop}
    (hp : p.Observes fs (OnOk P)) (h : ∀ a, P a → R a) : p.Observes fs (OnOk R) := by
  intro w hw
  refine (hp w hw).mono ?_
  rintro result w' ⟨hfs, hlog, hresult⟩
  cases result with
  | ok a => exact ⟨hfs, hlog, h a hresult⟩
  | error e => exact ⟨hfs, hlog, trivial⟩

theorem observes_error {P : α → Prop} (e : ε) :
    (Program.done (.error e) : FileIo L ε α).Observes fs (OnOk P) :=
  observes_done trivial

theorem observes_pure {P : α → Prop} {a : α} (h : P a) :
    (pure a : FileIo L ε α).Observes fs (OnOk P) :=
  observes_done h

theorem observes_ofExcept {P : α → Prop} {x : Except ε α} (h : ∀ a, x = .ok a → P a) :
    (Program.ofExcept x : FileIo L ε α).Observes fs (OnOk P) := by
  cases x with
  | ok a => exact observes_done (h a rfl)
  | error e => exact observes_done trivial

theorem Program.Observes.andThen {p : FileIo L ε β} {f : β → FileIo L ε α} {P : β → Prop}
    {R : α → Prop} (hp : p.Observes fs (OnOk P))
    (hf : ∀ b, P b → (f b).Observes fs (OnOk R)) : (p >>= f).Observes fs (OnOk R) :=
  hp.bind hf fun _ _ => trivial

/-- A query, with what is done for each of its answers. -/
theorem observes_query {query : FileSystem → Except IoError β}
    {f : Except IoError β → FileIo L ε α} {R : α → Prop}
    (hok : ∀ b, query fs = .ok b → (f (.ok b)).Observes fs (OnOk R))
    (herror : ∀ error, (f (.error error)).Observes fs (OnOk R)) :
    (ioQuery label query >>= f).Observes fs (OnOk R) := by
  refine Program.Observes.bind (P := fun result => ∃ answer, result = .ok answer ∧
    ∀ b, answer = .ok b → query fs = .ok b) ?_ ?_ ?_
  · exact observes_ioQuery (fun b hb => ⟨_, rfl, fun b' hb' => by rwa [← Except.ok.inj hb']⟩)
      fun error _ => ⟨_, rfl, fun b' hb' => by cases hb'⟩
  · rintro _ ⟨answer, hsame, hanswer⟩
    obtain rfl := Except.ok.inj hsame
    rename_i answer
    cases answer with
    | ok b => exact hok b (hanswer b rfl)
    | error error => exact herror error
  · rintro e ⟨answer, hanswer, -⟩
    cases hanswer

theorem Program.Observes.mapError {ε' : Type} {p : FileIo L ε α} {f : ε → ε'} {P : α → Prop}
    (hp : p.Observes fs (OnOk P)) : (p.mapError f).Observes fs (OnOk P) := by
  intro w hw
  refine (hp w hw).mapError (fun _ h => h) ?_
  rintro result w' ⟨hfs, hlog, hresult⟩
  cases result with
  | ok a => exact ⟨hfs, hlog, hresult⟩
  | error e => exact ⟨hfs, hlog, trivial⟩

/-- A program that looks and whose error is handled, before one that may change the file
system. -/
theorem Program.Observes.attemptSafe {p : FileIo L ε β}
    {f : Except ε β → FileIo L ε α} {P : β → Prop} {R : Except ε α → World L → Prop}
    (hp : p.Observes fs (OnOk P)) (hw : w.fs = fs) (hI : ∀ w', w'.fs = fs → I w')
    (hok : ∀ b w', w'.fs = fs → w.log <+: w'.log → P b → (f (.ok b)).Safe I R w')
    (herror : ∀ e w', w'.fs = fs → w.log <+: w'.log → (f (.error e)).Safe I R w') :
    (p.attempt >>= f).Safe I R w := by
  refine Program.safe_bind (Program.Safe.attempt (((hp w hw).weaken hI).mono ?_))
  rintro result w' ⟨hfs, hlog, hresult⟩
  cases result with
  | ok b => exact hok b w' hfs hlog hresult
  | error e => exact herror e w' hfs hlog

end Calls
