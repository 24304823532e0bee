import RadishMemory.Construction.FileEntry.Export
import RadishMemory.Construction.Samples
import RadishMemory.Properties.SelectedPaths

/-!
# An export does not damage files

A run of the export adds one inode, with an entry for the temporary file and one for the target;
every other entry and inode is that of the start.  The target gets its entry when the inode has
all the bytes.
-/

namespace RadishMemory

namespace FileEntry

/-! ## What an export leaves -/

/-- The file system `start` with a new inode that has entries of these names in `parent`. -/
structure Exported (start : FileSystem) (parent : FilePath) (names : List FileName)
    (inode : Inode) (fs : FileSystem) : Prop where
  free : ∀ name ∈ names, start.tree.lookup (parent ++ [name]) = none
  lookup : ∀ path, fs.tree.lookup path =
    if path ∈ names.map (fun name => parent ++ [name]) then some (.file start.inodes.length)
    else start.tree.lookup path
  inodes : fs.inodes = start.inodes ++ [inode]

/-- A directory that is reached where it is written. -/
structure RealDirectory (fs : FileSystem) (path : FilePath) : Prop where
  real : fs.tree.RealPath path
  directory : fs.tree.isDirectory path = true

variable {start fs : FileSystem} {parent : FilePath} {names : List FileName} {name : FileName}
  {inode : Inode}

theorem modify_last {α : Type} (l : List α) (a : α) (f : α → α) :
    (l ++ [a]).modify l.length f = l ++ [f a] := by
  induction l with
  | nil => rfl
  | cons b l ih =>
    rw [List.cons_append, List.length_cons, List.modify_succ_cons, ih]
    rfl

namespace Exported

theorem lookup_name (h : Exported start parent names inode fs) :
    fs.tree.lookup (parent ++ [name]) =
      if name ∈ names then some (.file start.inodes.length)
      else start.tree.lookup (parent ++ [name]) := by
  rw [h.lookup]
  simp

theorem kept (h : Exported start parent names inode fs) {path : FilePath} {entry : FileEntry Nat}
    (hentry : start.tree.lookup path = some entry) : fs.tree.lookup path = some entry := by
  rw [h.lookup, if_neg, hentry]
  intro hmem
  obtain ⟨name, hname, rfl⟩ := List.mem_map.1 hmem
  rw [h.free name hname] at hentry
  cases hentry

theorem inode_of_lt (h : Exported start parent names inode fs) {number : Nat}
    (hlt : number < start.inodes.length) : fs.inode number = start.inode number := by
  rw [FileSystem.inode, FileSystem.inode, h.inodes, List.getD_eq_getElem?_getD,
    List.getElem?_append_left hlt, ← List.getD_eq_getElem?_getD]

theorem realDirectory (h : Exported start parent names inode fs)
    (hparent : RealDirectory start parent) : RealDirectory fs parent := by
  have hsame : ∀ front, front <+: parent → fs.tree.lookup front = start.tree.lookup front := by
    intro front hfront
    rw [h.lookup, if_neg]
    intro hmem
    obtain ⟨name, -, rfl⟩ := List.mem_map.1 hmem
    have hlength := hfront.length_le
    rw [List.length_append, List.length_singleton] at hlength
    omega
  refine ⟨hparent.real.congr hsame, ?_⟩
  rw [FileTree.isDirectory, hsame parent (List.prefix_refl parent)]
  exact hparent.directory

theorem inode_eq (h : Exported start parent names inode fs) :
    fs.inode start.inodes.length = inode := by
  rw [FileSystem.inode, h.inodes]
  simp

theorem entryAt (h : Exported start parent names inode fs) (hparent : RealDirectory start parent)
    (hname : name ∈ names) :
    fs.entryAt (parent ++ [name]) = .ok (parent ++ [name], .file start.inodes.length) := by
  have hdirectory := h.realDirectory hparent
  rw [FileSystem.entryAt_of_real hdirectory.real hdirectory.directory, h.lookup_name,
    if_pos hname]
  rfl

theorem metadataOf (h : Exported start parent names inode fs) :
    fs.metadataOf (.file start.inodes.length) = .file start.inodes.length inode := by
  rw [FileSystem.metadataOf, h.inode_eq]

theorem symlinkMetadata (h : Exported start parent names inode fs)
    (hparent : RealDirectory start parent) (hname : name ∈ names) :
    fs.symlinkMetadata (parent ++ [name]) = .ok (.file start.inodes.length inode) := by
  rw [FileSystem.symlinkMetadata, h.entryAt hparent hname, Except.ok_bind]
  exact congrArg Except.ok h.metadataOf

theorem openPath (h : Exported start parent names inode fs) (hparent : RealDirectory start parent)
    (hname : name ∈ names) {entry : FileEntry Nat}
    (hopen : fs.openPath (parent ++ [name]) = .ok entry) :
    entry = .file start.inodes.length := by
  have hdirectory := h.realDirectory hparent
  have hentry : fs.tree.lookup (parent ++ [name]) = some (.file start.inodes.length) := by
    rw [h.lookup_name, if_pos hname]
  have hreal : fs.tree.RealPath (parent ++ [name]) :=
    FileTree.realPath_append_singleton.2
      ⟨hdirectory.real, hdirectory.directory, _, hentry, rfl⟩
  rw [openPath_eq_ok_iff_of_real hreal, hentry] at hopen
  exact (Option.some.inj hopen).symm

/-! ## What the calls leave -/

theorem create (hparent : RealDirectory start parent) {time number : Nat}
    (h : start.createNew time (parent ++ [name]) = .ok (number, fs)) :
    number = start.inodes.length ∧
      Exported start parent [name] { bytes := [], modified := time, changed := time } fs := by
  rw [FileSystem.createNew, FileSystem.freePlace_of_real hparent.real hparent.directory] at h
  cases hfree : start.tree.lookup (parent ++ [name]) with
  | some entry =>
    rw [hfree] at h
    cases h
  | none =>
    rw [hfree, Option.elim_none, Except.ok_bind, Except.pure_eq_ok_iff, Prod.mk.injEq] at h
    obtain ⟨rfl, rfl⟩ := h
    refine ⟨rfl, ⟨by simpa using hfree, fun path => ?_, rfl⟩⟩
    have hadded : ((start.addInode { bytes := [], modified := time, changed := time }).tree).lookup
        (parent ++ [name]) = none := hfree
    rw [FileSystem.lookup_addEntry (by simp) hadded]
    simp [FileSystem.addInode]

theorem updateInode_inodes (h : Exported start parent names inode fs) (f : Inode → Inode) :
    (fs.updateInode start.inodes.length f).inodes = start.inodes ++ [f inode] := by
  rw [FileSystem.updateInode_inodes, h.inodes, modify_last]

theorem append (h : Exported start parent names inode fs) (time : Nat) (bytes : List UInt8) :
    Exported start parent names
      { bytes := inode.bytes ++ bytes, modified := time, changed := time }
      (fs.append time start.inodes.length bytes) := by
  exact ⟨h.free, h.lookup, h.updateInode_inodes _⟩

theorem hardLink (h : Exported start parent names inode fs) (hparent : RealDirectory start parent)
    (hname : name ∈ names) {time : Nat} {target : FileName} {fs' : FileSystem}
    (hlink : fs.hardLink time (parent ++ [name]) (parent ++ [target]) = .ok fs') :
    target ∉ names ∧
      Exported start parent (target :: names) { inode with changed := time } fs' := by
  have hdirectory := h.realDirectory hparent
  unfold FileSystem.hardLink at hlink
  split at hlink
  · cases hlink
  · cases hlink
  · rename_i entry _ hentry
    rw [h.entryAt hparent hname, Except.ok.injEq, Prod.mk.injEq] at hentry
    obtain ⟨-, rfl⟩ := hentry
    rw [FileSystem.freePlace_of_real hdirectory.real hdirectory.directory, h.lookup_name] at hlink
    by_cases htarget : target ∈ names
    · rw [if_pos htarget] at hlink
      cases hlink
    · rw [if_neg htarget] at hlink
      cases hfree : start.tree.lookup (parent ++ [target]) with
      | some entry =>
        rw [hfree] at hlink
        cases hlink
      | none =>
        rw [hfree, Option.elim_none, Except.ok_bind, Except.pure_eq_ok_iff] at hlink
        subst hlink
        have hlookup : fs.tree.lookup (parent ++ [target]) = none := by
          rw [h.lookup_name, if_neg htarget, hfree]
        refine ⟨htarget, by simpa [hfree] using h.free, fun path => ?_, ?_⟩
        · rw [FileSystem.noteChange_tree, FileSystem.lookup_addEntry (by simp) hlookup, h.lookup]
          by_cases hsame : path = parent ++ [target]
          · simp [hsame]
          · simp [hsame]
        · rw [FileSystem.noteChange, FileSystem.updateInode_inodes, FileSystem.addEntry_inodes,
            h.inodes, modify_last]

theorem removeFile (h : Exported start parent names inode fs)
    (hparent : RealDirectory start parent) (hname : name ∈ names) (time : Nat) :
    ∃ fs', fs.removeFile time (parent ++ [name]) = .ok fs' ∧
      Exported start parent (names.filter (· ≠ name)) { inode with changed := time } fs' := by
  refine ⟨(fs.removeEntry (parent ++ [name])).noteChange time (.file start.inodes.length), ?_,
    ?_⟩
  · rw [FileSystem.removeFile, h.entryAt hparent hname]
    rfl
  · refine ⟨fun other hother => h.free other (List.mem_of_mem_filter hother), fun path => ?_, ?_⟩
    · rw [FileSystem.noteChange_tree, FileSystem.lookup_removeEntry (by simp), h.lookup]
      by_cases hsame : path = parent ++ [name]
      · subst hsame
        simp [h.free name hname]
      · rw [if_neg hsame]
        congr 1
        rw [eq_iff_iff]
        simp only [List.mem_map, List.mem_filter, decide_eq_true_eq]
        constructor
        · rintro ⟨other, hother, rfl⟩
          exact ⟨other, ⟨hother, fun heq => hsame (by rw [heq])⟩, rfl⟩
        · rintro ⟨other, ⟨hother, -⟩, rfl⟩
          exact ⟨other, hother, rfl⟩
    · rw [FileSystem.noteChange, FileSystem.updateInode_inodes, FileSystem.removeEntry_inodes,
        h.inodes, modify_last]

end Exported

/-! ## Writing -/

variable {target temporary : FileName} {temporaries : List FileName} {managed : List UInt8}
  {w : World FileCall}

/-- When the target has an entry of the new inode, the inode has all the bytes; a target that is
named like a temporary file is left out. -/
def Complete (target : FileName) (temporaries : List FileName) (managed : List UInt8)
    (names : List FileName) (bytes : List UInt8) : Prop :=
  target ∈ names → target ∉ temporaries → bytes = managed

theorem Complete.of_temporary (htemporary : temporary ∈ temporaries) (bytes : List UInt8) :
    Complete target temporaries managed [temporary] bytes := by
  intro hmem hfree
  obtain rfl := List.mem_singleton.1 hmem
  exact absurd htemporary hfree

theorem Complete.of_eq {bytes : List UInt8} (h : bytes = managed) :
    Complete target temporaries managed names bytes :=
  fun _ _ => h

theorem Complete.mono {temporaries' : List FileName} {bytes : List UInt8}
    (h : Complete target temporaries managed names bytes) (hsubset : temporaries ⊆ temporaries') :
    Complete target temporaries' managed names bytes :=
  fun hmem hfree => h hmem fun hnot => hfree (hsubset hnot)

theorem Complete.subset {names' : List FileName} {bytes : List UInt8}
    (h : Complete target temporaries managed names bytes) (hsubset : names' ⊆ names) :
    Complete target temporaries managed names' bytes :=
  fun hmem => h (hsubset hmem)

/-- However the export ends. -/
def Intact (start : FileSystem) (parent : FilePath) (target : FileName)
    (temporaries : List FileName) (managed : List UInt8) (fs : FileSystem) : Prop :=
  fs = start ∨ ∃ names inode, Exported start parent names inode fs ∧
    Complete target temporaries managed names inode.bytes

theorem Intact.mono {temporaries' : List FileName}
    (h : Intact start parent target temporaries managed fs) (hsubset : temporaries ⊆ temporaries') :
    Intact start parent target temporaries' managed fs := by
  rcases h with hsame | ⟨names, inode, hexported, hcomplete⟩
  · exact .inl hsame
  · exact .inr ⟨names, inode, hexported, hcomplete.mono hsubset⟩

theorem take_append_drop_min (n : Nat) (bytes : List UInt8) :
    bytes.take n ++ bytes.drop (min n bytes.length) = bytes := by
  by_cases hle : n ≤ bytes.length
  · rw [min_eq_left hle, List.take_append_drop]
  · rw [min_eq_right (by omega), List.drop_length, List.append_nil,
      List.take_of_length_le (by omega)]

theorem safe_writeAll {fuel : Nat} {bytes : List UInt8} (hfuel : bytes.length ≤ fuel)
    (hcomplete : ∀ bytes, Complete target temporaries managed names bytes)
    (h : Exported start parent names inode w.fs) :
    (writeAll start.inodes.length fuel bytes).Safe
      (fun w' => Intact start parent target temporaries managed w'.fs)
      (fun r w' => w.log <+: w'.log ∧ ∃ result inode', r = .ok result ∧
        Exported start parent names inode' w'.fs ∧
        (result = .ok () → inode'.bytes = inode.bytes ++ bytes)) w := by
  induction fuel generalizing w bytes inode with
  | zero =>
    obtain rfl := List.length_eq_zero_iff.1 (Nat.le_zero.1 hfuel)
    exact ⟨List.prefix_refl _, _, inode, rfl, h, fun _ => (List.append_nil _).symm⟩
  | succ fuel ih =>
    unfold writeAll
    split
    · rename_i hempty
      subst hempty
      exact ⟨List.prefix_refl _, _, inode, rfl, h, fun _ => (List.append_nil _).symm⟩
    · rename_i hne
      apply safe_call
      · intro code _
        refine ⟨.inr ⟨names, inode, h, hcomplete _⟩, ?_⟩
        exact ⟨w.log_next _ _, _, inode, rfl, h, fun hok => by cases hok⟩
      · intro written fs _ hwrite
        rw [Except.ok.injEq, Prod.mk.injEq] at hwrite
        obtain ⟨rfl, rfl⟩ := hwrite
        have happended := h.append w.time (bytes.take (w.turn.chunk + 1))
        refine ⟨.inr ⟨names, _, happended, hcomplete _⟩, ?_⟩
        have hpos := List.length_pos_iff.2 hne
        refine (ih (w := w.next .writeTemporary _) ?_ happended).mono ?_
        · rw [List.length_drop]
          omega
        · rintro r w' ⟨hlog, result, inode', rfl, hexported, hbytes⟩
          refine ⟨(w.log_next _ _).trans hlog, result, inode', rfl, hexported, fun hok => ?_⟩
          rw [hbytes hok, List.append_assoc, take_append_drop_min]
      · intro error _ hwrite
        cases hwrite

theorem safe_writeTemporary {bytes : List UInt8}
    (hcomplete : ∀ bytes, Complete target temporaries managed names bytes)
    (h : Exported start parent names inode w.fs) :
    (writeTemporary start.inodes.length bytes).Safe
      (fun w' => Intact start parent target temporaries managed w'.fs)
      (fun r w' => w.log <+: w'.log ∧ ∃ result inode', r = .ok result ∧
        Exported start parent names inode' w'.fs ∧
        (result = .ok () → inode'.bytes = inode.bytes ++ bytes)) w := by
  refine Program.safe_bind ((safe_writeAll le_rfl hcomplete h).mono ?_)
  rintro r w' ⟨hlog, result, inode', rfl, hexported, hbytes⟩
  have hintact : Intact start parent target temporaries managed w'.fs :=
    .inr ⟨names, inode', hexported, hcomplete _⟩
  cases result with
  | error error => exact ⟨hlog, _, inode', rfl, hexported, fun hok => by cases hok⟩
  | ok _ =>
    apply safe_ioCall
    · intro code _
      exact ⟨hintact, hlog.trans (w'.log_next _ _), _, inode', rfl, hexported,
        fun hok => by cases hok⟩
    · intro _ fs _ hsync
      obtain rfl : w'.fs = fs := congrArg Prod.snd (Except.ok.inj hsync)
      exact ⟨hintact, hlog.trans (w'.log_next _ _), _, inode', rfl, hexported,
        fun _ => hbytes rfl⟩
    · intro error _ hsync
      cases hsync

/-! ## Removing the temporary file -/

def NoFaultAt (calls : List FileCall) (log : List (FileCall × Option Nat)) : Prop :=
  ∀ entry ∈ log, entry.1 ∈ calls → entry.2 = none

def cleanupCalls : List FileCall :=
  [.cleanupMetadata, .cleanupRemove]

/-- The calls that look at the temporary file through its handle; the cleanup compares with what
they saw. -/
def handleCalls : List FileCall :=
  [.writtenMetadata, .publishedMetadata]

/-- No fault at the calls that decide whether the temporary file is removed. -/
def Calm (log : List (FileCall × Option Nat)) : Prop :=
  NoFaultAt (cleanupCalls ++ handleCalls) log

theorem Calm.front {log log' : List (FileCall × Option Nat)} (h : Calm log')
    (hbegins : log <+: log') : Calm log :=
  fun entry hentry => h entry (hbegins.mem hentry)

theorem not_calm_next {code : Nat} {label : FileCall} (hturn : w.turn.fault = some code)
    (hlabel : label ∈ cleanupCalls ++ handleCalls) (fs : FileSystem) :
    ¬ Calm (w.next label fs).log := by
  intro hcalm
  have hentry := hcalm (label, w.turn.fault)
    (List.mem_append_right _ (List.mem_singleton.2 rfl)) hlabel
  rw [hturn] at hentry
  cases hentry

/-- What is left of these names: without the temporary file if its observation was known and the
calls went through. -/
def Left (start : FileSystem) (parent : FilePath) (temporary : FileName) (names : List FileName)
    (bytes : List UInt8) (known : Prop) (after : World FileCall) : Prop :=
  ∃ names' inode, Exported start parent names' inode after.fs ∧ inode.bytes = bytes ∧
    names' ⊆ names ∧ (known → Calm after.log → names' = names.filter (· ≠ temporary))

theorem Left.kept {known : Prop} (h : Exported start parent names inode w.fs)
    (hknown : known → ¬ Calm w.log) : Left start parent temporary names inode.bytes known w :=
  ⟨names, inode, h, rfl, List.Subset.refl names, fun hk hcalm => absurd hcalm (hknown hk)⟩

theorem Left.removed {known : Prop} {changed : Nat}
    (h : Exported start parent (names.filter (· ≠ temporary))
      { inode with changed := changed } w.fs) :
    Left start parent temporary names inode.bytes known w :=
  ⟨_, _, h, rfl, List.filter_subset_self _, fun _ _ => rfl⟩

/-- The calls that remove the temporary file, and what is done after each answer. -/
theorem safe_removeCall {α : Type} {f : Except IoError Unit → EntryIo α}
    {R : Except FileEntryError α → World FileCall → Prop}
    (hparent : RealDirectory start parent) (htemporary : temporary ∈ names)
    (h : Exported start parent names inode w.fs)
    (hbytes : Complete target temporaries managed names inode.bytes)
    (hfault : ∀ code w', w'.fs = w.fs → w.log <+: w'.log → ¬ Calm w'.log →
      (f (.error (.fault code))).Safe
        (fun w' => Intact start parent target temporaries managed w'.fs) R w')
    (hok : ∀ w' changed, w.log <+: w'.log →
      Exported start parent (names.filter (· ≠ temporary)) { inode with changed := changed } w'.fs →
      (f (.ok ())).Safe (fun w' => Intact start parent target temporaries managed w'.fs) R w') :
    (ioCall .cleanupRemove (fun time _ fs =>
        return ((), ← fs.removeFile time (parent ++ [temporary]))) >>= f).Safe
      (fun w' => Intact start parent target temporaries managed w'.fs) R w := by
  apply safe_call
  · intro code hturn
    refine ⟨.inr ⟨names, inode, h, hbytes⟩, hfault code _ rfl (w.log_next _ _) ?_⟩
    exact not_calm_next hturn (by decide) _
  · intro _ fs _ hremove
    obtain ⟨fs', hremoved, hexported⟩ := h.removeFile hparent htemporary w.time
    simp only [hremoved, Except.ok_bind, Except.pure_eq_ok_iff, Prod.mk.injEq, true_and] at hremove
    subst hremove
    refine ⟨.inr ⟨_, _, hexported, ?_⟩, hok _ _ (w.log_next _ _) hexported⟩
    exact hbytes.subset (List.filter_subset_self _)
  · intro error _ hremove
    obtain ⟨fs', hremoved, -⟩ := h.removeFile hparent htemporary w.time
    rw [hremoved] at hremove
    cases hremove

/-- The observation of the new inode. -/
def observationOf (start : FileSystem) (inode : Inode) : FileObservation :=
  FileObservation.fromMetadata (.file start.inodes.length inode)

theorem safe_cleanup {α : Type} (hparent : RealDirectory start parent)
    (htemporary : temporary ∈ names) (h : Exported start parent names inode w.fs)
    (hbytes : Complete target temporaries managed names inode.bytes)
    (expected : Option FileObservation)
    (primary : FileEntryError) :
    (cleanupTemporaryAfterFailure (α := α) (parent ++ [temporary]) expected primary).Safe
      (fun w' => Intact start parent target temporaries managed w'.fs)
      (fun r w' => w.log <+: w'.log ∧ (∃ e, r = .error e) ∧
        Left start parent temporary names inode.bytes
          (expected = some (observationOf start inode)) w') w := by
  have hintact : Intact start parent target temporaries managed w.fs :=
    .inr ⟨names, inode, h, hbytes⟩
  apply safe_query
  · exact hintact
  · intro code hturn
    refine ⟨w.log_next _ _, ⟨_, rfl⟩, Left.kept h fun _ => ?_⟩
    exact not_calm_next hturn (by decide) _
  · intro _
    rw [h.symlinkMetadata hparent htemporary]
    dsimp only
    split
    · rename_i hnone
      refine ⟨w.log_next _ _, ⟨_, rfl⟩, Left.kept h fun hknown => ?_⟩
      rw [hnone] at hknown
      cases hknown
    · split
      · rename_i hother
        refine ⟨w.log_next _ _, ⟨_, rfl⟩, Left.kept h fun hknown => ?_⟩
        simp [FileMetadata.isSymlink, FileMetadata.isFile, hknown, observationOf] at hother
      · refine safe_removeCall (w := w.next _ _) hparent htemporary h hbytes ?_ ?_
        · intro code w' hfs hlog hnot
          refine ⟨(w.log_next _ _).trans hlog, ⟨_, rfl⟩, Left.kept (by rwa [hfs]) fun _ => hnot⟩
        · intro w' changed hlog hexported
          exact ⟨(w.log_next _ _).trans hlog, ⟨_, rfl⟩, Left.removed hexported⟩

theorem safe_removeOwned (hparent : RealDirectory start parent) (htemporary : temporary ∈ names)
    (h : Exported start parent names inode w.fs)
    (hbytes : Complete target temporaries managed names inode.bytes) :
    (removeOwnedTemporary (parent ++ [temporary]) (observationOf start inode)).Safe
      (fun w' => Intact start parent target temporaries managed w'.fs)
      (fun r w' => w.log <+: w'.log ∧ Left start parent temporary names inode.bytes True w' ∧
        (r = .ok () → ∃ inode', Exported start parent (names.filter (· ≠ temporary)) inode' w'.fs ∧
          inode'.bytes = inode.bytes)) w := by
  have hintact : Intact start parent target temporaries managed w.fs :=
    .inr ⟨names, inode, h, hbytes⟩
  apply safe_query
  · exact hintact
  · intro code hturn
    refine ⟨w.log_next _ _, Left.kept h fun _ => ?_, fun hok => by cases hok⟩
    exact not_calm_next hturn (by decide) _
  · intro _
    rw [h.symlinkMetadata hparent htemporary]
    dsimp only
    split
    · rename_i hother
      simp [FileMetadata.isSymlink, FileMetadata.isFile, observationOf] at hother
    · refine safe_removeCall (w := w.next _ _) hparent htemporary h hbytes ?_ ?_
      · intro code w' hfs hlog hnot
        exact ⟨(w.log_next _ _).trans hlog, Left.kept (by rwa [hfs]) fun _ => hnot,
          fun hok => by cases hok⟩
      · intro w' changed hlog hexported
        exact ⟨(w.log_next _ _).trans hlog, Left.removed hexported,
          fun _ => ⟨_, hexported, rfl⟩⟩

/-! ## Verification -/

theorem observes_verifyPathMatchesOpenFile (path : FilePath) (expected : FileObservation) :
    (verifyPathMatchesOpenFile path expected).Observes fs (OnOk fun _ => True) := by
  refine (observes_queried fun _ h => h).andThen fun metadata _ => ?_
  split
  · exact observes_error _
  · exact observes_pure trivial

theorem observes_checkExportParentComponents (root relative : FilePath) :
    (checkExportParentComponents root relative).Observes fs
      (OnOk fun _ => NoLinkBelow fs root relative) := by
  induction relative generalizing root with
  | nil =>
    refine observes_pure fun front hne hfront => ?_
    exact absurd (List.prefix_nil.1 hfront) hne
  | cons name rest ih =>
    refine observes_query ?_ ?_
    · intro metadata hmetadata
      dsimp only
      split
      · exact observes_error _
      · rename_i hlink
        rw [Bool.not_eq_true] at hlink
        split
        · refine (ih (root ++ [name])).mono fun _ hrest => ?_
          exact NoLinkBelow.cons (symlinkMetadata_not_link hmetadata hlink) hrest
        · exact observes_error _
    · intro error
      split
      · rename_i hanswer
        cases hanswer
      · exact observes_error _
      · exact observes_error _

theorem observes_rejectExistingExportTarget (path : FilePath) :
    (rejectExistingExportTarget path).Observes fs (OnOk fun _ => True) := by
  refine observes_query ?_ ?_
  · intro metadata _
    dsimp only
    split
    · exact observes_error _
    · exact observes_error _
  · intro error
    split
    · rename_i hanswer
      cases hanswer
    · exact observes_pure trivial
    · exact observes_error _

theorem observes_verifyExportDestinationStable (destination : ResolvedExportDestination) :
    (verifyExportDestinationStable destination).Observes fs (OnOk fun _ => True) := by
  refine (observes_checkExportParentComponents _ _).andThen fun _ _ => ?_
  refine (observes_queried fun _ h => h).mapError.andThen fun canonicalRoot _ => ?_
  refine (observes_queried fun _ h => h).mapError.andThen fun canonicalParent _ => ?_
  split
  · exact observes_error _
  · exact observes_rejectExistingExportTarget _

section Verify

variable [Platform]

/-- Through an entry of the new inode its observation is read. -/
theorem observes_openAndVerifyExactFile (hparent : RealDirectory start parent)
    (hname : name ∈ names) (h : Exported start parent names inode fs) (bytes : List UInt8)
    (digest : Digest) :
    (openAndVerifyExactFile (parent ++ [name]) bytes digest).Observes fs
      (OnOk fun verified => verified =
        (.file start.inodes.length, observationOf start inode)) := by
  refine (observes_queried fun _ _ => trivial).andThen fun pathMetadata _ => ?_
  split
  · exact observes_error _
  · refine (observes_queried fun _ h => h).andThen fun handle hopen => ?_
    obtain rfl := h.openPath hparent hname hopen
    refine (observes_queried fun _ h => h).andThen fun beforeMetadata _ => ?_
    dsimp only
    split
    · exact observes_error _
    · refine (observes_queried fun _ _ => trivial).andThen fun actualBytes _ => ?_
      refine (observes_queried fun _ h => h).andThen fun afterMetadata hafter => ?_
      rw [Except.ok.injEq, h.metadataOf] at hafter
      subst hafter
      split
      · exact observes_error _
      · refine (observes_verifyPathMatchesOpenFile _ _).andThen fun _ _ => ?_
        exact observes_pure rfl

/-! ## After the publication -/

/-- What an export leaves once it has its temporary file. -/
structure Outcome (start : FileSystem) (parent : FilePath) (target temporary : FileName)
    (temporaries : List FileName) (managed : List UInt8)
    (result : Except FileEntryError FileExportReceipt)
    (after : World FileCall) : Prop where
  ok : ∀ receipt, result = .ok receipt → ∃ inode, Exported start parent [target] inode after.fs ∧
    inode.bytes = managed
  error : ∀ e, result = .error e → ∃ names inode, Exported start parent names inode after.fs ∧
    names ⊆ [target, temporary] ∧ Complete target temporaries managed names inode.bytes ∧
    (Calm after.log → temporary ∉ names)

omit [Platform] in
theorem Outcome.of_left {known : Prop} {e : FileEntryError} {bytes : List UInt8}
    (hnames : names ⊆ [target, temporary])
    (hbytes : Complete target temporaries managed names bytes)
    (hleft : Left start parent temporary names bytes known w) (hknown : Calm w.log → known) :
    Outcome start parent target temporary temporaries managed (.error e) w := by
  refine ⟨fun receipt hok => (by cases hok), fun _ _ => ?_⟩
  obtain ⟨names', inode, hexported, hsame, hsubset, hremoved⟩ := hleft
  refine ⟨names', inode, hexported, List.Subset.trans hsubset hnames, ?_, fun hcalm => ?_⟩
  · rw [hsame]
    exact hbytes.subset hsubset
  · rw [hremoved (hknown hcalm) hcalm]
    simp

omit [Platform] in
theorem safe_cleanup_outcome (hparent : RealDirectory start parent)
    (htemporary : temporary ∈ names) (h : Exported start parent names inode w.fs)
    (hnames : names ⊆ [target, temporary])
    (hbytes : Complete target temporaries managed names inode.bytes)
    {expected : Option FileObservation}
    (hexpected : Calm w.log → expected = some (observationOf start inode))
    (primary : FileEntryError) :
    (cleanupTemporaryAfterFailure (parent ++ [temporary]) expected primary).Safe
      (fun w' => Intact start parent target temporaries managed w'.fs)
      (Outcome start parent target temporary temporaries managed) w := by
  refine (safe_cleanup hparent htemporary h hbytes expected primary).mono ?_
  rintro r w' ⟨hlog, ⟨e, rfl⟩, hleft⟩
  exact Outcome.of_left hnames hbytes hleft fun hcalm => hexpected (hcalm.front hlog)

theorem safe_finishExport (hparent : RealDirectory start parent) (hne : target ≠ temporary)
    {params : SourceArtifactParams} {destination : ResolvedExportDestination}
    (htarget : destination.targetPath = parent ++ [target])
    (h : Exported start parent [target, temporary] inode w.fs) (hbytes : inode.bytes = managed)
    (observation : FileObservation) :
    (finishExport params destination (parent ++ [temporary]) (.file start.inodes.length)
      observation).Safe (fun w' => Intact start parent target temporaries managed w'.fs)
      (Outcome start parent target temporary temporaries managed) w := by
  have hintact : ∀ w' : World FileCall, w'.fs = w.fs →
      Intact start parent target temporaries managed w'.fs := fun w' hfs => by
    rw [hfs]
    exact .inr ⟨_, inode, h, .of_eq hbytes⟩
  have htemporary : temporary ∈ [target, temporary] := by simp
  unfold finishExport
  apply safe_query
  · exact hintact _ rfl
  · intro code hturn
    refine safe_cleanup_outcome (w := w.next _ _) hparent htemporary h (List.Subset.refl _)
      (.of_eq hbytes) (fun hcalm => ?_) _
    exact absurd hcalm (not_calm_next hturn (by decide) _)
  · intro _
    rw [h.metadataOf]
    dsimp only
    have hverify := observes_openAndVerifyExactFile hparent (List.mem_cons_self) h
      (utf8Bytes params.content.asStr) params.contentDigest
    rw [← htarget] at hverify
    have hsame : ∀ verified : FileEntry Nat × FileObservation,
        (if verified.2 = observationOf start inode then pure ()
          else refuse .integrityMismatch : EntryIo Unit).Observes w.fs (OnOk fun _ => True) := by
      intro verified
      split
      · exact observes_pure trivial
      · exact observes_error _
    refine (hverify.andThen fun verified _ => hsame verified).attemptSafe rfl hintact ?_ ?_
    · intro _ w' hfs hlog _
      have hexported : Exported start parent [target, temporary] inode w'.fs := hfs ▸ h
      refine Program.safe_bind ((safe_removeOwned hparent htemporary hexported
        (.of_eq hbytes)).mono ?_)
      rintro r w'' ⟨hlog', hleft, hremoved⟩
      cases r with
      | error e =>
        exact Outcome.of_left (List.Subset.refl _) (.of_eq hbytes) hleft fun _ => trivial
      | ok _ =>
        obtain ⟨inode', hexported', hsame⟩ := hremoved rfl
        refine ⟨fun receipt _ => ⟨inode', ?_, hsame.trans hbytes⟩,
          fun e herror => (by cases herror)⟩
        simpa [hne] using hexported'
    · intro e w' hfs hlog
      have hexported : Exported start parent [target, temporary] inode w'.fs := hfs ▸ h
      exact safe_cleanup_outcome hparent htemporary hexported (List.Subset.refl _)
        (.of_eq hbytes) (fun _ => rfl) e

/-! ## Before the publication -/

omit [Platform] in
theorem safe_writtenObservation {α : Type} {f : Option FileObservation → EntryIo α}
    {R : Except FileEntryError α → World FileCall → Prop}
    (h : Exported start parent names inode w.fs)
    (hbytes : Complete target temporaries managed names inode.bytes)
    (hf : ∀ observation w', w'.fs = w.fs → w.log <+: w'.log →
      (Calm w'.log → observation = some (observationOf start inode)) →
      (f observation).Safe (fun w' => Intact start parent target temporaries managed w'.fs) R w') :
    (writtenObservation start.inodes.length >>= f).Safe
      (fun w' => Intact start parent target temporaries managed w'.fs) R w := by
  apply Program.safe_bind
  apply safe_query
  · exact .inr ⟨names, inode, h, hbytes⟩
  · intro code hturn
    exact hf none _ rfl (w.log_next _ _) fun hcalm =>
      absurd hcalm (not_calm_next hturn (by decide) _)
  · intro _
    rw [h.metadataOf]
    exact hf _ _ rfl (w.log_next _ _) fun _ => rfl

theorem safe_publishTemporary (hparent : RealDirectory start parent)
    (htemporary : temporary ∈ temporaries)
    {params : SourceArtifactParams} {destination : ResolvedExportDestination}
    (htarget : destination.targetPath = parent ++ [target])
    (hmanaged : managed = utf8Bytes params.content.asStr)
    (h : Exported start parent [temporary] inode w.fs) (hempty : inode.bytes = []) :
    (publishTemporary params destination start.inodes.length (parent ++ [temporary])).Safe
      (fun w' => Intact start parent target temporaries managed w'.fs)
      (Outcome start parent target temporary temporaries managed) w := by
  have hcomplete : ∀ bytes, Complete target temporaries managed [temporary] bytes :=
    Complete.of_temporary htemporary
  have hown : temporary ∈ [temporary] := by simp
  have hnames : [temporary] ⊆ [target, temporary] := by simp
  unfold publishTemporary
  dsimp only
  refine Program.safe_bind ((safe_writeTemporary hcomplete h).mono ?_)
  rintro r w₁ ⟨-, result, written, rfl, hwritten, hbytes⟩
  refine safe_writtenObservation hwritten (hcomplete _) ?_
  intro observation w₂ hfs₂ _ hobservation
  rw [← hfs₂] at hwritten
  -- the cleanup while only the temporary file is there
  have hcleanup : ∀ (expected : Option FileObservation) (e : FileEntryError) w',
      w'.fs = w₂.fs → (Calm w'.log → expected = some (observationOf start written)) →
      (cleanupTemporaryAfterFailure (parent ++ [temporary]) expected e).Safe
        (fun w' => Intact start parent target temporaries managed w'.fs)
        (Outcome start parent target temporary temporaries managed) w' := by
    intro expected e w' hfs hexpected
    exact safe_cleanup_outcome hparent hown (hfs ▸ hwritten) hnames
      (hcomplete _) hexpected e
  have hintact : ∀ w' : World FileCall, w'.fs = w₂.fs →
      Intact start parent target temporaries managed w'.fs := fun w' hfs => by
    rw [hfs]
    exact .inr ⟨_, written, hwritten, hcomplete _⟩
  cases result with
  | error error => exact hcleanup observation _ w₂ rfl hobservation
  | ok _ =>
    refine Program.Observes.attemptSafe
      (observes_openAndVerifyExactFile hparent (by simp) hwritten _ _) rfl hintact ?_ ?_
    · rintro _ w₃ hfs₃ _ rfl
      dsimp only
      have hstable := @observes_verifyExportDestinationStable w₂.fs destination
      refine hstable.attemptSafe hfs₃ hintact ?_ ?_
      · intro _ w₄ hfs₄ _ _
        dsimp only
        have hmatches := @observes_verifyPathMatchesOpenFile w₂.fs (parent ++ [temporary])
          (observationOf start written)
        refine hmatches.attemptSafe hfs₄ hintact ?_ ?_
        · intro _ w₅ hfs₅ _ _
          dsimp only
          apply safe_call
          · intro code _
            exact ⟨hintact _ hfs₅, hcleanup _ _ _ hfs₅ fun _ => rfl⟩
          · intro _ fs _ hlink
            simp only [Except.bind_eq_ok_iff, Except.pure_eq_ok_iff, Prod.mk.injEq] at hlink
            obtain ⟨linked, hlink, -, rfl⟩ := hlink
            rw [htarget, hfs₅] at hlink
            obtain ⟨hnot, hpublished⟩ := hwritten.hardLink hparent (by simp) hlink
            have hsame : written.bytes = managed := by
              rw [hbytes rfl, hempty, hmanaged]
              rfl
            refine ⟨.inr ⟨_, _, hpublished, .of_eq hsame⟩, ?_⟩
            exact safe_finishExport (w := w₅.next _ _) hparent (by simpa using hnot)
              htarget hpublished hsame _
          · intro error _ _
            exact ⟨hintact _ hfs₅, hcleanup _ _ _ hfs₅ fun _ => rfl⟩
        · intro e w₅ hfs₅ _
          exact hcleanup _ _ _ hfs₅ fun _ => rfl
      · intro e w₄ hfs₄ _
        exact hcleanup _ _ _ hfs₄ fun _ => rfl
    · intro e w₃ hfs₃ hlog
      exact hcleanup _ _ _ hfs₃ fun hcalm => hobservation (hcalm.front hlog)

/-! ## The destination -/

omit [Platform] in
theorem safe_createExportTemporary (hparent : RealDirectory start parent)
    {temporaryNames : List FileName} (hnames : temporaryNames ⊆ temporaries)
    (hw : w.fs = start) :
    (createExportTemporary parent temporaryNames).Safe
      (fun w' => Intact start parent target temporaries managed w'.fs)
      (fun r w' => (∀ created, r = .ok created → created.1 = start.inodes.length ∧
          ∃ name ∈ temporaryNames, created.2 = parent ++ [name] ∧ ∃ inode,
            inode.bytes = [] ∧ Exported start parent [name] inode w'.fs) ∧
        ∀ e, r = .error e → w'.fs = start) w := by
  induction temporaryNames generalizing w with
  | nil => exact ⟨fun created hok => (by cases hok), fun _ _ => hw⟩
  | cons name rest ih =>
    unfold createExportTemporary
    apply safe_call
    · intro code _
      exact ⟨.inl hw, fun created hok => (by cases hok), fun _ _ => hw⟩
    · intro number fs _ hcreate
      rw [hw] at hcreate
      obtain ⟨rfl, hexported⟩ := Exported.create hparent hcreate
      refine ⟨.inr ⟨_, _, hexported, ?_⟩, ?_⟩
      · exact Complete.of_temporary (hnames List.mem_cons_self) _
      · refine ⟨fun created hok => ?_, fun e herror => (by cases herror)⟩
        obtain rfl := Except.ok.inj hok
        exact ⟨rfl, name, List.mem_cons_self, rfl, _, rfl, hexported⟩
    · intro error _ _
      refine ⟨.inl hw, ?_⟩
      split
      · rename_i hanswer
        cases hanswer
      · refine (ih (w := w.next _ _) (List.subset_of_cons_subset hnames) hw).mono ?_
        rintro r w' ⟨hok, herror⟩
        refine ⟨fun created hcreated => ?_, herror⟩
        obtain ⟨hnumber, other, hother, hrest⟩ := hok created hcreated
        exact ⟨hnumber, other, List.mem_cons_of_mem _ hother, hrest⟩
      · exact ⟨fun created hok => (by cases hok), fun _ _ => hw⟩

/-- What is known of a resolved destination. -/
structure DestinationResolved (fs : FileSystem) (selectedTarget : FilePath)
    (roots : List (List UInt8)) (destination : ResolvedExportDestination) : Prop where
  root : ∃ allowedRoot ∈ roots, Selected fs allowedRoot destination.rootPath
    destination.relativeParent destination.canonicalRoot
  path : ∃ target, selectedTarget = destination.rootPath ++ destination.relativeParent ++ [target] ∧
    destination.targetPath = destination.canonicalParent ++ [target]
  parent : RealDirectory fs destination.canonicalParent
  canonical : destination.canonicalParent =
    destination.canonicalRoot ++ destination.relativeParent

omit [Platform] in
theorem observes_resolveExportDestinationIn (selectedTarget : FilePath)
    (roots : List (List UInt8)) :
    (resolveExportDestinationIn selectedTarget roots).Observes fs
      (OnOk (DestinationResolved fs selectedTarget roots)) := by
  induction roots with
  | nil => exact observes_error _
  | cons allowedRoot roots ih =>
    have hlater : (resolveExportDestinationIn selectedTarget roots).Observes fs
        (OnOk (DestinationResolved fs selectedTarget (allowedRoot :: roots))) := by
      refine ih.mono fun destination h => ?_
      obtain ⟨other, hother, hselected⟩ := h.root
      exact { h with root := ⟨other, List.mem_cons_of_mem _ hother, hselected⟩ }
    unfold resolveExportDestinationIn
    split
    · exact hlater
    · rename_i rootPath hnormalized
      split
      · exact hlater
      · split
        · exact hlater
        · rename_i relativeTarget hstrip
          rw [stripRoot_eq_some_iff] at hstrip
          split
          · exact hlater
          · rename_i target hlast
            obtain ⟨relativeParent, rfl⟩ := List.getLast?_eq_some_iff.1 hlast
            simp only [List.dropLast_concat]
            refine (observes_checkExportParentComponents rootPath relativeParent).andThen ?_
            intro _ hlinks
            refine observes_query ?_ ?_
            · intro canonicalRoot hroot
              dsimp only
              refine (observes_queried fun _ h => h).andThen fun rootMetadata hmetadata => ?_
              split
              · exact hlater
              · rename_i hdir
                rw [not_or, Bool.not_eq_false] at hdir
                have hselected : Selected fs allowedRoot rootPath relativeParent canonicalRoot :=
                  ⟨hnormalized, hlinks, hroot,
                    isDirectory_of_metadata (canonicalize_real hroot) hmetadata hdir.1, hdir.2⟩
                refine observes_query ?_ ?_
                · intro canonicalParent hparent
                  rw [hstrip, ← List.append_assoc, List.dropLast_concat,
                    hselected.canonicalize] at hparent
                  obtain rfl := Except.ok.inj hparent
                  dsimp only
                  refine (observes_queried fun _ h => h).andThen fun parentMetadata hdirectory => ?_
                  split
                  · exact observes_error _
                  · rename_i hbelow
                    rw [not_or, Bool.not_eq_false] at hbelow
                    refine (observes_rejectExistingExportTarget _).andThen fun _ _ => ?_
                    refine observes_pure ⟨⟨allowedRoot, List.mem_cons_self, hselected⟩,
                      ⟨target, ?_, rfl⟩, ⟨hselected.belowRoot.real, ?_⟩, rfl⟩
                    · rw [hstrip, List.append_assoc]
                    · exact isDirectory_of_metadata hselected.belowRoot.real hdirectory hbelow.1
                · intro error
                  split
                  · exact observes_error _
                  · exact observes_error _
                  · rename_i hanswer
                    cases hanswer
            · intro error
              split
              · exact hlater
              · exact observes_error _
              · rename_i hanswer
                cases hanswer

omit [Platform] in
theorem observes_resolveExportDestination (request : FileExportRequest) :
    (resolveExportDestination request).Observes fs (OnOk fun destination => ∃ selectedTarget,
      normalizeAbsolute request.targetPath = .ok selectedTarget ∧
        DestinationResolved fs selectedTarget request.allowedRoots destination) := by
  refine (observes_ofExcept fun _ h => h).andThen fun selectedTarget hnormalized => ?_
  rw [Except.mapError_eq_ok_iff] at hnormalized
  refine (observes_resolveExportDestinationIn _ _).mono fun destination h => ?_
  exact ⟨selectedTarget, hnormalized, h⟩

/-! ## The whole export -/

/-- A path is that of a file with these bytes. -/
def Holds (fs : FileSystem) (path : FilePath) (bytes : List UInt8) : Prop :=
  ∃ number, fs.tree.lookup path = some (.file number) ∧ (fs.inode number).bytes = bytes

omit [Platform] in
theorem Exported.lookup_of_subset (h : Exported start parent names inode fs)
    (hnames : names ⊆ [target]) (path : FilePath) :
    fs.tree.lookup path = start.tree.lookup path ∨
      target ∈ names ∧ path = parent ++ [target] := by
  rw [h.lookup]
  split
  · rename_i hmem
    obtain ⟨name, hname, rfl⟩ := List.mem_map.1 hmem
    obtain rfl := List.mem_singleton.1 (hnames hname)
    exact .inr ⟨hname, rfl⟩
  · exact .inl rfl

omit [Platform] in
theorem Exported.holds (h : Exported start parent names inode fs) (hname : name ∈ names) :
    Holds fs (parent ++ [name]) inode.bytes :=
  ⟨start.inodes.length, by rw [h.lookup_name, if_pos hname], by rw [h.inode_eq]⟩

/-- The target of a request: its path is normalised as text, and the file system resolves the
parent. -/
def TargetOf (fs : FileSystem) (request : FileExportRequest) (parent : FilePath)
    (target : FileName) : Prop :=
  ∃ selectedParent, normalizeAbsolute request.targetPath = .ok (selectedParent ++ [target]) ∧
    fs.canonicalize selectedParent = .ok parent

omit [Platform] in
theorem TargetOf.unique {request : FileExportRequest} {parent' : FilePath} {target' : FileName}
    (h : TargetOf fs request parent target) (h' : TargetOf fs request parent' target') :
    parent = parent' ∧ target = target' := by
  obtain ⟨selected, hnormalized, hcanonical⟩ := h
  obtain ⟨selected', hnormalized', hcanonical'⟩ := h'
  rw [hnormalized, Except.ok.injEq] at hnormalized'
  obtain ⟨rfl, hlast⟩ := List.append_inj' hnormalized' rfl
  rw [hcanonical, Except.ok.injEq] at hcanonical'
  exact ⟨hcanonical', List.singleton_inj.1 hlast⟩

omit [Platform] in
theorem DestinationResolved.targetOf {selectedTarget : FilePath} {request : FileExportRequest}
    {destination : ResolvedExportDestination}
    (h : DestinationResolved fs selectedTarget request.allowedRoots destination)
    (hnormalized : normalizeAbsolute request.targetPath = .ok selectedTarget) :
    ∃ target, TargetOf fs request destination.canonicalParent target ∧
      destination.targetPath = destination.canonicalParent ++ [target] := by
  obtain ⟨target, rfl, htarget⟩ := h.path
  obtain ⟨allowedRoot, -, hselected⟩ := h.root
  exact ⟨target, ⟨_, hnormalized, h.canonical ▸ hselected.canonicalize⟩, htarget⟩

/-- What every state of an export looks like. -/
def ExportState (process : ExportProcess) (source : SourceArtifact) (request : FileExportRequest)
    (start fs : FileSystem) : Prop :=
  fs = start ∨ ∃ parent target, TargetOf start request parent target ∧
    Intact start parent target process.temporaryNames (utf8Bytes source.params.content.asStr) fs

/-- What an export leaves when it returns. -/
def ExportResult (source : SourceArtifact) (request : FileExportRequest) (start : FileSystem)
    (result : Except FileEntryError FileExportReceipt) (after : World FileCall) : Prop :=
  ((∃ e, result = .error e) ∧ after.fs = start) ∨
    ∃ selectedTarget destination target temporary,
      normalizeAbsolute request.targetPath = .ok selectedTarget ∧
      DestinationResolved start selectedTarget request.allowedRoots destination ∧
      destination.targetPath = destination.canonicalParent ++ [target] ∧
      TargetOf start request destination.canonicalParent target ∧
      Outcome start destination.canonicalParent target temporary [temporary]
        (utf8Bytes source.params.content.asStr) result after

theorem safe_exportManagedSource (process : ExportProcess) (source : SourceArtifact)
    (request : FileExportRequest) (hw : w.fs = start) :
    (exportManagedSource process source request).Safe
      (fun w' => ExportState process source request start w'.fs)
      (ExportResult source request start) w := by
  have hrefused : ∀ (e : FileEntryError) (w' : World FileCall), w'.fs = start →
      ExportResult source request start (.error e) w' :=
    fun e w' hfs => .inl ⟨⟨e, rfl⟩, hfs⟩
  unfold exportManagedSource
  dsimp only
  split
  · exact hrefused _ w hw
  · refine Program.safe_bind (Program.safe_ofExcept ?_)
    split
    · split
      · exact hrefused _ w hw
      · refine (observes_resolveExportDestination request).thenSafe hw
          (fun w' hfs => .inl hfs) ?_ ?_
        · rintro destination w₁ hfs₁ - ⟨selectedTarget, hnormalized, hresolved⟩
          obtain ⟨target, htargetOf, htarget⟩ := hresolved.targetOf hnormalized
          have hstate : ∀ w' : World FileCall, Intact start destination.canonicalParent target
              process.temporaryNames (utf8Bytes source.params.content.asStr) w'.fs →
              ExportState process source request start w'.fs :=
            fun w' h => .inr ⟨_, target, htargetOf, h⟩
          refine Program.safe_bind (((safe_createExportTemporary hresolved.parent
            (List.Subset.refl _) hfs₁).weaken hstate).mono ?_)
          rintro r w₂ ⟨hcreated, hfailed⟩
          cases r with
          | error e => exact hrefused e w₂ (hfailed e rfl)
          | ok created =>
            obtain ⟨number, path⟩ := created
            obtain ⟨rfl, temporary, hmem, rfl, inode, hempty, hexported⟩ := hcreated _ rfl
            have hown : temporary ∈ [temporary] := List.mem_singleton.2 rfl
            refine ((safe_publishTemporary hresolved.parent hown htarget rfl hexported
              hempty).weaken fun w' h => ?_).mono fun r w' h => ?_
            · exact hstate w' (h.mono (by simpa using hmem))
            · exact .inr ⟨selectedTarget, destination, target, temporary, hnormalized, hresolved,
                htarget, htargetOf, h⟩
        · exact fun e w' hfs _ _ => hrefused e w' hfs
    · exact hrefused _ w hw

/-- An export from the world `w`, stopped or not, damages no file. -/
structure ExportKeepsFiles (process : ExportProcess) (source : SourceArtifact)
    (request : FileExportRequest) (w : World FileCall) : Prop where
  entries : ∀ fault breaksAfter path entry, w.fs.tree.lookup path = some entry →
    ((exportManagedSource process source request).runWith fault breaksAfter w).2.fs.tree.lookup
      path = some entry
  inodes : ∀ fault breaksAfter number, number < w.fs.inodes.length →
    ((exportManagedSource process source request).runWith fault breaksAfter w).2.fs.inode number =
      w.fs.inode number
  target : ∀ fault breaksAfter parent target, TargetOf w.fs request parent target →
    target ∉ process.temporaryNames → w.fs.tree.lookup (parent ++ [target]) = none →
    let after := ((exportManagedSource process source request).runWith fault breaksAfter w).2.fs
    after.tree.lookup (parent ++ [target]) = none ∨
      Holds after (parent ++ [target]) (utf8Bytes source.params.content.asStr)
  published : ∀ receipt, ((exportManagedSource process source request).run w).1 = .ok receipt →
    let after := ((exportManagedSource process source request).run w).2.fs
    ∃ parent target, TargetOf w.fs request parent target ∧
      w.fs.tree.lookup (parent ++ [target]) = none ∧
      Holds after (parent ++ [target]) (utf8Bytes source.params.content.asStr) ∧
      ∀ path, path ≠ parent ++ [target] → after.tree.lookup path = w.fs.tree.lookup path
  refused : ∀ e, ((exportManagedSource process source request).run w).1 = .error e →
    let after := ((exportManagedSource process source request).run w).2
    Calm after.log → ∀ path, after.fs.tree.lookup path = w.fs.tree.lookup path ∨
      ∃ parent target, TargetOf w.fs request parent target ∧ path = parent ++ [target] ∧
        Holds after.fs path (utf8Bytes source.params.content.asStr)

theorem ExportState.entries {process : ExportProcess} {source : SourceArtifact}
    {request : FileExportRequest} (h : ExportState process source request start fs)
    {path : FilePath} {entry : FileEntry Nat} (hentry : start.tree.lookup path = some entry) :
    fs.tree.lookup path = some entry := by
  rcases h with rfl | ⟨parent, target, -, rfl | ⟨names, inode, hexported, -⟩⟩
  · exact hentry
  · exact hentry
  · exact hexported.kept hentry

theorem ExportState.inodes {process : ExportProcess} {source : SourceArtifact}
    {request : FileExportRequest} (h : ExportState process source request start fs)
    {number : Nat} (hlt : number < start.inodes.length) :
    fs.inode number = start.inode number := by
  rcases h with rfl | ⟨parent, target, -, rfl | ⟨names, inode, hexported, -⟩⟩
  · rfl
  · rfl
  · exact hexported.inode_of_lt hlt

theorem ExportState.target_file {process : ExportProcess} {source : SourceArtifact}
    {request : FileExportRequest} (h : ExportState process source request start fs)
    (htarget : TargetOf start request parent target) (hname : target ∉ process.temporaryNames)
    (hfree : start.tree.lookup (parent ++ [target]) = none) :
    fs.tree.lookup (parent ++ [target]) = none ∨
      Holds fs (parent ++ [target]) (utf8Bytes source.params.content.asStr) := by
  rcases h with rfl | ⟨parent', target', hother, rfl | ⟨names, inode, hexported, hcomplete⟩⟩
  · exact .inl hfree
  · exact .inl hfree
  · obtain ⟨rfl, rfl⟩ := htarget.unique hother
    by_cases hmem : target ∈ names
    · exact .inr (hcomplete hmem hname ▸ hexported.holds hmem)
    · exact .inl (by rw [hexported.lookup_name, if_neg hmem, hfree])

theorem exportState_runWith (process : ExportProcess) (source : SourceArtifact)
    (request : FileExportRequest) (fault : FileEntryError) (breaksAfter : Option Nat) :
    ExportState process source request w.fs
      ((exportManagedSource process source request).runWith fault breaksAfter w).2.fs :=
  (safe_exportManagedSource process source request rfl).runWith (.inl rfl)

theorem export_keeps_files (process : ExportProcess) (source : SourceArtifact)
    (request : FileExportRequest) (w : World FileCall) :
    ExportKeepsFiles process source request w where
  entries fault breaksAfter path entry hentry :=
    (exportState_runWith process source request fault breaksAfter).entries hentry
  inodes fault breaksAfter number hlt :=
    (exportState_runWith process source request fault breaksAfter).inodes hlt
  target fault breaksAfter parent target htarget hname hfree :=
    (exportState_runWith process source request fault breaksAfter).target_file htarget hname hfree
  published := by
    intro receipt hok _
    rcases (safe_exportManagedSource process source request (w := w) rfl).run with
      ⟨⟨e, herror⟩, -⟩ | ⟨selectedTarget, destination, target, temporary, -, -, -, htarget, h⟩
    · rw [hok] at herror
      cases herror
    · obtain ⟨inode, hexported, hbytes⟩ := h.ok receipt hok
      refine ⟨_, target, htarget, hexported.free target (List.mem_singleton.2 rfl),
        hbytes ▸ hexported.holds (List.mem_singleton.2 rfl), fun path hpath => ?_⟩
      rcases hexported.lookup_of_subset (List.Subset.refl _) path with hsame | ⟨-, hname⟩
      · exact hsame
      · exact absurd hname hpath
  refused := by
    intro e herror _ hcalm path
    rcases (safe_exportManagedSource process source request (w := w) rfl).run with
      ⟨-, hfs⟩ | ⟨selectedTarget, destination, target, temporary, -, -, -, htarget, h⟩
    · exact .inl (by rw [hfs])
    · obtain ⟨names, inode, hexported, hnames, hcomplete, hremoved⟩ := h.error e herror
      have htemporary := hremoved hcalm
      have hsubset : names ⊆ [target] := by
        intro name hname
        rcases List.mem_cons.1 (hnames hname) with rfl | hother
        · exact List.mem_cons_self
        · obtain rfl := List.mem_singleton.1 hother
          exact absurd hname htemporary
      rcases hexported.lookup_of_subset hsubset path with hsame | ⟨hmem, rfl⟩
      · exact .inl hsame
      · refine .inr ⟨_, target, htarget, rfl, ?_⟩
        have hbytes := hcomplete hmem fun hown => by
          obtain rfl := List.mem_singleton.1 hown
          exact htemporary hmem
        exact hbytes ▸ hexported.holds hmem

end Verify

/-! ## An export that leaves its temporary file -/

section Samples

open Sample

/-- One empty directory. -/
def sampleFiles : FileSystem where
  tree := ⟨[([utf8Bytes "docs"], .directory)]⟩
  inodes := []
  valid := by
    intro entry hentry number hfile
    obtain rfl := List.mem_singleton.1 hentry
    cases hfile

def sampleProcess : ExportProcess :=
  { id := 7, nextExportTemp := id }

def sampleExport (target : String) : FileExportRequest :=
  { targetPath := utf8Bytes target, allowedRoots := [utf8Bytes "/docs"] }

def sampleManaged : SourceArtifact :=
  source (identifier "managed-source-1") (identifier "managed-lineage-1") none

/-- The calls after the creation of the temporary file fail in turn, as the list says. -/
def sampleWorld (faults : List (Option Nat)) : World FileCall :=
  { fs := sampleFiles
    clock := 0
    turns := List.replicate 6 .calm ++ faults.map fun fault =>
      { fault, advance := 1, chunk := 100 }
    log := [] }

/-- The write fails, and the handle does not tell what was written. -/
def failedExport : Except FileEntryError FileExportReceipt × World FileCall :=
  (exportManagedSource sampleProcess sampleManaged (sampleExport "/docs/out.txt")).run
    (sampleWorld [some 5, some 5])

/-- An export to a target that is named like its temporary file, stopped after the creation. -/
def stoppedExport : Except FileEntryError FileExportReceipt × World FileCall :=
  (exportManagedSource sampleProcess sampleManaged
    (sampleExport "/docs/.radishmemory-export-7-0.tmp")).runWith .integrityMismatch (some 6)
    (sampleWorld [])

/-- The temporary file stays although the cleanup could do its calls; a target may be left
empty. -/
theorem export_leaves_temporary :
    failedExport.1.isOk = false ∧
      (∀ entry ∈ failedExport.2.log, entry.1 ∈ cleanupCalls → entry.2 = none) ∧
      sampleFiles.tree.lookup [utf8Bytes "docs", sampleProcess.temporaryName 0] = none ∧
      failedExport.2.fs.tree.lookup [utf8Bytes "docs", sampleProcess.temporaryName 0] =
        some (.file 0) ∧
      sampleFiles.tree.lookup
        [utf8Bytes "docs", utf8Bytes ".radishmemory-export-7-0.tmp"] = none ∧
      stoppedExport.2.fs.tree.lookup
        [utf8Bytes "docs", utf8Bytes ".radishmemory-export-7-0.tmp"] = some (.file 0) ∧
      (stoppedExport.2.fs.inode 0).bytes ≠ utf8Bytes sampleManaged.params.content.asStr := by
  decide +kernel

end Samples

end FileEntry

end RadishMemory
