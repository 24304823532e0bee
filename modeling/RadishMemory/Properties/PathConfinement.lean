import RadishMemory.Properties.ManagedExport

/-!
# Paths stay below an allowed root

A file that is read, and a file that an export creates, lie below the canonical path of an allowed
root, and nothing between the two is a symbolic link.  The root is normalised as text before it is
resolved; when it has a `..` behind a symbolic link, that is not where the system would find it.
-/

namespace RadishMemory

namespace FileEntry

section Confinement

variable [Platform]

/-- The file that an export created is below an allowed root, before and after the export. -/
structure ExportConfined (fs : FileSystem) (source : SourceArtifact) (request : FileExportRequest)
    (after : FileSystem) : Prop where
  file : ∃ allowedRoot ∈ request.allowedRoots, ∃ rootPath relativeParent canonicalRoot target,
    normalizeAbsolute request.targetPath = .ok (rootPath ++ relativeParent ++ [target]) ∧
    CanonicalRoot fs allowedRoot rootPath canonicalRoot ∧
    BelowRoot fs canonicalRoot relativeParent ∧
    BelowRoot after canonicalRoot relativeParent ∧
    after.tree.isDirectory (canonicalRoot ++ relativeParent) = true ∧
    fs.tree.lookup (canonicalRoot ++ relativeParent ++ [target]) = none ∧
    Holds after (canonicalRoot ++ relativeParent ++ [target])
      (utf8Bytes source.params.content.asStr)

omit [Platform] in
theorem BelowRoot.exported {start fs : FileSystem} {parent : FilePath} {names : List FileName}
    {inode : Inode} {canonicalRoot relative : FilePath} (h : BelowRoot start canonicalRoot relative)
    (hexported : Exported start parent names inode fs)
    (hreal : fs.tree.RealPath (canonicalRoot ++ relative)) :
    BelowRoot fs canonicalRoot relative := by
  refine ⟨hreal, fun front hne hfront => ?_⟩
  obtain ⟨entry, hentry, hlink⟩ := h.entries front hne hfront
  exact ⟨entry, hexported.kept hentry, hlink⟩

theorem export_confined {process : ExportProcess} {source : SourceArtifact}
    {request : FileExportRequest} {w : World FileCall} {receipt : FileExportReceipt}
    (h : ((exportManagedSource process source request).run w).1 = .ok receipt) :
    ExportConfined w.fs source request
      ((exportManagedSource process source request).run w).2.fs := by
  rcases (safe_exportManagedSource process source request (w := w) rfl).run with
    ⟨⟨e, herror⟩, -⟩ |
    ⟨selectedTarget, destination, target, temporary, hnormalized, hresolved, htarget, -, houtcome⟩
  · rw [h] at herror
    cases herror
  · obtain ⟨inode, hexported, hbytes⟩ := houtcome.ok receipt h
    obtain ⟨allowedRoot, hmem, hselected⟩ := hresolved.root
    obtain ⟨target', hpath, htarget'⟩ := hresolved.path
    rw [htarget] at htarget'
    obtain rfl := List.singleton_inj.1 (List.append_cancel_left htarget')
    have hafter := hexported.realDirectory hresolved.parent
    have hfree := hexported.free target (List.mem_singleton.2 rfl)
    have hholds := hexported.holds (List.mem_singleton.2 (rfl : target = target))
    rw [hresolved.canonical] at hafter hfree hholds
    refine ⟨allowedRoot, hmem, destination.rootPath, destination.relativeParent,
      destination.canonicalRoot, target, hpath ▸ hnormalized, hselected.canonicalRoot,
      hselected.belowRoot, hselected.belowRoot.exported hexported hafter.real, hafter.directory,
      hfree, ?_⟩
    rw [← hbytes]
    exact hholds

/-- Whatever a read or an export that begins in the world `w` returns, it stays below an allowed
root. -/
structure PathsConfined (w : World FileCall) : Prop where
  read : ∀ request snapshot, ((readFileSnapshot request).run w).1 = .ok snapshot →
    ReadConfined w.fs request snapshot
  unchanged : ∀ request, ((readFileSnapshot request).run w).2.fs = w.fs
  exported : ∀ process source request receipt,
    ((exportManagedSource process source request).run w).1 = .ok receipt →
    ExportConfined w.fs source request
      ((exportManagedSource process source request).run w).2.fs

theorem paths_confined (w : World FileCall) : PathsConfined w where
  read := by
    intro request snapshot hok
    obtain ⟨-, -, hconfined⟩ := (observes_readFileSnapshot request w rfl).run
    rw [hok] at hconfined
    exact hconfined
  unchanged request := (observes_readFileSnapshot request w rfl).run.1
  exported _ _ _ _ h := export_confined h

end Confinement

/-! ## A root behind a symbolic link -/

section Samples

open Sample

def steps (path : List String) : FilePath :=
  path.map utf8Bytes

/-- The link of the directory `a` leads to `/x/y`. -/
def linkedFiles : FileSystem where
  tree := ⟨[(steps ["a"], .directory), (steps ["a", "b"], .directory),
    (steps ["a", "b", "note.txt"], .file 0), (steps ["a", "link"], .link (utf8Bytes "/x/y")),
    (steps ["x"], .directory), (steps ["x", "y"], .directory), (steps ["x", "b"], .directory)]⟩
  inodes := [{ bytes := utf8Bytes "alpha", modified := 0, changed := 0 }]
  valid := by
    intro entry hentry number hfile
    simp only [List.mem_cons, List.not_mem_nil, or_false] at hentry
    rcases hentry with rfl | rfl | rfl | rfl | rfl | rfl | rfl
    all_goals first | (cases hfile; decide) | cases hfile

def linkedRequest : FileReadRequest :=
  { selectedPath := utf8Bytes "/a/b/note.txt", allowedRoots := [utf8Bytes "/a/link/../b"] }

def linkedRead : Except FileEntryError ValidatedFileSnapshot × World FileCall :=
  (readFileSnapshot linkedRequest).run { fs := linkedFiles, clock := 0, turns := [], log := [] }

/-- The read succeeds, but the system resolves the only allowed root to `/x/b`, and no file lies
below that directory. -/
theorem root_behind_link :
    linkedRead.1.toOption.map (·.content.asStr) = some "alpha" ∧
      linkedRequest.allowedRoots.map (realpath linkedFiles) = [.ok (steps ["x", "b"])] ∧
      ∀ entry ∈ linkedFiles.tree.entries, (steps ["x", "b"]).isPrefixOf entry.1 = true →
        linkedFiles.metadataOf entry.2 = .directory := by
  decide +kernel

end Samples

end FileEntry

end RadishMemory
