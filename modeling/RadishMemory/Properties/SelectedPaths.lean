import RadishMemory.Construction.FileEntry.Selection

/-!
# Selected paths

Below the root that was found no component is a link, so the canonical path of the selection is
the canonical root followed by the relative path as it was requested (`FileTree.walk_below`).
The bytes of a snapshot are those of the file there.
-/

namespace RadishMemory

namespace FileEntry

/-! ## What confinement says -/

/-- Where a path leads, followed as it is spelled. -/
def realpath (fs : FileSystem) (path : List UInt8) : Except IoError FilePath := do
  let (location, _) ← (fs.tree.walk FileSystem.symlinkLimit [] (pathSteps path)).mapError
    IoError.path
  return location

/-- The canonical path of a normalised root, which is not the root of the file system.  It is
that of the root as it is spelled, if no `..` occurs in it. -/
structure CanonicalRoot (fs : FileSystem) (allowedRoot : List UInt8)
    (rootPath location : FilePath) : Prop where
  normalized : normalizeAbsolute allowedRoot = .ok rootPath
  canonical : fs.canonicalize rootPath = .ok location
  directory : fs.tree.isDirectory location = true
  below : location ≠ []
  spelled : .up ∉ pathSteps allowedRoot → realpath fs allowedRoot = .ok location

/-- A path reached without following a link; the entries between it and the root are no links. -/
structure BelowRoot (fs : FileSystem) (canonicalRoot relative : FilePath) : Prop where
  real : fs.tree.RealPath (canonicalRoot ++ relative)
  entries : ∀ front, front ≠ [] → front <+: relative → ∃ entry,
    fs.tree.lookup (canonicalRoot ++ front) = some entry ∧ entry.isLink = false

variable {fs : FileSystem}

/-! ## Normalised paths -/

theorem foldlM_of_no_up {steps : List PathStep} (hup : PathStep.up ∉ steps)
    {names names' : FilePath}
    (h : steps.foldlM normalizeStep names = .ok names') :
    names' = names ++ FileTree.stepNames steps := by
  induction steps generalizing names with
  | nil =>
    obtain rfl := Except.ok.inj h
    exact (List.append_nil _).symm
  | cons step rest ih =>
    have hrest : PathStep.up ∉ rest := fun hmem => hup (List.mem_cons_of_mem _ hmem)
    rw [List.foldlM_cons] at h
    cases step with
    | up => exact absurd List.mem_cons_self hup
    | stay => exact ih hrest h
    | name name =>
      rw [ih hrest h, List.append_assoc]
      rfl

theorem normalizeAbsolute_of_no_up {path : List UInt8} {names : FilePath}
    (hup : .up ∉ pathSteps path) (h : normalizeAbsolute path = .ok names) :
    names = FileTree.stepNames (pathSteps path) := by
  simp only [normalizeAbsolute, Except.bind_eq_ok_iff, Except.exists_unit_iff,
    require_eq_ok_iff] at h
  rw [foldlM_of_no_up hup h.2, List.nil_append]

theorem stripRoot_eq_some_iff {root path relative : FilePath} :
    stripRoot root path = some relative ↔ path = root ++ relative := by
  unfold stripRoot
  split
  · rename_i hbegins
    obtain ⟨rest, rfl⟩ := List.isPrefixOf_iff_prefix.1 hbegins
    simp
  · rename_i hbegins
    rw [List.isPrefixOf_iff_prefix] at hbegins
    simp only [reduceCtorEq, false_iff]
    rintro rfl
    exact hbegins (List.prefix_append root relative)

/-! ## The checks -/

theorem canonicalize_eq_ok_iff {path location : FilePath} :
    fs.canonicalize path = .ok location ↔ ∃ left,
      fs.tree.walk FileSystem.symlinkLimit [] (nameSteps path) = .ok (location, left) := by
  simp only [FileSystem.canonicalize, Except.bind_eq_ok_iff, Except.mapError_eq_ok_iff,
    Except.pure_eq_ok_iff, Prod.exists]
  constructor
  · rintro ⟨_, left, hwalk, rfl⟩
    exact ⟨left, hwalk⟩
  · rintro ⟨left, hwalk⟩
    exact ⟨location, left, hwalk, rfl⟩

theorem canonicalize_real {path location : FilePath} (h : fs.canonicalize path = .ok location) :
    fs.tree.RealPath location := by
  obtain ⟨left, hwalk⟩ := canonicalize_eq_ok_iff.1 h
  exact FileTree.walk_real FileTree.realPath_nil hwalk

/-- A real path leads where it is written. -/
theorem openPath_eq_ok_iff_of_real {path : FilePath} (h : fs.tree.RealPath path)
    {entry : FileEntry Nat} :
    fs.openPath path = .ok entry ↔ fs.tree.lookup path = some entry := by
  rw [FileSystem.openPath, canonicalize_eq_ok_iff.2 ⟨_, h.walk _⟩, Except.ok_bind,
    Option.orError_eq_ok_iff]

theorem metadata_eq_ok_iff_of_real {path : FilePath} (h : fs.tree.RealPath path)
    {metadata : FileMetadata} :
    fs.metadata path = .ok metadata ↔
      ∃ entry, fs.tree.lookup path = some entry ∧ fs.metadataOf entry = metadata := by
  simp only [FileSystem.metadata, Except.bind_eq_ok_iff, Except.pure_eq_ok_iff,
    openPath_eq_ok_iff_of_real h]

theorem isDirectory_of_metadata {path : FilePath} (h : fs.tree.RealPath path)
    {metadata : FileMetadata} (hmetadata : fs.metadata path = .ok metadata)
    (hdir : metadata.isDir = true) : fs.tree.isDirectory path = true := by
  obtain ⟨entry, hentry, rfl⟩ := (metadata_eq_ok_iff_of_real h).1 hmetadata
  unfold FileTree.isDirectory
  rw [hentry]
  cases entry <;> simp_all [FileSystem.metadataOf, FileMetadata.isDir]

/-- No entry of the relative path is a link. -/
def NoLinkBelow (fs : FileSystem) (root relative : FilePath) : Prop :=
  ∀ front, front ≠ [] → front <+: relative → ∃ location entry,
    fs.tree.entryAt FileSystem.symlinkLimit (root ++ front) = .ok (location, entry) ∧
      entry.isLink = false

theorem symlinkMetadata_not_link {path : FilePath} {metadata : FileMetadata}
    (h : fs.symlinkMetadata path = .ok metadata) (hlink : metadata.isSymlink = false) :
    ∃ location entry, fs.tree.entryAt FileSystem.symlinkLimit path = .ok (location, entry) ∧
      entry.isLink = false := by
  simp only [FileSystem.symlinkMetadata, FileSystem.entryAt, Except.bind_eq_ok_iff,
    Except.mapError_eq_ok_iff, Except.pure_eq_ok_iff, Prod.exists] at h
  obtain ⟨location, entry, hentry, rfl⟩ := h
  refine ⟨location, entry, hentry, ?_⟩
  cases entry <;> simp_all [FileSystem.metadataOf, FileMetadata.isSymlink, FileEntry.isLink]

theorem NoLinkBelow.cons {root relative : FilePath} {name : FileName}
    (hname : ∃ location entry,
      fs.tree.entryAt FileSystem.symlinkLimit (root ++ [name]) = .ok (location, entry) ∧
        entry.isLink = false)
    (h : NoLinkBelow fs (root ++ [name]) relative) : NoLinkBelow fs root (name :: relative) := by
  intro front hne hfront
  cases front with
  | nil => exact absurd rfl hne
  | cons first rest =>
    obtain ⟨rfl, hrest⟩ := List.cons_prefix_cons.1 hfront
    by_cases hempty : rest = []
    · subst hempty
      exact hname
    · obtain ⟨location, entry, hentry, hlink⟩ := h rest hempty hrest
      rw [List.append_assoc, List.singleton_append] at hentry
      exact ⟨location, entry, hentry, hlink⟩

theorem observes_checkNoSymlinkBelowRoot (root relative : FilePath) :
    (checkNoSymlinkBelowRoot root relative).Observes fs
      (OnOk fun _ => NoLinkBelow fs root relative) := by
  induction relative generalizing root with
  | nil =>
    refine observes_pure fun front hne hfront => ?_
    exact absurd (List.prefix_nil.1 hfront) hne
  | cons name rest ih =>
    unfold checkNoSymlinkBelowRoot
    refine observes_query ?_ ?_
    · intro metadata hmetadata
      dsimp only
      split
      · exact observes_error _
      · rename_i hlink
        rw [Bool.not_eq_true] at hlink
        refine (ih (root ++ [name])).mono fun _ hrest => ?_
        exact NoLinkBelow.cons (symlinkMetadata_not_link hmetadata hlink) hrest
    · intro error
      split
      · rename_i hanswer
        cases hanswer
      · exact observes_error _
      · exact observes_error _

/-- What a root and its relative path passed. -/
structure Selected (fs : FileSystem) (allowedRoot : List UInt8) (rootPath relativePath
    canonicalRoot : FilePath) : Prop where
  normalized : normalizeAbsolute allowedRoot = .ok rootPath
  links : NoLinkBelow fs rootPath relativePath
  canonical : fs.canonicalize rootPath = .ok canonicalRoot
  directory : fs.tree.isDirectory canonicalRoot = true
  below : canonicalRoot ≠ []

/-- What is known of a resolved selection. -/
structure SelectionResolved (fs : FileSystem) (selectedPath : FilePath)
    (roots : List (List UInt8)) (resolved : ResolvedSelection) : Prop where
  root : ∃ allowedRoot ∈ roots, Selected fs allowedRoot resolved.rootPath resolved.relativePath
    resolved.canonicalRoot
  path : selectedPath = resolved.rootPath ++ resolved.relativePath
  relative : resolved.relativePath ≠ []
  canonical : fs.canonicalize selectedPath = .ok resolved.canonicalPath

theorem observes_queried {α : Type} {label : FileCall} {query : FileSystem → Except IoError α}
    {P : α → Prop} (h : ∀ a, query fs = .ok a → P a) :
    (queried label query).Observes fs (OnOk P) :=
  observes_query (fun a ha => observes_pure (h a ha)) fun _ => observes_error _

theorem observes_resolveSelectionIn (selectedPath : FilePath) (roots : List (List UInt8)) :
    (resolveSelectionIn selectedPath roots).Observes fs
      (OnOk (SelectionResolved fs selectedPath roots)) := by
  induction roots with
  | nil => exact observes_error _
  | cons allowedRoot roots ih =>
    -- the cases in which this root is passed over
    have hlater : (resolveSelectionIn selectedPath roots).Observes fs
        (OnOk (SelectionResolved fs selectedPath (allowedRoot :: roots))) := by
      refine ih.mono fun resolved h => ?_
      obtain ⟨other, hother, hselected⟩ := h.root
      exact { h with root := ⟨other, List.mem_cons_of_mem _ hother, hselected⟩ }
    unfold resolveSelectionIn
    split
    · exact hlater
    · rename_i rootPath hnormalized
      split
      · exact hlater
      · split
        · exact hlater
        · rename_i relativePath hstrip
          rw [stripRoot_eq_some_iff] at hstrip
          split
          · exact hlater
          · rename_i hrelative
            refine (observes_checkNoSymlinkBelowRoot rootPath relativePath).andThen ?_
            intro _ hlinks
            refine observes_query ?_ ?_
            · intro canonicalRoot hroot
              dsimp only
              refine (observes_queried fun _ h => h).andThen fun rootMetadata hmetadata => ?_
              split
              · exact hlater
              · rename_i hdir
                rw [not_or, Bool.not_eq_false] at hdir
                refine observes_query ?_ ?_
                · intro canonicalPath hpath
                  dsimp only
                  split
                  · exact observes_error _
                  · refine (observes_queried fun _ h => h).andThen fun metadata _ => ?_
                    split
                    · exact observes_error _
                    · refine observes_pure ⟨⟨allowedRoot, List.mem_cons_self, ?_⟩, hstrip,
                        hrelative, hpath⟩
                      exact ⟨hnormalized, hlinks, hroot,
                        isDirectory_of_metadata (canonicalize_real hroot) hmetadata hdir.1, hdir.2⟩
                · intro error
                  split
                  · exact observes_error _
                  · exact observes_error _
                  · rename_i hanswer
                    cases hanswer
            · intro error
              split
              · exact hlater
              · exact observes_error _
              · rename_i hanswer
                cases hanswer

/-! ## Confinement -/

theorem Selected.canonicalRoot {allowedRoot : List UInt8}
    {rootPath relativePath canonicalRoot : FilePath}
    (h : Selected fs allowedRoot rootPath relativePath canonicalRoot) :
    CanonicalRoot fs allowedRoot rootPath canonicalRoot := by
  refine ⟨h.normalized, h.canonical, h.directory, h.below, fun hup => ?_⟩
  obtain ⟨left, hwalk⟩ := canonicalize_eq_ok_iff.1 h.canonical
  rw [normalizeAbsolute_of_no_up hup h.normalized] at hwalk
  rw [realpath, FileTree.walk_of_stepNames hup hwalk h.directory]
  rfl

/-- The canonical path of what was selected is written below the canonical root. -/
theorem Selected.canonicalize {allowedRoot : List UInt8}
    {rootPath relativePath canonicalRoot : FilePath}
    (h : Selected fs allowedRoot rootPath relativePath canonicalRoot) :
    fs.canonicalize (rootPath ++ relativePath) = .ok (canonicalRoot ++ relativePath) := by
  obtain ⟨left, hwalk⟩ := canonicalize_eq_ok_iff.1 h.canonical
  exact canonicalize_eq_ok_iff.2 ⟨left, FileTree.walk_below hwalk h.links⟩

theorem Selected.belowRoot {allowedRoot : List UInt8}
    {rootPath relativePath canonicalRoot : FilePath}
    (h : Selected fs allowedRoot rootPath relativePath canonicalRoot) :
    BelowRoot fs canonicalRoot relativePath := by
  have hreal := canonicalize_real h.canonicalize
  refine ⟨hreal, fun front hne hfront => ?_⟩
  obtain ⟨rest, rfl⟩ := hfront
  rw [← List.append_assoc] at hreal
  obtain ⟨parent, name, rfl⟩ := (List.eq_nil_or_concat' front).resolve_left hne
  have hfront := hreal.front
  rw [← List.append_assoc] at hfront ⊢
  exact (FileTree.realPath_append_singleton.1 hfront).2.2

/-! ## Reading -/

theorem decodeUtf8_eq_some_iff {bytes : List UInt8} {text : String} :
    decodeUtf8 bytes = some text ↔ utf8Bytes text = bytes := by
  have hbytes : text.toByteArray = (utf8Bytes text).toByteArray := by
    rw [← String.utf8Encode_toList]
    rfl
  rw [← List.toByteArray_inj, ← hbytes]
  unfold decodeUtf8 String.fromUTF8?
  split
  · rename_i hvalid
    rw [Option.some.injEq, ← String.toByteArray_inj]
    exact eq_comm
  · rename_i hvalid
    simp only [reduceCtorEq, false_iff]
    intro heq
    exact hvalid (heq ▸ text.isValidUTF8)

variable [Platform]

/-- A snapshot that was read: its content is that of a file below the canonical root. -/
structure ReadConfined (fs : FileSystem) (request : FileReadRequest)
    (snapshot : ValidatedFileSnapshot) : Prop where
  file : ∃ allowedRoot ∈ request.allowedRoots, ∃ selectedPath rootPath relativePath canonicalRoot,
    normalizeAbsolute request.selectedPath = .ok selectedPath ∧
    selectedPath = rootPath ++ relativePath ∧ relativePath ≠ [] ∧
    CanonicalRoot fs allowedRoot rootPath canonicalRoot ∧
    BelowRoot fs canonicalRoot relativePath ∧
    fs.canonicalize selectedPath = .ok (canonicalRoot ++ relativePath) ∧
    ∃ number, fs.tree.lookup (canonicalRoot ++ relativePath) = some (.file number) ∧
      (fs.inode number).bytes = utf8Bytes snapshot.content.asStr

omit [Platform] in
theorem file_of_isFile {entry : FileEntry Nat} (h : (fs.metadataOf entry).isFile = true) :
    ∃ number, entry = .file number := by
  cases entry <;> simp_all [FileSystem.metadataOf, FileMetadata.isFile]

omit [Platform] in
theorem validateSize_eq_ok {size : Nat} (h : validateSize size = .ok ()) :
    0 < size ∧ size ≤ maxFileBytes := by
  unfold validateSize at h
  split at h
  · cases h
  · split at h
    · cases h
    · omega

theorem snapshotOf_content {kind : SourceKind × MediaType} {path : FilePath}
    {bytes : List UInt8} {snapshot : ValidatedFileSnapshot}
    (h : snapshotOf kind path bytes = .ok snapshot) :
    bytes = utf8Bytes snapshot.content.asStr := by
  simp only [snapshotOf, Except.bind_eq_ok_iff, Except.exists_unit_iff, require_eq_ok_iff,
    Option.orError_eq_ok_iff, decodeUtf8_eq_some_iff] at h
  obtain ⟨-, content, rfl, -, h⟩ := h
  split at h
  · rw [Except.pure_eq_ok_iff] at h
    rw [← h]
  · cases h

omit [Platform] in
theorem observes_verifySelectionStable (resolved : ResolvedSelection)
    (expected : FileObservation) :
    (verifySelectionStable resolved expected).Observes fs (OnOk fun _ => True) := by
  unfold verifySelectionStable
  refine (observes_checkNoSymlinkBelowRoot _ _).mapError.andThen fun _ _ => ?_
  refine (observes_queried fun _ h => h).mapError.andThen fun canonicalRoot _ => ?_
  refine (observes_queried fun _ h => h).mapError.andThen fun canonicalPath _ => ?_
  split
  · exact observes_error _
  · refine (observes_queried fun _ h => h).mapError.andThen fun metadata _ => ?_
    split
    · exact observes_error _
    · exact observes_pure trivial

theorem observes_readFileSnapshot (request : FileReadRequest) :
    (readFileSnapshot request).Observes fs (OnOk (ReadConfined fs request)) := by
  unfold readFileSnapshot resolveSelection
  refine Program.Observes.andThen (P := fun resolved => ∃ selectedPath,
      normalizeAbsolute request.selectedPath = .ok selectedPath ∧
        SelectionResolved fs selectedPath request.allowedRoots resolved) ?_ ?_
  · refine (observes_ofExcept fun _ h => h).andThen fun selectedPath hselected => ?_
    exact (observes_resolveSelectionIn selectedPath request.allowedRoots).mono
      fun resolved h => ⟨selectedPath, hselected, h⟩
  · rintro resolved ⟨selectedPath, hselected, hresolved⟩
    obtain ⟨allowedRoot, hroot, hpassed⟩ := hresolved.root
    have hcanonical := hpassed.canonicalize
    rw [← hresolved.path] at hcanonical
    have hpath : resolved.canonicalPath = resolved.canonicalRoot ++ resolved.relativePath :=
      Except.ok.inj (hresolved.canonical.symm.trans hcanonical)
    have hreal : fs.tree.RealPath resolved.canonicalPath := hpath ▸ hpassed.belowRoot.real
    refine (observes_ofExcept fun _ h => h).andThen fun kind _ => ?_
    refine (observes_queried fun _ h => h).andThen fun handle hopen => ?_
    rw [openPath_eq_ok_iff_of_real hreal] at hopen
    refine (observes_queried fun _ h => h).andThen fun beforeMetadata hbefore => ?_
    rw [Except.ok.injEq] at hbefore
    subst hbefore
    split
    · exact observes_error _
    · rename_i hfile
      rw [Bool.not_eq_false] at hfile
      obtain ⟨number, rfl⟩ := file_of_isFile hfile
      refine (observes_ofExcept fun _ h => h).andThen fun _ hsize => ?_
      refine (observes_queried fun _ _ => trivial).andThen fun pathBefore _ => ?_
      split
      · exact observes_error _
      · refine (observes_queried fun _ h => h).andThen fun bytes hread => ?_
        refine (observes_queried fun _ _ => trivial).andThen fun afterMetadata _ => ?_
        dsimp only
        split
        · exact observes_error _
        · refine (observes_verifySelectionStable resolved _).andThen fun _ _ => ?_
          refine observes_ofExcept fun snapshot hsnapshot => ⟨allowedRoot, hroot, selectedPath,
            resolved.rootPath, resolved.relativePath, resolved.canonicalRoot, hselected,
            hresolved.path, hresolved.relative, hpassed.canonicalRoot, hpassed.belowRoot,
            hcanonical, number, hpath ▸ hopen, ?_⟩
          have hlength : (fs.inode number).bytes.length ≤ maxFileBytes :=
            (validateSize_eq_ok hsize).2
          rw [← snapshotOf_content hsnapshot, ← Except.ok.inj hread,
            List.take_of_length_le (hlength.trans (Nat.le_succ _))]

end FileEntry

end RadishMemory
