import RadishMemory.Construction.Core.Source
import RadishMemory.Framework.FileSystem

/-!
# The file entry: reading a selected file

A request names one file and the roots it may lie in.  Paths are normalised as text, `..` by
dropping the component before it; below the root no component may be a symbolic link, and the
canonical path must lie below the canonical root.  The bytes are read between two observations of
the file.

Paths are those of Unix: strings of bytes.  A path that was normalised is the list of its names.
-/

namespace RadishMemory

namespace FileEntry

/-! ## Errors -/

inductive FileEntryErrorCode where
  | invalidRequest
  | pathRejected
  | typeRejected
  | contentRejected
  | sourceChanged
  | destinationRejected
  | integrity
  | io
  | conflict
deriving DecidableEq, Repr

inductive FileEntryErrorReason where
  | pathNotAllowed
  | symlinkNotAllowed
  | notRegularFile
  | unsupportedFileType
  | emptyFile
  | fileTooLarge
  | invalidUtf8
  | nulByteNotAllowed
  | sourceChangedDuringCapture
  | destinationNotAllowed
  | destinationExists
  | integrityMismatch
  | ioFailure
  | canonicalConflict
deriving DecidableEq, Repr

structure FileEntryError where
  code : FileEntryErrorCode
  reason : FileEntryErrorReason
  retryable : Bool
  source : Option IoError
deriving DecidableEq, Repr

namespace FileEntryError

def withoutSource (code : FileEntryErrorCode) (reason : FileEntryErrorReason)
    (retryable : Bool) : FileEntryError :=
  { code, reason, retryable, source := none }

def pathNotAllowed : FileEntryError :=
  withoutSource .pathRejected .pathNotAllowed false

def symlinkNotAllowed : FileEntryError :=
  withoutSource .pathRejected .symlinkNotAllowed false

def notRegularFile : FileEntryError :=
  withoutSource .pathRejected .notRegularFile false

def unsupportedFileType : FileEntryError :=
  withoutSource .typeRejected .unsupportedFileType false

def emptyFile : FileEntryError :=
  withoutSource .contentRejected .emptyFile false

def fileTooLarge : FileEntryError :=
  withoutSource .contentRejected .fileTooLarge false

def invalidUtf8 : FileEntryError :=
  withoutSource .contentRejected .invalidUtf8 false

def nulByteNotAllowed : FileEntryError :=
  withoutSource .contentRejected .nulByteNotAllowed false

def sourceChanged : FileEntryError :=
  withoutSource .sourceChanged .sourceChangedDuringCapture true

def destinationNotAllowed : FileEntryError :=
  withoutSource .destinationRejected .destinationNotAllowed false

def destinationExists : FileEntryError :=
  withoutSource .destinationRejected .destinationExists false

def integrityMismatch : FileEntryError :=
  withoutSource .integrity .integrityMismatch false

def canonicalConflict : FileEntryError :=
  withoutSource .conflict .canonicalConflict false

/-- `Interrupted`, `WouldBlock`, `TimedOut` and `OutOfMemory`, by their numbers. -/
def io (source : IoError) : FileEntryError :=
  { code := .io
    reason := .ioFailure
    retryable := match source with
      | .fault code => decide (code ∈ [4, 11, 110, 12])
      | _ => false
    source := some source }

end FileEntryError

/-! ## Calls -/

/-- What a call is made for. -/
inductive FileCall where
  | resolve
  | openFile
  | handleMetadata
  | readFile
  | createTemporary
  | writeTemporary
  | syncTemporary
  | writtenMetadata
  | publish
  | publishedMetadata
  | cleanupMetadata
  | cleanupRemove
deriving DecidableEq, Repr

abbrev EntryIo (α : Type) :=
  FileIo FileCall FileEntryError α

def refuse {α : Type} (error : FileEntryError) : EntryIo α :=
  .done (.error error)

/-- A query whose failure is an I/O failure of the entry. -/
def queried {α : Type} (label : FileCall) (query : FileSystem → Except IoError α) : EntryIo α := do
  match ← ioQuery label query with
  | .ok a => pure a
  | .error error => refuse (.io error)

def maxFileBytes : Nat :=
  8 * 1024 * 1024

/-! ## Paths -/

/-- `.` and repeated separators go, and `..` removes the component before it, as text. -/
def normalizeStep (normalized : FilePath) : PathStep → Except FileEntryError FilePath
  | .name name => .ok (normalized ++ [name])
  | .stay => .ok normalized
  | .up => if normalized = [] then .error .pathNotAllowed else .ok normalized.dropLast

def normalizeAbsolute (path : List UInt8) : Except FileEntryError FilePath := do
  require (isAbsolutePath path = true) FileEntryError.pathNotAllowed
  (pathSteps path).foldlM normalizeStep []

/-- `strip_prefix`, by whole components. -/
def stripRoot (root path : FilePath) : Option FilePath :=
  if root.isPrefixOf path then some (path.drop root.length) else none

/-- The components of a relative path are names, since it is a part of a normalised one. -/
def checkNoSymlinkBelowRoot (current : FilePath) : FilePath → EntryIo Unit
  | [] => pure ()
  | name :: rest => do
    match ← ioQuery .resolve (·.symlinkMetadata (current ++ [name])) with
    | .ok metadata =>
      if metadata.isSymlink then refuse .symlinkNotAllowed
      else checkNoSymlinkBelowRoot (current ++ [name]) rest
    | .error (.path .notFound) => refuse .pathNotAllowed
    | .error error => refuse (.io error)

/-! ## Selections -/

structure FileReadRequest where
  selectedPath : List UInt8
  allowedRoots : List (List UInt8)

def FileReadRequest.new (selectedPath : List UInt8) (allowedRoots : List (List UInt8)) :
    Except FileEntryError FileReadRequest := do
  require (selectedPath ≠ [] ∧ allowedRoots ≠ [] ∧ 0 ∉ selectedPath ∧
    ∀ root ∈ allowedRoots, 0 ∉ root) FileEntryError.pathNotAllowed
  return { selectedPath, allowedRoots }

structure ResolvedSelection where
  selectedPath : FilePath
  rootPath : FilePath
  relativePath : FilePath
  canonicalPath : FilePath
  canonicalRoot : FilePath

/-- The roots that remain to be tried. -/
def resolveSelectionIn (selectedPath : FilePath) : List (List UInt8) → EntryIo ResolvedSelection
  | [] => refuse .pathNotAllowed
  | allowedRoot :: roots =>
    match normalizeAbsolute allowedRoot with
    | .error _ => resolveSelectionIn selectedPath roots
    | .ok rootPath =>
      if rootPath = [] then resolveSelectionIn selectedPath roots
      else
        match stripRoot rootPath selectedPath with
        | none => resolveSelectionIn selectedPath roots
        | some relativePath =>
          if relativePath = [] then resolveSelectionIn selectedPath roots
          else do
            checkNoSymlinkBelowRoot rootPath relativePath
            match ← ioQuery .resolve (·.canonicalize rootPath) with
            | .error (.path .notFound) => resolveSelectionIn selectedPath roots
            | .error error => refuse (.io error)
            | .ok canonicalRoot => do
              let rootMetadata ← queried .resolve (·.metadata canonicalRoot)
              if rootMetadata.isDir = false ∨ canonicalRoot = [] then
                resolveSelectionIn selectedPath roots
              else
                match ← ioQuery .resolve (·.canonicalize selectedPath) with
                | .error (.path .notFound) => refuse .pathNotAllowed
                | .error error => refuse (.io error)
                | .ok canonicalPath => do
                  if canonicalPath = canonicalRoot ∨
                      canonicalRoot.isPrefixOf canonicalPath = false then
                    refuse .pathNotAllowed
                  else do
                    let metadata ← queried .resolve (·.metadata canonicalPath)
                    if metadata.isFile = false then refuse .notRegularFile
                    else
                      pure { selectedPath, rootPath, relativePath, canonicalPath, canonicalRoot }

def resolveSelection (request : FileReadRequest) : EntryIo ResolvedSelection := do
  let selectedPath ← Program.ofExcept (normalizeAbsolute request.selectedPath)
  resolveSelectionIn selectedPath request.allowedRoots

/-! ## Observations -/

/-- The inode is that of a file; nothing else is compared with one. -/
structure FileObservation where
  len : Nat
  inode : Option Nat
  modified : Nat
  changed : Nat
deriving DecidableEq

def FileObservation.fromMetadata : FileMetadata → FileObservation
  | .file inode data =>
    { len := data.bytes.length, inode, modified := data.modified, changed := data.changed }
  | _ => { len := 0, inode := none, modified := 0, changed := 0 }

def validateSize (size : Nat) : Except FileEntryError Unit :=
  if size = 0 then .error .emptyFile
  else if maxFileBytes < size then .error .fileTooLarge
  else .ok ()

/-- The part of a file name after its last dot, when something stands before the dot. -/
def extension (name : FileName) : Option (List UInt8) :=
  let before := (name.reverse.dropWhile (· ≠ 46)).drop 1
  if before = [] then none else some (name.reverse.takeWhile (· ≠ 46)).reverse

def toAsciiLowercase (byte : UInt8) : UInt8 :=
  if 65 ≤ byte ∧ byte ≤ 90 then byte + 32 else byte

def classifyFile (path : FilePath) : Except FileEntryError (SourceKind × MediaType) := do
  let extension ← (path.getLast?.bind extension).orError FileEntryError.unsupportedFileType
  let lowercase := extension.map toAsciiLowercase
  if lowercase = utf8Bytes "txt" then return (.text, .textPlain)
  else if lowercase = utf8Bytes "md" then return (.markdown, .textMarkdown)
  else .error .unsupportedFileType

/-- The path still leads to the file that was read. -/
def verifySelectionStable (resolved : ResolvedSelection) (expected : FileObservation) :
    EntryIo Unit := do
  (checkNoSymlinkBelowRoot resolved.rootPath resolved.relativePath).mapError
    fun _ => FileEntryError.sourceChanged
  let canonicalRoot ← (queried .resolve (·.canonicalize resolved.rootPath)).mapError
    fun _ => FileEntryError.sourceChanged
  let canonicalPath ← (queried .resolve (·.canonicalize resolved.selectedPath)).mapError
    fun _ => FileEntryError.sourceChanged
  if canonicalRoot ≠ resolved.canonicalRoot ∨ canonicalPath ≠ resolved.canonicalPath ∨
      canonicalRoot.isPrefixOf canonicalPath = false then
    refuse .sourceChanged
  else do
    let metadata ← (queried .resolve (·.symlinkMetadata resolved.selectedPath)).mapError
      fun _ => FileEntryError.sourceChanged
    if metadata.isSymlink = true ∨ metadata.isFile = false ∨
        FileObservation.fromMetadata metadata ≠ expected then
      refuse .sourceChanged
    else pure ()

/-! ## Snapshots -/

structure ValidatedFileSnapshot where
  sourceKind : SourceKind
  mediaType : MediaType
  content : NonEmptyText
  contentLength : Nat
  contentDigest : Digest
  title : Option NonEmptyText

def decodeUtf8 (bytes : List UInt8) : Option String :=
  String.fromUTF8? bytes.toByteArray

def titleOf (path : FilePath) : Option NonEmptyText := do
  let name ← path.getLast?
  let text ← decodeUtf8 name
  if h : text ≠ "" then some ⟨text, h⟩ else none

variable [Platform]

/-- What is made of the bytes that were read. -/
def snapshotOf (kind : SourceKind × MediaType) (canonicalPath : FilePath) (bytes : List UInt8) :
    Except FileEntryError ValidatedFileSnapshot := do
  validateSize bytes.length
  let content ← (decodeUtf8 bytes).orError FileEntryError.invalidUtf8
  require (0 ∉ utf8Bytes content) FileEntryError.nulByteNotAllowed
  if h : content ≠ "" then
    return {
      sourceKind := kind.1
      mediaType := kind.2
      content := ⟨content, h⟩
      contentLength := bytes.length
      contentDigest := computeExactBytesDigest (utf8Bytes content)
      title := titleOf canonicalPath }
  else .error .integrityMismatch

def readFileSnapshot (request : FileReadRequest) : EntryIo ValidatedFileSnapshot := do
  let resolved ← resolveSelection request
  let kind ← Program.ofExcept (classifyFile resolved.canonicalPath)
  let handle ← queried .openFile (·.openPath resolved.canonicalPath)
  let beforeMetadata ← queried .handleMetadata fun fs => .ok (fs.metadataOf handle)
  if beforeMetadata.isFile = false then refuse .notRegularFile
  else do
    let before := FileObservation.fromMetadata beforeMetadata
    Program.ofExcept (validateSize before.len)
    let pathBefore ← queried .resolve (·.metadata resolved.canonicalPath)
    if before ≠ FileObservation.fromMetadata pathBefore then refuse .sourceChanged
    else do
      let bytes ← queried .readFile (·.readAtMost (maxFileBytes + 1) handle)
      let afterMetadata ← queried .handleMetadata fun fs => .ok (fs.metadataOf handle)
      let after := FileObservation.fromMetadata afterMetadata
      if before ≠ after then refuse .sourceChanged
      else do
        verifySelectionStable resolved after
        Program.ofExcept (snapshotOf kind resolved.canonicalPath bytes)

end FileEntry

end RadishMemory
