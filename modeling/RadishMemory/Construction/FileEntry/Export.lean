import RadishMemory.Construction.FileEntry.Selection

/-!
# The file entry: exporting a managed source

The bytes are written to a new temporary file next to the target and read back; the target is
then published as a second entry of the temporary file, which does not replace an existing entry,
read back as well, and the temporary entry is removed.  After a failure the temporary file is
removed if it is still the file that was last observed.

An interrupted call, which the library repeats, is not a fault.
-/

namespace RadishMemory

namespace FileEntry

/-! ## Requests -/

structure FileExportRequest where
  targetPath : List UInt8
  allowedRoots : List (List UInt8)

def FileExportRequest.new (targetPath : List UInt8) (allowedRoots : List (List UInt8)) :
    Except FileEntryError FileExportRequest := do
  require (targetPath ≠ [] ∧ isAbsolutePath targetPath = true ∧ allowedRoots ≠ [] ∧
    0 ∉ targetPath ∧ ∀ root ∈ allowedRoots, 0 ∉ root) FileEntryError.destinationNotAllowed
  return { targetPath, allowedRoots }

structure FileExportReceipt where
  namespaceId : Identifier
  sourceId : Identifier
  lineageId : Identifier
  version : Version
  contentDigest : Digest
  contentLength : Nat
  mediaType : MediaType

def FileExportReceipt.fromSource (params : SourceArtifactParams) : FileExportReceipt :=
  { namespaceId := params.namespaceId
    sourceId := params.sourceId
    lineageId := params.lineageId
    version := params.version
    contentDigest := params.contentDigest
    contentLength := params.contentLength
    mediaType := params.mediaType }

/-! ## The destination -/

structure ResolvedExportDestination where
  rootPath : FilePath
  relativeParent : FilePath
  requestedParent : FilePath
  canonicalRoot : FilePath
  canonicalParent : FilePath
  targetPath : FilePath

/-- Every component below the root is a directory. -/
def checkExportParentComponents (current : FilePath) : FilePath → EntryIo Unit
  | [] => pure ()
  | name :: rest => do
    match ← ioQuery .resolve (·.symlinkMetadata (current ++ [name])) with
    | .ok metadata =>
      if metadata.isSymlink then refuse .destinationNotAllowed
      else if metadata.isDir then checkExportParentComponents (current ++ [name]) rest
      else refuse .destinationNotAllowed
    | .error (.path .notFound) => refuse .destinationNotAllowed
    | .error error => refuse (.io error)

def rejectExistingExportTarget (target : FilePath) : EntryIo Unit := do
  match ← ioQuery .resolve (·.symlinkMetadata target) with
  | .ok metadata =>
    if metadata.isSymlink then refuse .destinationNotAllowed else refuse .destinationExists
  | .error (.path .notFound) => pure ()
  | .error error => refuse (.io error)

def resolveExportDestinationIn (selectedTarget : FilePath) :
    List (List UInt8) → EntryIo ResolvedExportDestination
  | [] => refuse .destinationNotAllowed
  | allowedRoot :: roots =>
    match normalizeAbsolute allowedRoot with
    | .error _ => resolveExportDestinationIn selectedTarget roots
    | .ok rootPath =>
      if rootPath = [] then resolveExportDestinationIn selectedTarget roots
      else
        match stripRoot rootPath selectedTarget with
        | none => resolveExportDestinationIn selectedTarget roots
        | some relativeTarget =>
          match relativeTarget.getLast? with
          | none => resolveExportDestinationIn selectedTarget roots
          | some targetName => do
            let relativeParent := relativeTarget.dropLast
            checkExportParentComponents rootPath relativeParent
            match ← ioQuery .resolve (·.canonicalize rootPath) with
            | .error (.path .notFound) => resolveExportDestinationIn selectedTarget roots
            | .error error => refuse (.io error)
            | .ok canonicalRoot => do
              let rootMetadata ← queried .resolve (·.metadata canonicalRoot)
              if rootMetadata.isDir = false ∨ canonicalRoot = [] then
                resolveExportDestinationIn selectedTarget roots
              else do
                let requestedParent := selectedTarget.dropLast
                match ← ioQuery .resolve (·.canonicalize requestedParent) with
                | .error (.path .notFound) => refuse .destinationNotAllowed
                | .error error => refuse (.io error)
                | .ok canonicalParent => do
                  let parentMetadata ← queried .resolve (·.metadata canonicalParent)
                  if parentMetadata.isDir = false ∨
                      (canonicalParent ≠ canonicalRoot ∧
                        canonicalRoot.isPrefixOf canonicalParent = false) then
                    refuse .destinationNotAllowed
                  else do
                    let targetPath := canonicalParent ++ [targetName]
                    rejectExistingExportTarget targetPath
                    pure { rootPath, relativeParent, requestedParent, canonicalRoot,
                           canonicalParent, targetPath }

def resolveExportDestination (request : FileExportRequest) :
    EntryIo ResolvedExportDestination := do
  let selectedTarget ← Program.ofExcept ((normalizeAbsolute request.targetPath).mapError
    fun _ => FileEntryError.destinationNotAllowed)
  resolveExportDestinationIn selectedTarget request.allowedRoots

def verifyExportDestinationStable (destination : ResolvedExportDestination) : EntryIo Unit := do
  checkExportParentComponents destination.rootPath destination.relativeParent
  let canonicalRoot ← (queried .resolve (·.canonicalize destination.rootPath)).mapError
    fun _ => FileEntryError.destinationNotAllowed
  let canonicalParent ← (queried .resolve (·.canonicalize destination.requestedParent)).mapError
    fun _ => FileEntryError.destinationNotAllowed
  if canonicalRoot ≠ destination.canonicalRoot ∨
      canonicalParent ≠ destination.canonicalParent ∨
      (canonicalParent ≠ canonicalRoot ∧ canonicalRoot.isPrefixOf canonicalParent = false) then
    refuse .destinationNotAllowed
  else rejectExistingExportTarget destination.targetPath

/-! ## The temporary file -/

def exportTempAttempts : Nat :=
  16

/-- The number of the process, and the numbers that its counter gives to the attempts. -/
structure ExportProcess where
  id : Nat
  nextExportTemp : Nat → Nat

def ExportProcess.temporaryName (process : ExportProcess) (attempt : Nat) : FileName :=
  utf8Bytes (".radishmemory-export-" ++ toString process.id ++ "-" ++
    toString (process.nextExportTemp attempt) ++ ".tmp")

def ExportProcess.temporaryNames (process : ExportProcess) : List FileName :=
  (List.range exportTempAttempts).map process.temporaryName

/-- The first name that is free; the last failure is that of a name that is not. -/
def createExportTemporary (parent : FilePath) : List FileName → EntryIo (Nat × FilePath)
  | [] => refuse (.io .alreadyExists)
  | name :: names => do
    match ← ioCall .createTemporary fun time _ fs => fs.createNew time (parent ++ [name]) with
    | .ok inode => pure (inode, parent ++ [name])
    | .error .alreadyExists => createExportTemporary parent names
    | .error error => refuse (.io error)

/-- `write_all`: a write takes at least one byte of the rest.  The first argument is at least the
length of the rest. -/
def writeAll (inode : Nat) : Nat → List UInt8 → EntryIo (Except IoError Unit)
  | 0, _ => pure (.ok ())
  | fuel + 1, bytes =>
    if bytes = [] then pure (.ok ())
    else do
      match ← ioCall .writeTemporary fun time chunk fs =>
          .ok (min (chunk + 1) bytes.length, fs.append time inode (bytes.take (chunk + 1))) with
      | .ok written => writeAll inode fuel (bytes.drop written)
      | .error error => pure (.error error)

/-- Write the bytes and make them durable; flushing a file makes no call. -/
def writeTemporary (inode : Nat) (bytes : List UInt8) : EntryIo (Except IoError Unit) := do
  match ← writeAll inode bytes.length bytes with
  | .ok () => ioQuery .syncTemporary fun _ => .ok ()
  | .error error => pure (.error error)

def writtenObservation (inode : Nat) : EntryIo (Option FileObservation) := do
  match ← ioQuery .writtenMetadata fun fs => .ok (fs.metadataOf (.file inode)) with
  | .ok metadata => pure (some (FileObservation.fromMetadata metadata))
  | .error _ => pure none

/-! ## Verification -/

def verifyPathMatchesOpenFile (path : FilePath) (expected : FileObservation) : EntryIo Unit := do
  let metadata ← queried .resolve (·.symlinkMetadata path)
  if metadata.isSymlink = true ∨ metadata.isFile = false ∨
      FileObservation.fromMetadata metadata ≠ expected then
    refuse .integrityMismatch
  else pure ()

variable [Platform]

def openAndVerifyExactFile (path : FilePath) (expectedBytes : List UInt8)
    (expectedDigest : Digest) : EntryIo (FileEntry Nat × FileObservation) := do
  let pathMetadata ← queried .resolve (·.symlinkMetadata path)
  if pathMetadata.isSymlink = true ∨ pathMetadata.isFile = false then refuse .integrityMismatch
  else do
    let handle ← queried .openFile (·.openPath path)
    let beforeMetadata ← queried .handleMetadata fun fs => .ok (fs.metadataOf handle)
    let before := FileObservation.fromMetadata beforeMetadata
    if beforeMetadata.isFile = false ∨ before.len ≠ expectedBytes.length then
      refuse .integrityMismatch
    else do
      let actualBytes ← queried .readFile (·.readAtMost (maxFileBytes + 1) handle)
      let afterMetadata ← queried .handleMetadata fun fs => .ok (fs.metadataOf handle)
      let after := FileObservation.fromMetadata afterMetadata
      if before ≠ after ∨ actualBytes ≠ expectedBytes ∨
          computeExactBytesDigest actualBytes ≠ expectedDigest then
        refuse .integrityMismatch
      else do
        verifyPathMatchesOpenFile path after
        pure (handle, after)

omit [Platform] in
/-- Remove the temporary file if it is the file that was observed, and report the failure. -/
def cleanupTemporaryAfterFailure {α : Type} (path : FilePath) (expected : Option FileObservation)
    (primary : FileEntryError) : EntryIo α := do
  match ← ioQuery .cleanupMetadata (·.symlinkMetadata path) with
  | .error (.path .notFound) => refuse primary
  | .error error => refuse (.io error)
  | .ok metadata =>
    if expected = none then refuse .integrityMismatch
    else if metadata.isSymlink = true ∨ metadata.isFile = false ∨
        expected ≠ some (FileObservation.fromMetadata metadata) then
      refuse .integrityMismatch
    else
      match ← ioCall .cleanupRemove fun time _ fs => return ((), ← fs.removeFile time path) with
      | .ok () => refuse primary
      | .error error => refuse (.io error)

omit [Platform] in
def removeOwnedTemporary (path : FilePath) (expected : FileObservation) : EntryIo Unit := do
  match ← ioQuery .cleanupMetadata (·.symlinkMetadata path) with
  | .error (.path .notFound) => pure ()
  | .error error => refuse (.io error)
  | .ok metadata =>
    if metadata.isSymlink = true ∨ metadata.isFile = false ∨
        FileObservation.fromMetadata metadata ≠ expected then
      refuse .integrityMismatch
    else
      match ← ioCall .cleanupRemove fun time _ fs => return ((), ← fs.removeFile time path) with
      | .ok () => pure ()
      | .error error => refuse (.io error)

/-! ## The export -/

def publishError : IoError → FileEntryError
  | .alreadyExists => .destinationExists
  | error => .io error

/-- What follows the publication: the target is the temporary file, whose other entry goes. -/
def finishExport (params : SourceArtifactParams) (destination : ResolvedExportDestination)
    (temporaryPath : FilePath) (verifiedTemporary : FileEntry Nat)
    (temporaryObservation : FileObservation) : EntryIo FileExportReceipt := do
  match ← ioQuery .publishedMetadata fun fs => .ok (fs.metadataOf verifiedTemporary) with
  | .error error =>
    cleanupTemporaryAfterFailure temporaryPath (some temporaryObservation) (.io error)
  | .ok metadata => do
    let publishedObservation := FileObservation.fromMetadata metadata
    let targetVerification ← (do
      let (_, targetObservation) ← openAndVerifyExactFile destination.targetPath
        (utf8Bytes params.content.asStr) params.contentDigest
      if targetObservation = publishedObservation then pure ()
      else refuse .integrityMismatch : EntryIo Unit).attempt
    match targetVerification with
    | .error error =>
      cleanupTemporaryAfterFailure temporaryPath (some publishedObservation) error
    | .ok () => do
      removeOwnedTemporary temporaryPath publishedObservation
      pure (FileExportReceipt.fromSource params)

/-- What follows the creation of the temporary file. -/
def publishTemporary (params : SourceArtifactParams) (destination : ResolvedExportDestination)
    (temporary : Nat) (temporaryPath : FilePath) : EntryIo FileExportReceipt := do
  let expectedBytes := utf8Bytes params.content.asStr
  let writeResult ← writeTemporary temporary expectedBytes
  let writtenObservation ← writtenObservation temporary
  match writeResult with
  | .error error => cleanupTemporaryAfterFailure temporaryPath writtenObservation (.io error)
  | .ok () => do
    match ← (openAndVerifyExactFile temporaryPath expectedBytes params.contentDigest).attempt with
    | .error error => cleanupTemporaryAfterFailure temporaryPath writtenObservation error
    | .ok (verifiedTemporary, temporaryObservation) => do
      match ← (verifyExportDestinationStable destination).attempt with
      | .error error =>
        cleanupTemporaryAfterFailure temporaryPath (some temporaryObservation) error
      | .ok () => do
        match ← (verifyPathMatchesOpenFile temporaryPath temporaryObservation).attempt with
        | .error error =>
          cleanupTemporaryAfterFailure temporaryPath (some temporaryObservation) error
        | .ok () => do
          match ← ioCall .publish fun time _ fs =>
              return ((), ← fs.hardLink time temporaryPath destination.targetPath) with
          | .error error =>
            cleanupTemporaryAfterFailure temporaryPath (some temporaryObservation)
              (publishError error)
          | .ok () =>
            finishExport params destination temporaryPath verifiedTemporary temporaryObservation

def exportManagedSource (process : ExportProcess) (source : SourceArtifact)
    (request : FileExportRequest) : EntryIo FileExportReceipt := do
  let params := source.params
  if params.governance.deletionState ≠ .active then refuse .canonicalConflict
  else do
    Program.ofExcept (validateSize params.contentLength)
    let expectedBytes := utf8Bytes params.content.asStr
    if params.contentDigest.profile ≠ .exactBytesV1 ∨
        params.contentLength ≠ expectedBytes.length ∨
        computeExactBytesDigest expectedBytes ≠ params.contentDigest then
      refuse .integrityMismatch
    else do
      let destination ← resolveExportDestination request
      let (temporary, temporaryPath) ← createExportTemporary destination.canonicalParent
        process.temporaryNames
      publishTemporary params destination temporary temporaryPath

end FileEntry

end RadishMemory
