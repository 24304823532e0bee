import RadishMemory.Construction.Desktop.Backend
import RadishMemory.Construction.FileEntry.Selection
import RadishMemory.Framework.Processes

/-!
# The host profile

A call of `load_or_create_host_profile` makes one file operation after the other on the data
directory of the application.  Other calls may act between two operations, a process may stop
before any of them, and any operation may fail.  New entries are created exclusively: neither
`create_new` nor a hard link replaces what is there.
-/

namespace RadishMemory
namespace Desktop

/-! ## The data directory -/

inductive HostEntry where
  | file (inode : Nat)
  | directory
  /-- A symbolic link or a special file. -/
  | other
deriving DecidableEq

inductive IoErrorKind where
  | notFound
  | alreadyExists
  | interrupted
  | invalidData
  | other
deriving DecidableEq, Repr

/-- A reason of an operation to fail that does not lie in the directory. -/
inductive IoFault where
  | interrupted
  | other
deriving DecidableEq, Repr

/-- The data directory and the files in it.  The surroundings decide whether the next operation
fails and how many bytes, less one, it transfers. -/
structure HostDirectory where
  root : Option HostEntry
  entry : String → Option HostEntry
  contents : List (List UInt8)
  fault : Option IoFault
  chunk : Nat
  rooted : ∀ name, entry name ≠ none → root = some .directory
  named : ∀ name inode, entry name = some (.file inode) → inode < contents.length

/-- What `symlink_metadata` tells of an entry. -/
inductive HostMetadata where
  | file (len : Nat)
  | directory
  | other
deriving DecidableEq, Repr

namespace HostDirectory

def content (s : HostDirectory) (inode : Nat) : List UInt8 :=
  s.contents.getD inode []

def metadataOf (s : HostDirectory) : HostEntry → HostMetadata
  | .file inode => .file (s.content inode).length
  | .directory => .directory
  | .other => .other

/-! ### Changes -/

def withEntry (s : HostDirectory) (name : String) (entry : HostEntry)
    (hroot : s.root = some .directory)
    (hnamed : ∀ inode, entry = .file inode → inode < s.contents.length) : HostDirectory :=
  { s with
    entry := Function.update s.entry name (some entry)
    rooted := fun _ _ => hroot
    named := by
      intro other inode hfile
      rw [Function.update_apply] at hfile
      split at hfile
      · exact hnamed inode (Option.some.inj hfile)
      · exact s.named other inode hfile }

def withoutEntry (s : HostDirectory) (name : String) : HostDirectory :=
  { s with
    entry := Function.update s.entry name none
    rooted := by
      intro other hentry
      rw [Function.update_apply] at hentry
      split at hentry
      · exact absurd rfl hentry
      · exact s.rooted other hentry
    named := by
      intro other inode hfile
      rw [Function.update_apply] at hfile
      split at hfile
      · cases hfile
      · exact s.named other inode hfile }

def withInode (s : HostDirectory) (bytes : List UInt8) : HostDirectory :=
  { s with
    contents := s.contents ++ [bytes]
    named := by
      intro name inode hfile
      rw [List.length_append]
      exact (s.named name inode hfile).trans_le (Nat.le_add_right _ _) }

/-- A file with a new inode. -/
def withFile (s : HostDirectory) (name : String) (bytes : List UInt8)
    (hroot : s.root = some .directory) : HostDirectory :=
  (s.withInode bytes).withEntry name (.file s.contents.length) hroot (by
    rintro _ ⟨⟩
    simp [withInode])

def append (s : HostDirectory) (inode : Nat) (bytes : List UInt8) : HostDirectory :=
  { s with
    contents := s.contents.modify inode (· ++ bytes)
    named := by
      intro name number hfile
      rw [List.length_modify]
      exact s.named name number hfile }

/-! ### File operations -/

/-- What an operation reports. -/
def answer {α : Type} (s : HostDirectory) (result : Except IoErrorKind α) :
    Except IoErrorKind α :=
  match s.fault with
  | none => result
  | some .interrupted => .error .interrupted
  | some .other => .error .other

/-- What a read or a write reports; it is repeated when it is interrupted. -/
def transfer {α : Type} (s : HostDirectory) (result : Except IoErrorKind α) :
    Except IoErrorKind α :=
  match s.fault with
  | some .other => .error .other
  | _ => result

def rootMetadata (s : HostDirectory) : Except IoErrorKind HostMetadata := do
  let root ← s.root.orError IoErrorKind.notFound
  return s.metadataOf root

/-- What is there and is not a directory stays. -/
def createDirAll (s : HostDirectory) : Except IoErrorKind (Unit × HostDirectory) :=
  match s.root with
  | none =>
    .ok ((), { s with root := some .directory, rooted := fun _ _ => rfl })
  | some .directory => .ok ((), s)
  | some _ => .error .alreadyExists

def symlinkMetadata (s : HostDirectory) (name : String) : Except IoErrorKind HostMetadata := do
  let entry ← (s.entry name).orError IoErrorKind.notFound
  return s.metadataOf entry

/-- A link is not followed: no caller opens one. -/
def openFile (s : HostDirectory) (name : String) : Except IoErrorKind HostEntry := do
  let entry ← (s.entry name).orError IoErrorKind.notFound
  require (entry ≠ .other) IoErrorKind.other
  return entry

def createNew (s : HostDirectory) (name : String) : Except IoErrorKind (Nat × HostDirectory) :=
  if hroot : s.root = some .directory then
    match s.entry name with
    | none => .ok (s.contents.length, s.withFile name [] hroot)
    | some _ => .error .alreadyExists
  else .error .notFound

/-- The next bytes of an open file: at most `limit`, at least one unless the file ends. -/
def readAt (s : HostDirectory) (handle : HostEntry) (offset limit : Nat) :
    Except IoErrorKind (List UInt8) :=
  match handle with
  | .file inode => .ok (((s.content inode).drop offset).take (min limit (s.chunk + 1)))
  | _ => .error .other

/-- Append the first bytes to an open file: at least one, if there are any. -/
def write (s : HostDirectory) (inode : Nat) (bytes : List UInt8) :
    Except IoErrorKind (Nat × HostDirectory) :=
  .ok (min bytes.length (s.chunk + 1), s.append inode (bytes.take (s.chunk + 1)))

/-- A second name for a file; an entry that is there is not replaced. -/
def hardLink (s : HostDirectory) (original target : String) :
    Except IoErrorKind (Unit × HostDirectory) :=
  match h : s.entry original with
  | none => .error .notFound
  | some .directory => .error .other
  | some entry =>
    match s.entry target with
    | some _ => .error .alreadyExists
    | none => .ok ((), s.withEntry target entry (s.rooted original (by simp [h])) (by
        rintro inode rfl
        exact s.named original inode h))

def removeFile (s : HostDirectory) (name : String) : Except IoErrorKind (Unit × HostDirectory) :=
  match s.entry name with
  | none => .error .notFound
  | some .directory => .error .other
  | some _ => .ok ((), s.withoutEntry name)

end HostDirectory

/-! ## Programs -/

section Programs

variable {ι α : Type}

abbrev FileCall (ι α : Type) :=
  Program (Actor ι) HostDirectory IoErrorKind α

def hostQuery (i : ι) (query : HostDirectory → Except IoErrorKind α) : FileCall ι α :=
  .read (.process i) fun s => s.answer (query s)

def hostChange (i : ι) (change : HostDirectory → Except IoErrorKind (α × HostDirectory)) :
    FileCall ι α :=
  .transact (.process i) fun s => s.answer (change s)

/-- An operation that changes nothing that is modelled, on a file that is open. -/
def hostSync (i : ι) : FileCall ι Unit :=
  hostQuery i fun _ => .ok ()

def profileMaxBytes : Nat :=
  512

/-- `read_to_end`, at most `limit` bytes.  The fuel is at least what is left of the limit: every
read that does not find the end takes a byte. -/
def readToEnd (i : ι) (handle : HostEntry) (limit : Nat) :
    Nat → List UInt8 → FileCall ι (List UInt8)
  | 0, bytes => pure bytes
  | fuel + 1, bytes =>
    if limit ≤ bytes.length then pure bytes
    else do
      let chunk ← Program.read (.process i) fun s =>
        s.transfer (s.readAt handle bytes.length (limit - bytes.length))
      if chunk = [] then pure bytes else readToEnd i handle limit fuel (bytes ++ chunk)

def readBoundedFile (i : ι) (name : String) : FileCall ι (List UInt8) := do
  match ← hostQuery i (·.symlinkMetadata name) with
  | .file len =>
    if profileMaxBytes < len then .ofExcept (.error .invalidData)
    else do
      let handle ← hostQuery i (·.openFile name)
      let bytes ← readToEnd i handle (profileMaxBytes + 1) (profileMaxBytes + 1) []
      if profileMaxBytes < bytes.length then .ofExcept (.error .invalidData) else pure bytes
  | _ => .ofExcept (.error .invalidData)

/-- `write_all`: a write takes at least one byte of the rest.  The fuel is at least the length of
the rest. -/
def writeAllTo (i : ι) (inode : Nat) : Nat → List UInt8 → FileCall ι Unit
  | 0, _ => pure ()
  | fuel + 1, bytes =>
    if bytes = [] then pure ()
    else do
      let written ← Program.transact (.process i) fun s => s.transfer (s.write inode bytes)
      writeAllTo i inode fuel (bytes.drop written)

end Programs

/-! ## The profile file -/

def hostProfileContractId : String :=
  "radishmemory.phase1-host-profile/1"

def profilePath : String :=
  "host-profile-v1.txt"

def databasePath : String :=
  "library.sqlite3"

def temporaryPath (namespaceId : Identifier) : String :=
  ".host-profile-" ++ namespaceId.asStr ++ ".tmp"

def isLowerHexDigit (c : Char) : Bool :=
  ('0' ≤ c && c ≤ '9') || ('a' ≤ c && c ≤ 'f')

/-- The length and the digits are counted in bytes, which are the characters here. -/
def validProfileIdentifierValue (value : List Char) (start : String) : Bool :=
  (value.dropPrefix? start.toList).any fun suffix =>
    suffix.length == 32 && suffix.all isLowerHexDigit

def validProfileIdentifier (identifier : Identifier) (start : String) : Bool :=
  validProfileIdentifierValue identifier.asStr.toList start

def encodeProfile (profile : HostProfile) : List UInt8 :=
  utf8Bytes ("contract_id=" ++ hostProfileContractId ++ "\nnamespace_id=" ++
    profile.namespaceId.asStr ++ "\ndevice_id=" ++ profile.deviceId.asStr ++ "\n")

def parseProfile (bytes : List UInt8) : Option HostProfile := do
  let value ← FileEntry.decodeUtf8 bytes
  match value.toList.splitOn '\n' with
  | [contractLine, namespaceLine, deviceLine, []] =>
    let contract ← contractLine.dropPrefix? "contract_id=".toList
    let namespaceId ← namespaceLine.dropPrefix? "namespace_id=".toList
    let deviceId ← deviceLine.dropPrefix? "device_id=".toList
    if contract ≠ hostProfileContractId.toList ∨
        validProfileIdentifierValue namespaceId "namespace-" = false ∨
        validProfileIdentifierValue deviceId "device-" = false then none
    else
      return {
        namespaceId := ← (Identifier.new (String.ofList namespaceId)).toOption
        deviceId := ← (Identifier.new (String.ofList deviceId)).toOption }
  | _ => none

/-! ## The calls -/

section Calls

/-- How a call ends without a profile. -/
inductive HostFailure where
  | error (error : DesktopError)
  /-- The process has stopped before it returned. -/
  | crashed
deriving DecidableEq, Repr

variable {ι : Type}

abbrev HostCall (ι α : Type) :=
  Program (Actor ι) HostDirectory HostFailure α

/-- `DesktopError::io` -/
def ioFailure (code : DesktopErrorCode) (reason : DesktopErrorReason) (source : IoErrorKind) :
    HostFailure :=
  .error (.withoutSource code reason (source == .interrupted))

def hostFailure (code : DesktopErrorCode) (reason : DesktopErrorReason) (retryable : Bool) :
    HostFailure :=
  .error (.withoutSource code reason retryable)

def refuseCall {α : Type} (error : HostFailure) : HostCall ι α :=
  .ofExcept (.error error)

def identityGenerationFailed : HostFailure :=
  hostFailure .runtime .identityGenerationFailed true

def dataDirectoryInvalid : HostFailure :=
  hostFailure .applicationDirectory .dataDirectoryInvalid false

/-- What the runtime generates for one call. -/
structure HostRuntime where
  namespaceId : Option Identifier
  deviceId : Option Identifier

/-! ### The paths -/

def databaseExists (i : ι) : HostCall ι Bool := do
  match ← (hostQuery i (·.symlinkMetadata databasePath)).caught with
  | .ok (.file _) => pure true
  | .ok _ => refuseCall (hostFailure .applicationDirectory .databasePathInvalid false)
  | .error .notFound => pure false
  | .error source => refuseCall (ioFailure .applicationDirectory .databasePathInvalid source)

/-- The first half of `prepare`: the directory is there. -/
def ensureDirectory (i : ι) : HostCall ι Unit := do
  match ← (hostQuery i (·.rootMetadata)).caught with
  | .ok .directory => pure ()
  | .ok _ => refuseCall dataDirectoryInvalid
  | .error .notFound =>
    (hostChange i (·.createDirAll)).mapError
      (ioFailure .applicationDirectory .dataDirectoryCreateFailed)
  | .error source => refuseCall (ioFailure .applicationDirectory .dataDirectoryInvalid source)

def checkDirectory (i : ι) : HostCall ι Unit := do
  match ← (hostQuery i (·.rootMetadata)).mapError
      (ioFailure .applicationDirectory .dataDirectoryInvalid) with
  | .directory => pure ()
  | _ => refuseCall dataDirectoryInvalid

def setOwnerOnlyDirectory (i : ι) : HostCall ι Unit :=
  (hostSync i).mapError (ioFailure .applicationDirectory .dataDirectoryCreateFailed)

def prepare (i : ι) : HostCall ι Unit := do
  ensureDirectory i
  checkDirectory i
  setOwnerOnlyDirectory i
  let _ ← databaseExists i
  return ()

/-! ### Loading and publishing -/

def loadProfile (i : ι) : HostCall ι HostProfile := do
  let bytes ← (readBoundedFile i profilePath).mapError (ioFailure .hostProfile .profileReadFailed)
  .ofExcept ((parseProfile bytes).orError (hostFailure .hostProfile .profileInvalid false))

inductive PublishError where
  | alreadyExists
  | io (source : IoErrorKind)
  | verification
deriving DecidableEq, Repr

def PublishError.ofLink : IoErrorKind → PublishError
  | .alreadyExists => .alreadyExists
  | source => .io source

/-- `sync_parent`: the directory is opened and synchronized. -/
def syncParent (i : ι) : FileCall ι Unit := do
  hostSync i
  hostSync i

/-- The new file: its owner alone may use it, and its bytes are durable. -/
def writeTemporaryFile (i : ι) (temporary : String) (bytes : List UInt8) : FileCall ι Unit := do
  let inode ← hostChange i (·.createNew temporary)
  hostSync i
  writeAllTo i inode bytes.length bytes
  hostSync i

def publishProfile (i : ι) (temporary : String) (bytes : List UInt8) :
    Program (Actor ι) HostDirectory PublishError Unit := do
  (writeTemporaryFile i temporary bytes).mapError .io
  let written ← (readBoundedFile i temporary).mapError .io
  if written ≠ bytes then .ofExcept (.error .verification)
  else do
    (hostChange i (·.hardLink temporary profilePath)).mapError .ofLink
    (syncParent i).mapError .io
    let published ← (readBoundedFile i profilePath).mapError .io
    if published ≠ bytes then .ofExcept (.error .verification) else pure ()

def generateProfile (runtime : HostRuntime) : Except HostFailure HostProfile := do
  let namespaceId ← runtime.namespaceId.orError identityGenerationFailed
  let deviceId ← runtime.deviceId.orError identityGenerationFailed
  require (validProfileIdentifier namespaceId "namespace-" = true ∧
    validProfileIdentifier deviceId "device-" = true) identityGenerationFailed
  return { namespaceId, deviceId }

/-- What `create_profile` returns after the temporary file is gone. -/
def reportPublished (i : ι) (profile : HostProfile) :
    Except PublishError Unit → HostCall ι HostProfile
  | .ok () => pure profile
  | .error .alreadyExists => loadProfile i
  | .error (.io source) => refuseCall (ioFailure .hostProfile .profileWriteFailed source)
  | .error .verification => refuseCall (hostFailure .hostProfile .profileWriteFailed false)

def createProfile (i : ι) (runtime : HostRuntime) : HostCall ι HostProfile := do
  let profile ← .ofExcept (generateProfile runtime)
  let temporary := temporaryPath profile.namespaceId
  let publishResult ← (publishProfile i temporary (encodeProfile profile)).caught
  match ← (hostChange i (·.removeFile temporary)).caught with
  | .ok () => reportPublished i profile publishResult
  | .error source =>
    if source ≠ .notFound ∧ publishResult.isOk = true then
      refuseCall (ioFailure .hostProfile .profileWriteFailed source)
    else reportPublished i profile publishResult

def loadOrCreateHostProfile (i : ι) (runtime : HostRuntime) : HostCall ι HostProfile := do
  prepare i
  let databasePresent ← databaseExists i
  match ← (hostQuery i (·.symlinkMetadata profilePath)).caught with
  | .ok (.file _) => loadProfile i
  | .ok _ => refuseCall (hostFailure .hostProfile .profileInvalid false)
  | .error .notFound =>
    if databasePresent = true then
      refuseCall (hostFailure .hostProfile .profileMissingForExistingDatabase false)
    else createProfile i runtime
  | .error source => refuseCall (ioFailure .hostProfile .profileReadFailed source)

end Calls

/-! ## Any number of calls -/

/-- The bytes of the published file, if there is one. -/
def HostDirectory.profileBytes (s : HostDirectory) : Option (List UInt8) :=
  match s.entry profilePath with
  | some (.file inode) => some (s.content inode)
  | _ => none

/-- The surroundings decide anew what the next operation meets. -/
inductive HostWeather : HostDirectory → HostDirectory → Prop
  | change (s : HostDirectory) (fault : Option IoFault) (chunk : Nat) :
      HostWeather s { s with fault := fault, chunk := chunk }

variable {ι : Type} [DecidableEq ι]

abbrev HostProcesses (ι : Type) :=
  Processes ι HostDirectory HostFailure HostProfile

omit [DecidableEq ι] in
/-- Every process is about to make its call. -/
def hostProcesses (runtime : ι → HostRuntime) (store : HostDirectory) : HostProcesses ι :=
  { store := store
    process := fun i => loadOrCreateHostProfile i (runtime i) }

/-- A file operation, a crash or a change of the surroundings; or a process whose call has returned
a profile creates the database file, which has a new inode. -/
inductive HostStep : HostProcesses ι → HostProcesses ι → Prop
  | step (s s' : HostProcesses ι)
      (h : Processes.Step (fun _ store => store) .crashed HostWeather s s') : HostStep s s'
  | createDatabase (s : HostProcesses ι) (i : ι) (profile : HostProfile) (bytes : List UInt8)
      (hreturned : s.process i = .done (.ok profile))
      (habsent : s.store.entry databasePath = none)
      (hroot : s.store.root = some .directory) :
      HostStep s { s with store := s.store.withFile databasePath bytes hroot }

end Desktop
end RadishMemory
