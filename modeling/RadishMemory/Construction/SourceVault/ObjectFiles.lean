import RadishMemory.Construction.SourceVault.Envelope
import RadishMemory.Framework.DurableFiles

/-!
# The files of encrypted objects

An object is published through a staging file: it is written and synced there, read back and
authenticated, and gets its final name by a hard link; the staging name goes last.  Recovery
finishes what an interrupted publication has begun, and retirement removes exactly the two names
of an attempt.

A program is a sequence of calls of the file system, and each is an access of its own, so that it
may be the last one.  A file is written byte by byte for the same reason.  The directories are
private to the vault: the identity of a directory and the modification time of a file, which a
stranger could change, are not modelled.
-/

namespace RadishMemory

/-! ## Errors -/

/-- The codes of the vault, and those that only its files have. -/
inductive ObjectErrorCode where
  | vault (code : SourceVaultErrorCode)
  | invalidLocator
  | objectExists
  | objectMissing
  | invalidFile
deriving DecidableEq, Repr

inductive ObjectError where
  | panicked
  | returned (code : ObjectErrorCode) (reason : String)
deriving DecidableEq, Repr

namespace ObjectError

def ofFault : Fault → ObjectError
  | .panicked => .panicked
  | .returned error => .returned (.vault error.code) error.reason

/-- `SourceVaultError::io` -/
def io (reason : String) : ObjectError :=
  .returned (.vault .io) reason

def changed : ObjectError :=
  .returned (.vault .filesystemChanged) "filesystem identity or content changed"

def objectExists : ObjectError :=
  .returned .objectExists "object or staging target already exists"

def missing : ObjectError :=
  .returned .objectMissing "object is missing"

def unbounded : ObjectError :=
  .returned .invalidFile "object must be a bounded regular file"

def otherSource : ObjectError :=
  .returned .invalidLocator "object locator does not match expected source"

def invalidToken : ObjectError :=
  .returned .invalidLocator "invalid private object or attempt token"

def otherAttempt : ObjectError :=
  .returned (.vault .attemptMismatch) "authenticated object belongs to a different attempt"

def unknownEntry : ObjectError :=
  .returned (.vault .attemptMismatch) "unrecognized or ambiguous migration inventory"

def requiredMissing : ObjectError :=
  .returned .objectMissing "required object missing"

end ObjectError

/-! ## Tokens -/

/-- `from_token` of a locator and of an attempt. -/
def validateToken (token : String) : Except ObjectError Sha256Hex :=
  if h : isSha256Hex token = true then .ok ⟨token, h⟩ else .error .invalidToken

structure ObjectLocator where
  token : Sha256Hex
deriving DecidableEq

structure AttemptId where
  token : Sha256Hex
deriving DecidableEq

section Tokens

variable [Platform]

def locatorPrefix : List UInt8 :=
  utf8Bytes "radishmemory.object-locator/1\x00"

def attemptPrefix : List UInt8 :=
  utf8Bytes "radishmemory.object-attempt/1\x00"

/-- A value after its length in four bytes. -/
def lengthPrefixed (value : List UInt8) : List UInt8 :=
  bigEndian 4 value.length ++ value

def ObjectLocator.forMetadata (metadata : ObjectMetadata) : ObjectLocator where
  token := Platform.sha256 <| locatorPrefix ++
    [utf8Bytes metadata.params.namespaceId, utf8Bytes metadata.params.sourceId,
      metadata.params.exactDigest.val].flatMap lengthPrefixed

def ObjectLocator.verify (locator : ObjectLocator) (metadata : ObjectMetadata) :
    Except ObjectError Unit :=
  require (locator = .forMetadata metadata) .otherSource

/-- An attempt is known by the nonce of its stream. -/
def AttemptId.forSealed (locator : ObjectLocator) (object : SealedObject) : AttemptId where
  token := Platform.sha256 <| attemptPrefix ++ utf8Bytes locator.token.text ++
    object.streamNoncePrefix.val

end Tokens

/-! ## Paths -/

inductive VaultDirectory where
  | objects
  | staging
deriving DecidableEq, Repr

abbrev VaultFiles :=
  DurableFiles VaultDirectory String

abbrev VaultPath :=
  FilePlace VaultDirectory String

def objectName (locator : ObjectLocator) : String :=
  locator.token.text ++ ".rmo"

def stagingName (locator : ObjectLocator) (attempt : AttemptId) : String :=
  locator.token.text ++ "." ++ attempt.token.text ++ ".stage"

def objectPath (locator : ObjectLocator) : VaultPath :=
  (.objects, objectName locator)

def stagingPath (locator : ObjectLocator) (attempt : AttemptId) : VaultPath :=
  (.staging, stagingName locator attempt)

/-! ## Calls -/

abbrev ObjectIo (α : Type) :=
  Program Unit VaultFiles ObjectError α

namespace ObjectIo

def look {α : Type} (query : VaultFiles → Except ObjectError α) : ObjectIo α :=
  .read () query

def check {α : Type} (result : Except ObjectError α) : ObjectIo α :=
  .ofExcept result

def change (effect : VaultFiles → VaultFiles) : ObjectIo Unit :=
  .transact () fun fs => .ok ((), effect fs)

def onlyIf (condition : Bool) (body : ObjectIo Unit) : ObjectIo Unit :=
  if condition then body else pure ()

end ObjectIo

open ObjectIo

/-- Identity and length of a file. -/
structure Observation where
  identity : Nat
  length : Nat
deriving DecidableEq, Repr

/-- The number of the file at a path, and the file. -/
def fileOf (fs : VaultFiles) (path : VaultPath) : Option (Nat × DurableFile) :=
  (fs.lookup path).bind fun number => (fs.files[number]?).map fun file => (number, file)

def requireFile (file : DurableFile) : Except ObjectError Unit :=
  require (file.bytes.length ≤ Envelope.maxEnvelopeBytes) .unbounded

def present (path : VaultPath) : ObjectIo Bool :=
  look fun fs =>
    match fileOf fs path with
    | none => .ok false
    | some (_, file) => do
      requireFile file
      return true

def Observation.open (path : VaultPath) : ObjectIo Observation :=
  look fun fs => do
    let (number, file) ← (fileOf fs path).orError .missing
    requireFile file
    return { identity := number, length := file.bytes.length }

/-- The path still leads to the observed file. -/
def verifyFile (path : VaultPath) (observed : Observation) : ObjectIo Unit := do
  let current ← Observation.open path
  check (require (current = observed) .changed)

/-- Open a path for reading, and read all of it. -/
def readToEnd (path : VaultPath) : ObjectIo (List UInt8 × Observation) :=
  look fun fs => do
    let (number, file) ← (fileOf fs path).orError (.io "open encrypted object")
    return (file.bytes, { identity := number, length := file.bytes.length })

def readFile (path : VaultPath) : ObjectIo (List UInt8 × Observation) := do
  let observed ← Observation.open path
  let (bytes, handle) ← readToEnd path
  check (require (handle = observed) .changed)
  check (require (bytes.length ≤ Envelope.maxEnvelopeBytes ∧ bytes.length = observed.length)
    .changed)
  verifyFile path observed
  return (bytes, observed)

/-- The number of a new file, which stands for the handle. -/
def createNewFile (path : VaultPath) : ObjectIo Nat :=
  .transact () fun fs =>
    match fs.lookup path with
    | some _ => .error .objectExists
    | none => .ok (fs.createNew path)

/-- `write_all`, which may stop after any of the bytes. -/
def writeAll (file : Nat) (bytes : List UInt8) : ObjectIo Unit :=
  bytes.foldlM (fun _ byte => change fun fs => fs.append file [byte]) ()

def syncAll (file : Nat) : ObjectIo Unit :=
  change fun fs => fs.syncFile file

def syncDirectory (directory : VaultDirectory) : ObjectIo Unit :=
  change fun fs => fs.syncDirectory directory

def syncFile (path : VaultPath) (observed : Observation) : ObjectIo Unit := do
  let (_, handle) ← readToEnd path
  check (require (handle = observed) .changed)
  syncAll handle.identity
  verifyFile path observed

/-- `fs::hard_link`, which never replaces an entry. -/
def hardLink (original path : VaultPath) (taken : ObjectError) (reason : String) :
    ObjectIo Unit :=
  .transact () fun fs =>
    match h : fs.lookup original with
    | none => .error (.io reason)
    | some number =>
      match fs.lookup path with
      | some _ => .error taken
      | none => .ok ((), fs.record path (some number) fun _ heq =>
          Option.some.inj heq ▸ DurableFiles.lt_of_mem_outcomes (h ▸ fs.lookup_mem_outcomes original))

def removeFile (path : VaultPath) (reason : String) : ObjectIo Unit :=
  .transact () fun fs =>
    match fs.lookup path with
    | none => .error (.io reason)
    | some _ => .ok ((), fs.unlink path)

/-! ## Objects -/

variable [Platform] [ObjectCipher]

/-- The bytes are an object of this source, and of this attempt. -/
def authenticate (bytes : List UInt8) (metadata : ObjectMetadata) (locator : ObjectLocator)
    (attempt : AttemptId) (key : KeyEncryptionKey) : Except ObjectError Unit := do
  let object ← (Envelope.decode bytes metadata).mapError .ofFault
  let _ ← (openObject key metadata object).mapError .ofFault
  require (AttemptId.forSealed locator object = attempt) .otherAttempt

/-- An object in memory, before it is published. -/
structure ObjectWrite where
  metadata : ObjectMetadata
  locator : ObjectLocator
  attempt : AttemptId
  envelope : List UInt8

def ObjectWrite.fromSealed (metadata : ObjectMetadata) (object : SealedObject) :
    Except ObjectError ObjectWrite := do
  let locator := ObjectLocator.forMetadata metadata
  let envelope ← (Envelope.encode metadata object).mapError .ofFault
  return { metadata, locator, attempt := .forSealed locator object, envelope }

/-- `ObjectWrite::seal`, with the random bytes that are left. -/
def ObjectWrite.seal {σ : Type} (key : KeyEncryptionKey) (metadata : ObjectMetadata)
    (plaintext : List UInt8) (random : RandomSource σ) (s : σ) :
    Except ObjectError (ObjectWrite × σ) := do
  (Envelope.validateMetadata metadata).mapError .ofFault
  let (object, s) ← (sealObjectWithRandom key metadata plaintext random s).mapError .ofFault
  let write ← ObjectWrite.fromSealed metadata object
  return (write, s)

structure PublishedObject where
  locator : ObjectLocator
  attempt : AttemptId

/-- Write the staging file and read it back when it is on the disk. -/
def stageObject (write : ObjectWrite) (key : KeyEncryptionKey) :
    ObjectIo (List UInt8 × Observation) := do
  let staging := stagingPath write.locator write.attempt
  let file ← createNewFile staging
  writeAll file write.envelope
  syncAll file
  let written ← Observation.open staging
  check (require (written.identity = file) .changed)
  syncDirectory .staging
  let (bytes, observed) ← readFile staging
  check (require (bytes = write.envelope ∧ observed = written) .changed)
  check (authenticate bytes write.metadata write.locator write.attempt key)
  return (bytes, observed)

/-- Give the staged object its final name, and read it back when the name is on the disk. -/
def linkObject (write : ObjectWrite) (key : KeyEncryptionKey) (bytes : List UInt8)
    (observed : Observation) : ObjectIo Observation := do
  let staging := stagingPath write.locator write.attempt
  let target := objectPath write.locator
  verifyFile staging observed
  hardLink staging target .objectExists "publish immutable encrypted object"
  syncDirectory .objects
  let (publishedBytes, publishedObservation) ← readFile target
  check (require (publishedBytes = bytes ∧ publishedObservation = observed) .changed)
  check (authenticate publishedBytes write.metadata write.locator write.attempt key)
  return publishedObservation

/-- Only a publication that has succeeded removes its staging link. -/
def unlinkStaging (write : ObjectWrite) (observed publishedObservation : Observation) :
    ObjectIo Unit := do
  let staging := stagingPath write.locator write.attempt
  let target := objectPath write.locator
  verifyFile staging observed
  verifyFile target publishedObservation
  removeFile staging "remove published staging link"
  syncDirectory .staging
  verifyFile target publishedObservation

def publish (write : ObjectWrite) (key : KeyEncryptionKey) : ObjectIo PublishedObject := do
  check (write.locator.verify write.metadata)
  let object ← check ((Envelope.decode write.envelope write.metadata).mapError .ofFault)
  let _ ← check ((openObject key write.metadata object).mapError .ofFault)
  let taken ← present (objectPath write.locator)
  check (require (taken = false) .objectExists)
  let (bytes, observed) ← stageObject write key
  let publishedObservation ← linkObject write key bytes observed
  unlinkStaging write observed publishedObservation
  return { locator := write.locator, attempt := write.attempt }

/-- `ObjectDirectory::read` -/
def readObject (locator : ObjectLocator) (expected : ObjectMetadata) (key : KeyEncryptionKey) :
    ObjectIo (List UInt8) := do
  check ((Envelope.validateMetadata expected).mapError .ofFault)
  check (locator.verify expected)
  let (bytes, observation) ← readFile (objectPath locator)
  let object ← check ((Envelope.decode bytes expected).mapError .ofFault)
  let plaintext ← check ((openObject key expected object).mapError .ofFault)
  verifyFile (objectPath locator) observation
  return plaintext

/-! ## Attempts -/

/-- What is found at the two paths of an attempt; all of it is authenticated. -/
inductive AttemptState where
  | absent
  | authenticatedStaging
  | authenticatedPublishedCandidate
  | authenticatedStagingAndPublishedCandidate
deriving DecidableEq, Repr

/-- Whether there is a staging file, and whether there is an object. -/
def AttemptState.ofPresent : Bool → Bool → AttemptState
  | false, false => .absent
  | true, false => .authenticatedStaging
  | false, true => .authenticatedPublishedCandidate
  | true, true => .authenticatedStagingAndPublishedCandidate

/-- The authenticated file at a path, where there is a file. -/
def inspectPath (path : VaultPath) (locator : ObjectLocator) (attempt : AttemptId)
    (expected : ObjectMetadata) (key : KeyEncryptionKey) :
    ObjectIo (Option (List UInt8 × Observation)) := do
  if ← present path then
    let (bytes, observation) ← readFile path
    check (authenticate bytes expected locator attempt key)
    return some (bytes, observation)
  else return none

/-- The path is as it was. -/
def recheckPath (path : VaultPath) : Option (List UInt8 × Observation) → ObjectIo Unit
  | some (_, observation) => verifyFile path observation
  | none => do
    let found ← present path
    check (require (found = false) .changed)

def inspectAttempt (locator : ObjectLocator) (attempt : AttemptId) (expected : ObjectMetadata)
    (key : KeyEncryptionKey) : ObjectIo AttemptState := do
  check ((Envelope.validateMetadata expected).mapError .ofFault)
  check (locator.verify expected)
  let staged ← inspectPath (stagingPath locator attempt) locator attempt expected key
  let published ← inspectPath (objectPath locator) locator attempt expected key
  check (require (staged.isSome = true → published.isSome = true → staged = published) .changed)
  recheckPath (stagingPath locator attempt) staged
  recheckPath (objectPath locator) published
  return .ofPresent staged.isSome published.isSome

/-- The names in a directory are among the allowed ones, and of bounded files. -/
def verifyEntries (directory : VaultDirectory) (allowed : List String) : ObjectIo Unit := do
  let names ← look fun fs => .ok (fs.directory directory).names
  names.forM fun name => do
    check (require (name ∈ allowed) .unknownEntry)
    let _ ← present (directory, name)

def verifyInventory (attempts : List (ObjectLocator × AttemptId)) : ObjectIo Unit := do
  let objects := attempts.map fun entry => objectName entry.1
  let staging := attempts.map fun entry => stagingName entry.1 entry.2
  check (require (objects.Nodup ∧ staging.Nodup) .unknownEntry)
  verifyEntries .objects objects
  verifyEntries .staging staging

/-! ## Recovery -/

def AttemptState.hasStaging : AttemptState → Bool
  | .authenticatedStaging | .authenticatedStagingAndPublishedCandidate => true
  | _ => false

/-- The last part of a recovery: the staging link of a published object. -/
def removeStagingLink (locator : ObjectLocator) (attempt : AttemptId) (bytes : List UInt8)
    (reference : Observation) : ObjectIo Unit := do
  let (staged, stagingReference) ← readFile (stagingPath locator attempt)
  check (require (staged = bytes ∧ stagingReference = reference) .changed)
  verifyFile (objectPath locator) reference
  verifyFile (stagingPath locator attempt) stagingReference
  removeFile (stagingPath locator attempt) "remove recovered staging link"

/-- Give a staged object its final name. -/
def linkStaged (locator : ObjectLocator) (attempt : AttemptId) (observed : Observation) :
    ObjectIo Unit := do
  verifyFile (stagingPath locator attempt) observed
  hardLink (stagingPath locator attempt) (objectPath locator) (.io "publish recovered attempt")
    "publish recovered attempt"

/-- What remains to be done for an object that has its final name. -/
def completeRecovery (locator : ObjectLocator) (attempt : AttemptId) (metadata : ObjectMetadata)
    (key : KeyEncryptionKey) (hasStaging : Bool) (bytes : List UInt8) (observed : Observation) :
    ObjectIo Bool := do
  syncDirectory .objects
  let (published, reference) ← readFile (objectPath locator)
  check (require (published = bytes ∧ reference = observed) .changed)
  check (authenticate published metadata locator attempt key)
  onlyIf hasStaging (removeStagingLink locator attempt bytes reference)
  syncDirectory .staging
  verifyFile (objectPath locator) reference
  return hasStaging

/-- Whether a staging link was removed. -/
def finishAttempt (locator : ObjectLocator) (attempt : AttemptId) (metadata : ObjectMetadata)
    (key : KeyEncryptionKey) (allowPublication : Bool) : ObjectIo Bool := do
  let state ← inspectAttempt locator attempt metadata key
  check (require (state ≠ .absent ∧ (state = .authenticatedStaging → allowPublication = true))
    .requiredMissing)
  let hasTarget := state != .authenticatedStaging
  let path := if hasTarget then objectPath locator else stagingPath locator attempt
  let (bytes, observed) ← readFile path
  check (authenticate bytes metadata locator attempt key)
  syncFile path observed
  onlyIf (!hasTarget) (linkStaged locator attempt observed)
  completeRecovery locator attempt metadata key state.hasStaging bytes observed

def recoverAttempt (locator : ObjectLocator) (attempt : AttemptId) (metadata : ObjectMetadata)
    (key : KeyEncryptionKey) : ObjectIo Unit := do
  let _ ← finishAttempt locator attempt metadata key true

/-- The staging link of a committed object, which must be published. -/
def cleanupCommittedStaging (locator : ObjectLocator) (attempt : AttemptId)
    (metadata : ObjectMetadata) (key : KeyEncryptionKey) : ObjectIo Bool :=
  finishAttempt locator attempt metadata key false

/-! ## Retirement -/

/-- A path that was observed still leads to its file, and one without a file to none. -/
def verifyRetiring (path : VaultPath) : Option Observation → ObjectIo Unit
  | some observation => verifyFile path observation
  | none => do
    let found ← present path
    check (require (found = false) .changed)

/-- Remove a path that was observed. -/
def removeRetired (path : VaultPath) : Option Observation → ObjectIo Unit
  | some _ => removeFile path "remove retired object entry"
  | none => pure ()

def retireAttempt (locator : ObjectLocator) (attempt : AttemptId) (metadata : ObjectMetadata)
    (key : KeyEncryptionKey) : ObjectIo Unit := do
  let _ ← inspectAttempt locator attempt metadata key
  let staging := stagingPath locator attempt
  let object := objectPath locator
  let staged := (← inspectPath staging locator attempt metadata key).map Prod.snd
  let published := (← inspectPath object locator attempt metadata key).map Prod.snd
  check (require (staged.isSome = true → published.isSome = true → staged = published) .changed)
  verifyRetiring staging staged
  verifyRetiring object published
  removeRetired staging staged
  -- The staging name must stay away while the object is removed.
  verifyRetiring staging none
  verifyRetiring object published
  removeRetired object published
  syncDirectory .staging
  syncDirectory .objects
  verifyRetiring staging none
  verifyRetiring object none

end RadishMemory
