import RadishMemory.Construction.Sqlite.SourceCatalog
import RadishMemory.Construction.Core.Invariants
import RadishMemory.Framework.Method

/-!
# The desktop's backend

What the worker of the desktop asks of the library, and the value that keeps the original request of
an unfinished capture or deletion.  A library is outside the worker: a `Host` answers every call as
it likes, and what was asked and answered is recorded.
-/

namespace RadishMemory
namespace Desktop

/-! ## Errors -/

inductive DesktopErrorCode where
  | applicationDirectory
  | hostProfile
  | runtime
  | localLibrary
deriving DecidableEq, Repr

inductive DesktopErrorReason where
  | dataDirectoryInvalid
  | dataDirectoryCreateFailed
  | databasePathInvalid
  | profileMissingForExistingDatabase
  | profileInvalid
  | profileReadFailed
  | profileWriteFailed
  | identityGenerationFailed
  | applicationFailed
  | selectionInvalid
  | recoveryRequired
  | acceptanceProfileMismatch
  | keyReadObservationConsumed
  | keyReadObservationFailed
deriving DecidableEq, Repr

inductive ApplicationErrorCode where
  | invalidRequest
  | runtime
  | fileEntry
  | canonical
  | storage
  | sourceVault
  | notFound
deriving DecidableEq, Repr

structure ApplicationFailureSummary where
  code : ApplicationErrorCode
  retryable : Bool
deriving DecidableEq, Repr

structure DesktopError where
  code : DesktopErrorCode
  reason : DesktopErrorReason
  retryable : Bool
  application : Option ApplicationFailureSummary
deriving DecidableEq, Repr

def DesktopError.withoutSource (code : DesktopErrorCode) (reason : DesktopErrorReason)
    (retryable : Bool) : DesktopError :=
  { code, reason, retryable, application := none }

/-- `DesktopError::application` -/
def appError (source : ApplicationFailureSummary) : DesktopError :=
  { code := .localLibrary
    reason := .applicationFailed
    retryable := source.retryable
    application := some source }

def recoveryRequired : DesktopError :=
  .withoutSource .localLibrary .recoveryRequired false

def selectionInvalid : DesktopError :=
  .withoutSource .localLibrary .selectionInvalid false

variable [Platform]

/-! ## What is asked and answered -/

structure HostProfile where
  namespaceId : Identifier
  deviceId : Identifier

structure FileReadRequest where
  selectedPath : String
  allowedRoots : List String

structure FileExportRequest where
  targetPath : String
  allowedRoots : List String

structure FileCaptureReceipt where
  sourceId : Identifier
  lineageId : Identifier

structure SourceSearchResult where
  sourceId : Identifier
  lineageId : Identifier

structure VerificationReport where
  committedObjectsVerified : Nat
  pendingCaptures : Nat
  abandonmentPending : Bool
  deletionPendingObjects : Nat
  derivationsRebuilt : Bool

/-- The row of an uncommitted capture, as its recovery selects it. -/
structure CaptureAbandonmentTarget where
  source : String
  requestDigest : String
  attempt : String
deriving DecidableEq

structure LibraryReadSnapshot where
  sources : List SourceLineageSummary
  selectedLineageId : Option Identifier
  selectedSourceId : Option Identifier
  versions : List SourceVersionSummary
  abandonmentTarget : Option CaptureAbandonmentTarget
  deletionRequests : List DeleteRequest

/-- The calls that leave the worker: those to the plaintext library, to an encrypted library and to
the location of an encrypted library. -/
inductive LibraryCall where
  | phase1Local (profile : HostProfile)
  | withProvider (profile : HostProfile)
  | openPlain
  | openWithSnapshot (limit : Nat)
  | readSnapshot (preferred : Option Identifier) (limit : Nat)
  | initializeKey
  | migrateBodies
  | verifyObjects
  | rebuildDerivations
  | verifyLibrary
  | rebuildRecall
  | listSources (offset limit : Nat)
  | listSourceVersions (lineage : Identifier)
  | searchSources (query : NonEmptyText) (limit : Nat)
  | exportSource (source : Identifier) (request : FileExportRequest)
  | importNewSource (request : FileReadRequest)
  | updateSource (lineage : Identifier) (request : FileReadRequest)
  | deleteSourceLineage (lineage : Identifier)
  | prepareImportNewSource (request : FileReadRequest)
  | prepareUpdateSource (lineage : Identifier) (request : FileReadRequest)
  | captureSource (request : SourceCapture)
  | prepareSourceLineageDeletion (lineage : Identifier)
  | executeSourceLineageDeletion (request : DeleteRequest)
  | inspectCaptureAbandonment
  | unfinishedDeleteRequests
  | abandonCapture (target : CaptureAbandonmentTarget)

@[reducible]
def LibraryCall.Answer : LibraryCall → Type
  | .openWithSnapshot _ | .readSnapshot _ _ => LibraryReadSnapshot
  | .verifyObjects | .rebuildDerivations => VerificationReport
  | .listSources _ _ => List SourceLineageSummary
  | .listSourceVersions _ => List SourceVersionSummary
  | .searchSources _ _ => List SourceSearchResult
  | .importNewSource _ | .updateSource _ _ | .captureSource _ => FileCaptureReceipt
  | .deleteSourceLineage _ | .executeSourceLineageDeletion _ => DeletionEvidence
  | .prepareImportNewSource _ | .prepareUpdateSource _ _ => SourceCapture
  | .prepareSourceLineageDeletion _ => DeleteRequest
  | .inspectCaptureAbandonment => Option CaptureAbandonmentTarget
  | .unfinishedDeleteRequests => List DeleteRequest
  | _ => Unit

/-- Everything outside the worker, with a state of its own. -/
structure Host (ω : Type) where
  loadProfile : ω → Except DesktopError HostProfile × ω
  loadOrCreateHostProfile : ω → Except DesktopError HostProfile × ω
  beginTrace : ω → Bool × ω
  endTrace : ω → Bool × ω
  answer : (call : LibraryCall) → ω → Except ApplicationFailureSummary call.Answer × ω

structure Event where
  call : LibraryCall
  result : Except ApplicationFailureSummary call.Answer

/-- The state of the host and what has been asked of it. -/
structure Outside (ω : Type) where
  world : ω
  events : List Event

/-- An object of the worker with the outside it acts on. -/
structure Situated (ω σ : Type) where
  self : σ
  outside : Outside ω

variable {ω σ τ ε α : Type}

/-- Ask the host, and record what it answers. -/
def ask (host : Host ω) (call : LibraryCall) :
    Method (Situated ω σ) ApplicationFailureSummary call.Answer :=
  .ofOutcome fun s =>
    let (result, world) := host.answer call s.outside.world
    (result, { s with outside := { world, events := s.outside.events ++ [⟨call, result⟩] } })

/-- An access to the host that is none of the library's calls. -/
def access (f : ω → α × ω) : Method (Situated ω σ) ε α :=
  .ofOutcome fun s =>
    let (a, world) := f s.outside.world
    (.ok a, { s with outside := { s.outside with world } })

/-- Act on a part of the object. -/
def within (part : σ → τ) (update : σ → τ → σ) (x : Method (Situated ω τ) ε α) :
    Method (Situated ω σ) ε α :=
  x.zoom (fun s => ⟨part s.self, s.outside⟩) fun s t => ⟨update s.self t.self, t.outside⟩

/-- Act on an object that only the method knows, and give back the object. -/
def build (initial : τ) (x : Method (Situated ω τ) ε Unit) : Method (Situated ω σ) ε τ :=
  .ofOutcome fun s =>
    let (result, t) := x.outcome ⟨initial, s.outside⟩
    (result.map fun _ => t.self, { s with outside := t.outside })

/-- Change the object. -/
def update (f : σ → σ) : Method (Situated ω σ) ε Unit :=
  modify fun s => { s with self := f s.self }

/-- The object. -/
def self : Method (Situated ω σ) ε σ :=
  Situated.self <$> get

/-! ## The library -/

/-- The library that a controller works on.  The original requests of an encrypted library live in
this value only. -/
inductive Library where
  | plain
  | encrypted (capture : Option SourceCapture) (deletion : Option DeleteRequest)

namespace Library

variable (host : Host ω)

def holdsOriginal : Library → Bool
  | .plain => false
  | .encrypted capture deletion => capture.isSome || deletion.isSome

def holdsCapture : Library → Bool
  | .plain => false
  | .encrypted capture _ => capture.isSome

def setCapture (capture : Option SourceCapture) : Library → Library
  | .plain => .plain
  | .encrypted _ deletion => .encrypted capture deletion

def setDeletion (deletion : Option DeleteRequest) : Library → Library
  | .plain => .plain
  | .encrypted capture _ => .encrypted capture deletion

/-- The end of an import or update: the prepared capture is kept until it has succeeded. -/
def captureKeeping (prepared : SourceCapture) :
    Method (Situated ω Library) ApplicationFailureSummary FileCaptureReceipt := do
  update (setCapture (some prepared))
  let receipt ← ask host (.captureSource prepared)
  update (setCapture none)
  return receipt

/-- Execute a deletion that is kept until it is completed. -/
def executeKeeping (request : DeleteRequest) :
    Method (Situated ω Library) ApplicationFailureSummary DeletionEvidence := do
  let evidence ← ask host (.executeSourceLineageDeletion request)
  update fun library =>
    if evidence.params.overallStatus = .completed then library.setDeletion none else library
  return evidence

def importNewSource (request : FileReadRequest) :
    Method (Situated ω Library) ApplicationFailureSummary FileCaptureReceipt := do
  match ← self with
  | .plain => ask host (.importNewSource request)
  | .encrypted _ _ =>
    let prepared ← ask host (.prepareImportNewSource request)
    captureKeeping host prepared

def updateSource (lineage : Identifier) (request : FileReadRequest) :
    Method (Situated ω Library) ApplicationFailureSummary FileCaptureReceipt := do
  match ← self with
  | .plain => ask host (.updateSource lineage request)
  | .encrypted _ _ =>
    let prepared ← ask host (.prepareUpdateSource lineage request)
    captureKeeping host prepared

def deleteSourceLineage (lineage : Identifier) :
    Method (Situated ω Library) ApplicationFailureSummary DeletionEvidence := do
  match ← self with
  | .plain => ask host (.deleteSourceLineage lineage)
  | .encrypted _ _ =>
    let prepared ← ask host (.prepareSourceLineageDeletion lineage)
    update (setDeletion (some prepared))
    executeKeeping host prepared

def recovery : Method (Situated ω Library) DesktopError
    (Option CaptureAbandonmentTarget × List DeleteRequest) := do
  match ← self with
  | .plain => return (none, [])
  | .encrypted _ _ =>
    let target ← (ask host .inspectCaptureAbandonment).mapError appError
    let deletions ← (ask host .unfinishedDeleteRequests).mapError appError
    return (target, deletions)

def retry : Method (Situated ω Library) DesktopError (Option DeletionEvidence) := do
  match ← self with
  | .encrypted (some request) _ =>
    let _ ← (ask host (.captureSource request)).mapError appError
    update (setCapture none)
    return none
  | .encrypted none (some request) =>
    some <$> (executeKeeping host request).mapError appError
  | _ => throw recoveryRequired

def resumeDelete (request : DeleteRequest) :
    Method (Situated ω Library) DesktopError (Option DeletionEvidence) := do
  match ← self with
  | .plain => throw recoveryRequired
  | .encrypted _ _ =>
    update (setDeletion (some request))
    retry host

def abandon (target : CaptureAbandonmentTarget) :
    Method (Situated ω Library) DesktopError Unit := do
  match ← self with
  | .plain => throw recoveryRequired
  | .encrypted _ _ =>
    (ask host (.abandonCapture target)).mapError appError
    update (setCapture none)

end Library

end Desktop
end RadishMemory
