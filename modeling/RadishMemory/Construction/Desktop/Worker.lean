import RadishMemory.Construction.Desktop.Controller

/-!
# The worker's engine

One engine executes the commands of the desktop, one after the other, and answers each with a
snapshot.  It owns the controller and, within it, the original request of an unfinished capture or
deletion.  `perform` is the fallible part of a command; what it changed before an error stays.
-/

namespace RadishMemory
namespace Desktop

variable [Platform]

inductive Command where
  | openPlain
  | openEncrypted
  | initializeKey
  | migrate
  | verify
  | rebuild
  | refresh
  | importSource (request : FileReadRequest)
  | update (request : FileReadRequest)
  | export (request : FileExportRequest)
  | search (query : String)
  | selectLineage (lineage : Identifier)
  | selectVersion (source : Identifier)
  | selectResult (lineage source : Identifier)
  | delete
  | retryOriginal
  | resumeDelete (request : Identifier)
  | inspectRecovery
  | abandon
  | shutdown

def Command.changesLibrary : Command → Bool
  | .openPlain | .openEncrypted | .initializeKey | .migrate => true
  | _ => false

def Command.changesSources : Command → Bool
  | .importSource _ | .update _ | .delete => true
  | _ => false

structure Snapshot where
  view : Option LibraryView := none
  encrypted : Bool := false
  holdsOriginal : Bool := false
  holdsCapture : Bool := false
  abandonmentAvailable : Bool := false
  recoveryKnown : Bool := false
  deletionRequests : List Identifier := []
  lastDeletion : Option DeletionEvidence := none
  message : Option String := none
  error : Option DesktopError := none
  refreshError : Option DesktopError := none

/-- An explicitly approved location; `trace` is the file of a key-read observation. -/
structure AcceptanceLocation where
  trace : Bool
deriving DecidableEq

structure Engine where
  acceptance : Option AcceptanceLocation
  controller : Option LibraryController
  encrypted : Bool
  target : Option CaptureAbandonmentTarget
  deletions : List DeleteRequest
  recoveryKnown : Bool
  viewValid : Bool
  observation : Bool
  plainConsumed : Bool
  encryptedConsumed : Bool

/-- The engine of a new worker. -/
def Engine.start (acceptance : Option AcceptanceLocation) : Engine :=
  { acceptance
    controller := none
    encrypted := false
    target := none
    deletions := []
    recoveryKnown := false
    viewValid := false
    observation := acceptance.any AcceptanceLocation.trace
    plainConsumed := false
    encryptedConsumed := false }

namespace Engine

def held (engine : Engine) : Bool :=
  engine.controller.any fun controller => controller.library.holdsOriginal

def blocked (engine : Engine) : Bool :=
  !engine.viewValid || engine.held || engine.target.isSome || !engine.deletions.isEmpty ||
    !engine.recoveryKnown

/-- Recovery is not known. -/
def forget (engine : Engine) : Engine :=
  { engine with recoveryKnown := false, target := none, deletions := [] }

/-- Recovery is known. -/
def remember (target : Option CaptureAbandonmentTarget) (deletions : List DeleteRequest)
    (engine : Engine) : Engine :=
  { engine with recoveryKnown := true, target, deletions }

end Engine

/-- What a command works on: the engine and the snapshot of its answer. -/
structure Turn where
  engine : Engine
  snapshot : Snapshot

namespace Turn

variable {ω ε α : Type} (host : Host ω)

def onEngine (f : Engine → Engine) : Method (Situated ω Turn) ε Unit :=
  Desktop.update fun turn => { turn with engine := f turn.engine }

def onSnapshot (f : Snapshot → Snapshot) : Method (Situated ω Turn) ε Unit :=
  Desktop.update fun turn => { turn with snapshot := f turn.snapshot }

def say (message : String) : Method (Situated ω Turn) ε Unit :=
  onSnapshot fun snapshot => { snapshot with message := some message }

def setController (controller : Option LibraryController) : Method (Situated ω Turn) ε Unit :=
  onEngine fun engine => { engine with controller }

def currentEngine : Method (Situated ω Turn) ε Engine :=
  Turn.engine <$> self

/-- Act on the controller, if there is one. -/
def withController (x : Method (Situated ω LibraryController) DesktopError α) :
    Method (Situated ω Turn) DesktopError α := do
  match (← currentEngine).controller with
  | none => throw recoveryRequired
  | some controller =>
    within (fun turn => turn.engine.controller.getD controller)
      (fun turn controller =>
        { turn with engine := { turn.engine with controller := some controller } }) x

/-- `self.profile()` -/
def profile : Method (Situated ω Turn) DesktopError HostProfile := do
  match (← currentEngine).acceptance with
  | some _ => .ofExcept (← access host.loadProfile)
  | none => .ofExcept (← access host.loadOrCreateHostProfile)

def askApp (call : LibraryCall) : Method (Situated ω Turn) DesktopError call.Answer :=
  (ask host call).mapError appError

/-- `self.location()` -/
def location : Method (Situated ω Turn) DesktopError Unit := do
  let profile ← profile host
  askApp host (.phase1Local profile)
  askApp host (.withProvider profile)

def inspect : Method (Situated ω Turn) DesktopError Unit := do
  onEngine Engine.forget
  match (← currentEngine).controller with
  | some _ =>
    let (target, deletions) ← withController (LibraryController.backend (Library.recovery host))
    onEngine (Engine.remember target deletions)
  | none =>
    if (← currentEngine).encrypted then
      location host
      let target ← askApp host .inspectCaptureAbandonment
      onEngine fun engine => { engine with target }
      -- Deletions are found only after an authenticated open.
      throw recoveryRequired
    else onEngine (Engine.remember none [])

def refreshAfterWrite : Method (Situated ω Turn) DesktopError Unit := do
  let refreshed ← (withController (LibraryController.refreshSources host)).attempt
  let inspected ← (inspect host).attempt
  onSnapshot fun snapshot =>
    { snapshot with refreshError := refreshed.error?.or inspected.error? }

/-! ## The commands -/

def openPlain : Method (Situated ω Turn) DesktopError Unit := do
  onEngine fun engine => { engine with controller := none, encrypted := false }
  let profile ← profile host
  askApp host (.phase1Local profile)
  askApp host .openPlain
  let controller ← LibraryController.fromLibrary host .plain
  setController (some controller)
  inspect host
  say "Legacy plaintext library opened."

def observationError (reason : DesktopErrorReason) : DesktopError :=
  .withoutSource .runtime reason false

/-- The one opening that is observed.  An error of the library is reported as it is, whether or not
the trace is complete. -/
def openTraced : Method (Situated ω Turn) DesktopError LibraryReadSnapshot := do
  .refuseIf (!(← currentEngine).acceptance.any AcceptanceLocation.trace)
    (observationError .keyReadObservationConsumed)
  onEngine fun engine =>
    { engine with acceptance := engine.acceptance.map fun location => { location with trace := false } }
  .refuseIf (!(← access host.beginTrace)) (observationError .keyReadObservationFailed)
  let opened ← (askApp host (.openWithSnapshot catalogPageSize)).attempt
  let complete ← access host.endTrace
  let snapshot ← .ofExcept opened
  .refuseIf (!complete) (observationError .keyReadObservationFailed)
  return snapshot

def openEncrypted : Method (Situated ω Turn) DesktopError Unit := do
  onEngine fun engine => { engine with controller := none, encrypted := true }
  location host
  let snapshot ←
    if (← currentEngine).observation then openTraced host
    else askApp host (.openWithSnapshot catalogPageSize)
  setController (some (.fromEncryptedSnapshot snapshot))
  onEngine (Engine.remember snapshot.abandonmentTarget snapshot.deletionRequests)
  say "Encrypted source objects opened. FTS still contains full plaintext."

/-- `InitializeKey` and `Migrate`: the controller is dropped before the library is changed. -/
def maintain (call : LibraryCall) (message : String) :
    Method (Situated ω Turn) DesktopError Unit := do
  onEngine fun engine =>
    { engine with controller := none, encrypted := true, recoveryKnown := false }
  location host
  let _ ← askApp host call
  say message

def reportMessage (report : VerificationReport) : String :=
  s!"Verified {report.committedObjectsVerified} objects; " ++
  s!"pending captures: {report.pendingCaptures}; " ++
  s!"abandonment pending: {report.abandonmentPending}; " ++
  s!"deletion pending objects: {report.deletionPendingObjects}; " ++
  s!"derivations rebuilt: {report.derivationsRebuilt}."

def verifyLibrary : Method (Situated ω Turn) DesktopError Unit := do
  if (← currentEngine).encrypted then
    location host
    let report ← askApp host .verifyObjects
    say (reportMessage report)
  else
    withController (LibraryController.verify host)
    say "Canonical facts and recall verified."

def rebuildRecall : Method (Situated ω Turn) DesktopError Unit := do
  if (← currentEngine).encrypted then
    location host
    let report ← askApp host .rebuildDerivations
    say (reportMessage report)
  else
    withController (LibraryController.rebuild host)
    say "Derived recall rebuilt from verified facts."

def refresh : Method (Situated ω Turn) DesktopError Unit := do
  if (← currentEngine).encrypted then
    let snapshot ← withController (LibraryController.refreshEncryptedSnapshot host)
    onEngine (Engine.remember snapshot.abandonmentTarget snapshot.deletionRequests)
  else
    withController (LibraryController.refreshSources host)
    inspect host

def capture (x : Method (Situated ω LibraryController) DesktopError FileCaptureReceipt) :
    Method (Situated ω Turn) DesktopError Unit := do
  let _ ← withController x
  say "Capture committed; original request released."

def exportSource (request : FileExportRequest) : Method (Situated ω Turn) DesktopError Unit := do
  withController (LibraryController.exportSelected host request)
  say "Managed bytes exported without overwrite."

def selectResult (lineage source : Identifier) : Method (Situated ω Turn) DesktopError Unit := do
  withController (LibraryController.selectLineage host lineage)
  withController (LibraryController.selectSourceVersion source)

def delete : Method (Situated ω Turn) DesktopError Unit := do
  let evidence ← withController (LibraryController.deleteSelectedLineage host)
  onSnapshot fun snapshot => { snapshot with lastDeletion := some evidence }

def retryOriginal : Method (Situated ω Turn) DesktopError Unit := do
  let evidence ← withController (LibraryController.backend (Library.retry host))
  onSnapshot fun snapshot => { snapshot with lastDeletion := evidence }
  say "Original request executed; inspect deletion evidence if present."
  refreshAfterWrite host

def resumeDelete (id : Identifier) : Method (Situated ω Turn) DesktopError Unit := do
  .refuseIf (← currentEngine).held recoveryRequired
  let request ← .ofExcept (((← currentEngine).deletions.find? fun request =>
    request.params.deleteRequestId = id).orError recoveryRequired)
  let evidence ← withController (LibraryController.backend (Library.resumeDelete host request))
  onSnapshot fun snapshot => { snapshot with lastDeletion := evidence }
  refreshAfterWrite host

def abandon : Method (Situated ω Turn) DesktopError Unit := do
  let target ← .ofExcept ((← currentEngine).target.orError recoveryRequired)
  match (← currentEngine).controller with
  | some _ => withController (LibraryController.backend (Library.abandon host target))
  | none =>
    location host
    askApp host (.abandonCapture target)
  say "Exact uncommitted capture abandoned; committed sources retained."
  refreshAfterWrite host

/-! ## Performing a command -/

/-- The gate of an observation: it admits `OpenPlain` once, without an action, and `OpenEncrypted`
once.  The result tells whether the command goes on. -/
def observe (command : Command) : Method (Situated ω Turn) DesktopError Bool := do
  let engine ← currentEngine
  if engine.observation then
    match command with
    | .openPlain =>
      if !engine.plainConsumed && !engine.encryptedConsumed then
        onEngine fun engine => { engine with plainConsumed := true }
        say "Key-read observation is ready; open encrypted objects once."
        return false
      else throw (observationError .keyReadObservationConsumed)
    | .openEncrypted =>
      if !engine.encryptedConsumed then
        onEngine fun engine => { engine with encryptedConsumed := true }
        return true
      else throw (observationError .keyReadObservationConsumed)
    | _ => throw (observationError .keyReadObservationConsumed)
  else return true

/-- A target found before must not remain actionable when the profile check fails. -/
def invalidate (command : Command) : Method (Situated ω Turn) DesktopError Unit :=
  onEngine fun engine =>
    match command with
    | .openEncrypted => engine.forget
    | .refresh => if engine.encrypted then engine.forget else engine
    | _ => engine

def recheckAcceptance : Method (Situated ω Turn) DesktopError Unit := do
  match (← currentEngine).acceptance with
  | some _ =>
    let _ ← .ofExcept (← access host.loadProfile)
    return ()
  | none => return ()

/-- Refuse to change the library while a request is held, and to change its sources while blocked. -/
def gate (command : Command) : Method (Situated ω Turn) DesktopError Unit := do
  let engine ← currentEngine
  .refuseIf (command.changesLibrary && engine.held) recoveryRequired
  onEngine fun engine => if command.changesLibrary then engine.forget else engine
  .refuseIf (command.changesSources && engine.blocked) recoveryRequired

def act (command : Command) : Method (Situated ω Turn) DesktopError Unit :=
  match command with
  | .openPlain => openPlain host
  | .openEncrypted => openEncrypted host
  | .initializeKey =>
    maintain host .initializeKey "Key checkpoint prepared. Explicitly migrate bodies next."
  | .migrate =>
    maintain host .migrateBodies
      "Body migration finished. Explicitly open encrypted objects next."
  | .verify => verifyLibrary host
  | .rebuild => rebuildRecall host
  | .refresh => refresh host
  | .importSource request => capture (LibraryController.importSource host request)
  | .update request => capture (LibraryController.updateSelected host request)
  | .export request => exportSource host request
  | .search query => withController (LibraryController.search host query)
  | .selectLineage lineage => withController (LibraryController.selectLineage host lineage)
  | .selectVersion source => withController (LibraryController.selectSourceVersion source)
  | .selectResult lineage source => selectResult host lineage source
  | .delete => delete host
  | .retryOriginal => retryOriginal host
  | .resumeDelete id => resumeDelete host id
  | .inspectRecovery => inspect host
  | .abandon => abandon host
  | .shutdown => throw recoveryRequired

def performAdmitted (command : Command) : Method (Situated ω Turn) DesktopError Unit := do
  invalidate command
  recheckAcceptance host
  gate command
  act host command

def perform (command : Command) : Method (Situated ω Turn) DesktopError Unit := do
  if ← observe command then performAdmitted host command else return ()

end Turn

/-! ## Executing a command -/

def Command.refreshes : Command → Bool
  | .openPlain | .openEncrypted | .refresh | .retryOriginal | .resumeDelete _ | .abandon => true
  | _ => false

namespace Engine

/-- The engine after a command has succeeded or failed. -/
def conclude (engine : Engine) (failed refreshes : Bool) : Engine :=
  if failed then
    if engine.observation then { engine.forget with viewValid := false, controller := none }
    else { engine with viewValid := false }
  else if refreshes then { engine with viewValid := true }
  else engine

/-- The controller's part of the answer; its refresh error is taken out. -/
def report (engine : Engine) (snapshot : Snapshot) : Engine × Snapshot :=
  match engine.controller with
  | none => (engine, snapshot)
  | some controller =>
    let snapshot := { snapshot with
      view := if engine.viewValid then some controller.view else snapshot.view
      holdsOriginal := controller.library.holdsOriginal
      holdsCapture := controller.library.holdsCapture }
    if snapshot.refreshError.isNone then
      ({ engine with controller := some { controller with refreshError := none } },
        { snapshot with refreshError := controller.refreshError })
    else (engine, snapshot)

/-- A view that could not be refreshed is not shown. -/
def withdraw (answer : Engine × Snapshot) : Engine × Snapshot :=
  if answer.2.refreshError.isSome then
    ({ answer.1 with viewValid := false }, { answer.2 with view := none })
  else answer

def complete (answer : Engine × Snapshot) : Engine × Snapshot :=
  (answer.1, { answer.2 with
    encrypted := answer.1.encrypted
    abandonmentAvailable := answer.1.target.isSome
    recoveryKnown := answer.1.recoveryKnown
    deletionRequests := answer.1.deletions.map fun request => request.params.deleteRequestId })

end Engine

/-- A command that has been executed. -/
structure Execution where
  before : Engine
  command : Command
  events : List Event
  after : Engine
  snapshot : Snapshot

variable {ω : Type}

def execute (host : Host ω) (engine : Engine) (world : ω) (command : Command) : Execution × ω :=
  let (result, s) := (Turn.perform host command).outcome
    ⟨{ engine, snapshot := {} }, { world, events := [] }⟩
  let concluded := s.self.engine.conclude result.error?.isSome command.refreshes
  let answer := Engine.complete (Engine.withdraw
    (concluded.report { s.self.snapshot with error := result.error? }))
  ({ before := engine, command, events := s.outside.events, after := answer.1,
     snapshot := answer.2 }, s.outside.world)

/-- The worker executes what it receives, in order. -/
def executions (host : Host ω) : Engine → ω → List Command → List Execution
  | _, _, [] => []
  | engine, world, command :: rest =>
    let (execution, world) := execute host engine world command
    execution :: executions host execution.after world rest

end Desktop
end RadishMemory
