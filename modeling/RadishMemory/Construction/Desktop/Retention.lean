import RadishMemory.Construction.Desktop.Worker
import RadishMemory.Framework.Trace

/-!
# Retaining an original request

What the worker is for, as a machine of its own: it retains at most one original request, from its
preparation until it has succeeded, has been abandoned or is completed, and while it retains one
nothing is prepared and the library is not opened, keyed or migrated.  Its steps are labelled by
what an event of the host means for the request.
-/

namespace RadishMemory
namespace Desktop

variable [Platform]

inductive Original where
  | capture (request : SourceCapture)
  | deletion (request : DeleteRequest)

/-- The fields that hold the request. -/
abbrev Slots :=
  Option SourceCapture × Option DeleteRequest

def Original.slots : Option Original → Slots
  | none => (none, none)
  | some (.capture request) => (some request, none)
  | some (.deletion request) => (none, some request)

/-- What an event of the host means for the retained request. -/
inductive Deed where
  | prepared (original : Original)
  | attempted (original : Original)
  | finished (original : Original)
  | abandoned (target : CaptureAbandonmentTarget)
  | reopened
  | other

def Event.deed : Event → Deed
  | ⟨.prepareImportNewSource _, .ok prepared⟩ => .prepared (.capture prepared)
  | ⟨.prepareUpdateSource _ _, .ok prepared⟩ => .prepared (.capture prepared)
  | ⟨.prepareSourceLineageDeletion _, .ok prepared⟩ => .prepared (.deletion prepared)
  | ⟨.captureSource request, .ok _⟩ => .finished (.capture request)
  | ⟨.captureSource request, .error _⟩ => .attempted (.capture request)
  | ⟨.executeSourceLineageDeletion request, .ok evidence⟩ =>
    if evidence.params.overallStatus = .completed then .finished (.deletion request)
    else .attempted (.deletion request)
  | ⟨.executeSourceLineageDeletion request, .error _⟩ => .attempted (.deletion request)
  | ⟨.abandonCapture target, .ok _⟩ => .abandoned target
  | ⟨.openPlain, _⟩ | ⟨.openWithSnapshot _, _⟩ | ⟨.initializeKey, _⟩ | ⟨.migrateBodies, _⟩ =>
    .reopened
  | _ => .other

/-- The steps of the machine; `names` says which abandonment is that of a capture.  A deletion that
was unfinished before this worker started is retained from its first attempt. -/
inductive RetentionStep (names : CaptureAbandonmentTarget → SourceCapture → Prop) :
    Option Original → Deed → Option Original → Prop
  | prepare (original : Original) : RetentionStep names none (.prepared original) (some original)
  | attempt (original : Original) :
      RetentionStep names (some original) (.attempted original) (some original)
  | resume (request : DeleteRequest) :
      RetentionStep names none (.attempted (.deletion request)) (some (.deletion request))
  | finish (original : Original) : RetentionStep names (some original) (.finished original) none
  | finishResumed (request : DeleteRequest) :
      RetentionStep names none (.finished (.deletion request)) none
  | abandon (target : CaptureAbandonmentTarget) (request : SourceCapture)
      (hnames : names target request) :
      RetentionStep names (some (.capture request)) (.abandoned target) none
  | abandonOther (target : CaptureAbandonmentTarget) (retained : Option Original)
      (hother : ∀ request, retained ≠ some (.capture request)) :
      RetentionStep names retained (.abandoned target) retained
  | reopen : RetentionStep names none .reopened none
  | other (retained : Option Original) : RetentionStep names retained .other retained

/-! ## The retained request of the engine -/

class Retaining (σ : Type) where
  slots : σ → Slots

def Library.slots : Library → Slots
  | .plain => (none, none)
  | .encrypted capture deletion => (capture, deletion)

instance Library.retaining : Retaining Library where
  slots := Library.slots

instance LibraryController.retaining : Retaining LibraryController where
  slots controller := controller.library.slots

def Engine.slots (engine : Engine) : Slots :=
  match engine.controller with
  | none => (none, none)
  | some controller => controller.library.slots

instance Turn.retaining : Retaining Turn where
  slots turn := turn.engine.slots

def Engine.Retains (engine : Engine) : Original → Prop
  | .capture request => engine.slots.1 = some request
  | .deletion request => engine.slots.2 = some request

/-- The target is the row of the capture. -/
def CaptureAbandonmentTarget.Names (target : CaptureAbandonmentTarget) (request : SourceCapture) :
    Prop :=
  target.source = request.params.source.params.sourceId.asStr

/-- The request has succeeded in these events, was abandoned or is completed. -/
def Original.Released (events : List Event) : Original → Prop
  | .capture request =>
    (∃ receipt, ⟨.captureSource request, .ok receipt⟩ ∈ events) ∨
      ∃ target, target.Names request ∧ ⟨.abandonCapture target, .ok ()⟩ ∈ events
  | .deletion request => ∃ evidence : DeletionEvidence,
      evidence.params.overallStatus = .completed ∧
        ⟨.executeSourceLineageDeletion request, .ok evidence⟩ ∈ events

/-- The request was made in these events. -/
def Original.Prepared (events : List Event) : Original → Prop
  | .capture request =>
    (∃ file, ⟨.prepareImportNewSource file, .ok request⟩ ∈ events) ∨
      ∃ lineage file, ⟨.prepareUpdateSource lineage file, .ok request⟩ ∈ events
  | .deletion request => ∃ lineage, ⟨.prepareSourceLineageDeletion lineage, .ok request⟩ ∈ events

/-! ## The kinds of calls -/

inductive CallKind where
  | neutral
  | opening
  | beginning
  | settling
deriving DecidableEq

def LibraryCall.kind : LibraryCall → CallKind
  | .openPlain | .openWithSnapshot _ | .initializeKey | .migrateBodies => .opening
  | .importNewSource _ | .updateSource _ _ | .deleteSourceLineage _ | .prepareImportNewSource _
  | .prepareUpdateSource _ _ | .prepareSourceLineageDeletion _ => .beginning
  | .captureSource _ | .executeSourceLineageDeletion _ | .abandonCapture _ => .settling
  | _ => .neutral

/-- The calls that a command may make. -/
def Command.kinds : Command → List CallKind
  | .openPlain | .openEncrypted | .initializeKey | .migrate => [.neutral, .opening]
  | .importSource _ | .update _ | .delete => [.neutral, .beginning, .settling]
  | .retryOriginal | .resumeDelete _ | .abandon => [.neutral, .settling]
  | _ => [.neutral]

/-! ## The contract -/

/-- An engine whose sources must not be changed. -/
def Engine.Unready (engine : Engine) : Prop :=
  (∃ original, engine.Retains original) ∨ engine.recoveryKnown = false ∨
    engine.viewValid = false ∨ engine.target ≠ none ∨ engine.deletions ≠ []

def Execution.Failed (x : Execution) : Prop :=
  x.snapshot.error ≠ none ∨ x.snapshot.refreshError ≠ none

def Execution.Refused (x : Execution) : Prop :=
  x.events = [] ∧ x.snapshot.error ≠ none

/-- The retention of original requests, in a sequence of executed commands. -/
structure RetainsRequests (run : List Execution) : Prop where
  single : ∀ x ∈ run, x.after.slots.1 = none ∨ x.after.slots.2 = none
  released : ∀ x ∈ run, ∀ original, x.before.Retains original ∨ original.Prepared x.events →
    x.after.Retains original ∨ original.Released x.events
  undisturbed : ∀ x ∈ run, (∃ original, x.before.Retains original) →
    ∀ event ∈ x.events, event.call.kind ≠ .opening
  guarded : ∀ x ∈ run, x.before.Unready →
    (∀ event ∈ x.events, event.call.kind ≠ .beginning) ∧
      (x.command.changesSources = true → x.Refused)
  sticky : ∀ before x between y after, run = before ++ x :: (between ++ y :: after) → x.Failed →
    (∀ z ∈ between, z.command.refreshes = true → z.Failed) → y.command.changesSources = true →
    y.Refused

/-- An abandonment is that of the retained capture. -/
def Execution.NamesRetained (x : Execution) : Prop :=
  x.command = .abandon → ∀ target request, x.before.target = some target →
    x.before.Retains (.capture request) → target.Names request

end Desktop
end RadishMemory
