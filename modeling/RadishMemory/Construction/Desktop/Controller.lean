import RadishMemory.Construction.Desktop.Backend
import RadishMemory.Construction.Sqlite.DerivedIndex

/-!
# The library controller

The controller keeps the catalog page and the selection that the desktop shows, and forwards the
user's choice to its library.  A refresh that fails after a commit is kept as an error of its own.
-/

namespace RadishMemory
namespace Desktop

variable [Platform]

def catalogPageSize : Nat := 200

def searchResultLimit : Nat := 50

structure LibraryView where
  sources : List SourceLineageSummary := []
  selectedLineageId : Option Identifier := none
  versions : List SourceVersionSummary := []
  selectedSourceId : Option Identifier := none
  searchResults : List SourceSearchResult := []

def LibraryView.fromReadSnapshot (snapshot : LibraryReadSnapshot) : LibraryView :=
  { sources := snapshot.sources
    selectedLineageId := snapshot.selectedLineageId
    versions := snapshot.versions
    selectedSourceId := snapshot.selectedSourceId
    searchResults := [] }

structure LibraryController where
  library : Library
  refreshError : Option DesktopError
  view : LibraryView

namespace LibraryController

variable {ω ε α : Type} (host : Host ω)

def fromEncryptedSnapshot (snapshot : LibraryReadSnapshot) : LibraryController :=
  { library := .encrypted none none
    refreshError := none
    view := .fromReadSnapshot snapshot }

def backend (x : Method (Situated ω Library) ε α) : Method (Situated ω LibraryController) ε α :=
  within library (fun controller library => { controller with library }) x

def onView (f : LibraryView → LibraryView) : Method (Situated ω LibraryController) ε Unit :=
  update fun controller => { controller with view := f controller.view }

/-- A question to the library, whichever it is. -/
def read (call : LibraryCall) : Method (Situated ω LibraryController) DesktopError call.Answer :=
  (backend (ask host call)).mapError appError

def requireNoOriginal : Method (Situated ω LibraryController) DesktopError Unit := do
  .refuseIf (← self).library.holdsOriginal recoveryRequired

def selectLineage (lineageId : Identifier) :
    Method (Situated ω LibraryController) DesktopError Unit := do
  let source ← .ofExcept (((← self).view.sources.find? fun source =>
    source.lineageId = lineageId).orError selectionInvalid)
  let versions ← read host (.listSourceVersions lineageId)
  onView fun view =>
    { view with
      selectedLineageId := some lineageId
      selectedSourceId := some source.currentSourceId
      versions }

def selectSourceVersion (sourceId : Identifier) :
    Method (Situated ω LibraryController) DesktopError Unit := do
  .refuseIf (!(← self).view.versions.any fun version => version.sourceId = sourceId)
    selectionInvalid
  onView fun view => { view with selectedSourceId := some sourceId }

/-- The lineage that was selected before, if the page still has it, or the first of the page. -/
def selectedAfterRefresh (previous : Option Identifier) (sources : List SourceLineageSummary) :
    Option Identifier :=
  (previous.filter fun lineageId => sources.any fun source => source.lineageId = lineageId).or
    (sources.head?.map SourceLineageSummary.lineageId)

def refreshSources : Method (Situated ω LibraryController) DesktopError Unit := do
  let previous := (← self).view.selectedLineageId
  onView fun _ => {}
  let sources ← read host (.listSources 0 catalogPageSize)
  onView fun view => { view with sources }
  match selectedAfterRefresh previous sources with
  | some lineageId => selectLineage host lineageId
  | none =>
    onView fun view =>
      { view with selectedLineageId := none, selectedSourceId := none, versions := [] }

def refreshEncryptedSnapshot :
    Method (Situated ω LibraryController) DesktopError LibraryReadSnapshot := do
  let controller ← self
  update fun controller => { controller with view := {}, refreshError := none }
  match controller.library with
  | .plain => throw recoveryRequired
  | .encrypted _ _ =>
    let snapshot ← read host
      (.readSnapshot controller.view.selectedLineageId catalogPageSize)
    onView fun _ => .fromReadSnapshot snapshot
    return snapshot

/-- A new controller of a library. -/
def fromLibrary {σ : Type} (library : Library) :
    Method (Situated ω σ) DesktopError LibraryController :=
  build { library, refreshError := none, view := {} } (refreshSources host)

/-- What `refresh_after_commit` does; its error is kept. -/
def refreshSelecting (selected : Option Identifier) :
    Method (Situated ω LibraryController) DesktopError Unit := do
  refreshSources host
  match selected with
  | some lineage => selectLineage host lineage
  | none => return ()

def refreshAfterCommit (selected : Option Identifier) :
    Method (Situated ω LibraryController) DesktopError Unit := do
  let refreshed ← (refreshSelecting host selected).attempt
  update fun controller => { controller with refreshError := refreshed.error? }

def importSource (request : FileReadRequest) :
    Method (Situated ω LibraryController) DesktopError FileCaptureReceipt := do
  requireNoOriginal
  let receipt ← (backend (Library.importNewSource host request)).mapError appError
  refreshAfterCommit host (some receipt.lineageId)
  return receipt

def updateSelected (request : FileReadRequest) :
    Method (Situated ω LibraryController) DesktopError FileCaptureReceipt := do
  let lineageId ← .ofExcept ((← self).view.selectedLineageId.orError selectionInvalid)
  requireNoOriginal
  let receipt ← (backend (Library.updateSource host lineageId request)).mapError appError
  refreshAfterCommit host (some receipt.lineageId)
  return receipt

def exportSelected (request : FileExportRequest) :
    Method (Situated ω LibraryController) DesktopError Unit := do
  let sourceId ← .ofExcept ((← self).view.selectedSourceId.orError selectionInvalid)
  read host (.exportSource sourceId request)

def search (query : String) : Method (Situated ω LibraryController) DesktopError Unit := do
  onView fun view => { view with searchResults := [] }
  if query.toList.all isWhiteSpace then return ()
  else
    let query ← .ofExcept ((NonEmptyText.new query).mapError fun _ => selectionInvalid)
    let results ← read host (.searchSources query searchResultLimit)
    onView fun view => { view with searchResults := results }

def deleteSelectedLineage :
    Method (Situated ω LibraryController) DesktopError DeletionEvidence := do
  let lineageId ← .ofExcept ((← self).view.selectedLineageId.orError selectionInvalid)
  requireNoOriginal
  let evidence ← (backend (Library.deleteSourceLineage host lineageId)).mapError appError
  onView fun view =>
    { view with
      searchResults := []
      selectedLineageId := none
      selectedSourceId := none
      versions := [] }
  refreshAfterCommit host none
  return evidence

def verify : Method (Situated ω LibraryController) DesktopError Unit :=
  read host .verifyLibrary

def rebuild : Method (Situated ω LibraryController) DesktopError Unit := do
  read host .rebuildRecall
  refreshAfterCommit host none

end LibraryController

end Desktop
end RadishMemory
