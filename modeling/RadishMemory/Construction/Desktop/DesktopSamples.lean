import RadishMemory.Construction.Desktop.Retention
import RadishMemory.Construction.Samples

/-!
# A sample host

A host whose encrypted library opens, prepares a capture and fails to write it, and lists an
uncommitted capture until it has been abandoned.
-/

namespace RadishMemory
namespace Desktop

namespace DesktopSample

open Sample

/-- The capture that the host prepares. -/
def prepared : SourceCapture :=
  capture (identifier "prepared-source") (identifier "prepared-lineage")
    (identifier "prepared-fragment")
    (identifier "origin-binding-000000000000000000000000000000a1")

/-- The row of the capture that the host prepares. -/
def own : CaptureAbandonmentTarget :=
  { source := "prepared-source", requestDigest := "a", attempt := "1" }

/-- The row of a capture of another process. -/
def other : CaptureAbandonmentTarget :=
  { source := "source-2", requestDigest := "b", attempt := "2" }

def unavailable : ApplicationFailureSummary :=
  { code := .sourceVault, retryable := true }

def emptySnapshot : LibraryReadSnapshot :=
  { sources := []
    selectedLineageId := none
    selectedSourceId := none
    versions := []
    abandonmentTarget := none
    deletionRequests := [] }

/-- Its state tells whether the capture was abandoned. -/
def host (target : CaptureAbandonmentTarget) : Host Bool where
  loadProfile abandoned :=
    (.ok { namespaceId := namespaceId, deviceId := identifier "device-1" }, abandoned)
  loadOrCreateHostProfile abandoned :=
    (.ok { namespaceId := namespaceId, deviceId := identifier "device-1" }, abandoned)
  beginTrace abandoned := (true, abandoned)
  endTrace abandoned := (true, abandoned)
  answer
    | .phase1Local _, abandoned => (.ok (), abandoned)
    | .withProvider _, abandoned => (.ok (), abandoned)
    | .openWithSnapshot _, abandoned => (.ok emptySnapshot, abandoned)
    | .prepareImportNewSource _, abandoned => (.ok prepared, abandoned)
    | .captureSource _, abandoned => (.error unavailable, abandoned)
    | .inspectCaptureAbandonment, abandoned =>
      (.ok (if abandoned then none else some target), abandoned)
    | .unfinishedDeleteRequests, abandoned => (.ok [], abandoned)
    | .listSources _ _, abandoned => (.ok [], abandoned)
    | .abandonCapture _, _ => (.ok (), true)
    | _, abandoned => (.error unavailable, abandoned)

/-- An import that fails, and the abandonment of the capture that is listed then. -/
def commands : List Command :=
  [.openEncrypted, .importSource { selectedPath := "note.md", allowedRoots := [] },
    .inspectRecovery, .abandon]

/-- What a worker does with them. -/
def run (target : CaptureAbandonmentTarget) : List Execution :=
  executions (host target) (.start none) false commands

end DesktopSample

end Desktop
end RadishMemory
