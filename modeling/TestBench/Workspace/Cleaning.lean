import TestBench.Workspace.Basic
import TestBench.World

/-!
# Cleaning a workspace

What a run leaves behind in its workspace is removed: the clone with everything in it, and the
files in the root that come from building and from measuring coverage. The test module, the
report and everything else is kept.

* `clean`: the clone and the files from building and measuring are removed.
-/

namespace TestBench.Workspace

variable {σ : Type}

/-- The extensions of files that come from building and from measuring coverage. -/
def buildExtensions : List String := ["so", "o", "gcda", "gcno", "gcov"]

/-- What the names of the sources start with that a test module writes. -/
def generatedStart : List Char := "_test_".toList

/-- Whether a path leads to something that a run leaves behind. -/
def isArtifact (p : Path) : Bool :=
  let name := (p.fileName?.bind ByteString.text?).getD ""
  let extension := (p.extension?.bind ByteString.text?).getD ""
  name == coverageName || buildExtensions.contains extension ||
    (generatedStart.isPrefixOf name.toList && extension == "c")

/-- Removes the clone, if there is one. -/
def removeClone (w : Workspace) : Action σ Unit := do
  match ← Action.tryRequest (.removeTree w.clone) with
  | .ok _ => Action.report .debug .workspace s!"Removed {w.clone.display}"
  | .error fault => if fault ≠ .system .notFound then Action.fail (.io fault)

/-- The paths of the files in the root that a run leaves behind. -/
def artifacts (w : Workspace) (t : FileTree) (l : Location) : List Path :=
  (t.children l).filterMap fun (name, e) =>
    match e with
    | .file _ _ =>
      let p := w.root.join name
      if isArtifact p then some p else none
    | _ => none

/-- Removes files, one after the other. -/
def removeFiles : List Path → Action σ Unit
  | [] => pure ()
  | p :: ps => do
    Action.request (.removeFile p)
    Action.report .debug .workspace s!"Removed {p.display}"
    removeFiles ps

/-- Removes what a run leaves behind. -/
def clean (w : Workspace) : Action σ Unit := do
  w.removeClone
  let t ← Action.files
  match t.directory w.root with
  | .ok l => removeFiles (w.artifacts t l)
  | .error _ => pure ()

end TestBench.Workspace
