import TestBench.Path

/-!
# Workspaces

The directory that a run works in: it clones into it, builds in it and leaves its report
there. All paths of a run are its root with a name below it.
-/

namespace TestBench

/-- A workspace: its root, and the names of the clone and of the report in it. -/
structure Workspace where
  root : Path
  cloneName : ByteString
  reportName : ByteString
deriving Repr, DecidableEq

namespace Workspace

/-- The name of the file that locks a workspace. -/
def lockName : ByteString := ".cscaffold.lock"

/-- The name of the file that the coverage data are collected in. -/
def coverageName : ByteString := "coverage.info"

/-- Where the repository is cloned to. -/
def clone (w : Workspace) : Path := w.root.join w.cloneName

/-- Where the report is written. -/
def report (w : Workspace) : Path := w.root.join w.reportName

/-- Where the report starts. -/
def reportIndex (w : Workspace) : Path := w.report.join "index.html"

/-- Where the coverage data are collected. -/
def coverageData (w : Workspace) : Path := w.root.join coverageName

/-- The file that locks the workspace as long as it is there. -/
def lockFile (w : Workspace) : Path := w.root.join lockName

/-- Where a test module is written. -/
def modulePath (w : Workspace) (fileName : String) : Path := w.root.join (.ofText fileName)

end Workspace

end TestBench
