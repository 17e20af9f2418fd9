import TestBench.TestModule
import TestBench.Workspace.Lock

/-!
# Runs

A run has stages: it prepares its workspace, generates a test module, executes it and reports.
Before it touches the workspace it validates and takes the lock, and afterwards it cleans up,
whether or not a stage failed. What the stages do is left open here.

* `run_of_invalid`: a run that is not valid does nothing.
-/

namespace TestBench

/-- What a run leaves: the test module and the first page of the report. -/
structure Summary where
  modulePath : Path
  reportIndex : Path
deriving Repr, DecidableEq

/-- The stages of a run, and the workspace they share. -/
structure Stages (σ : Type) where
  workspace : Workspace
  validate : Action σ Unit
  prepare : Action σ Path
  generate : Path → Action σ TestModule
  execute : TestModule → Action σ ToolOutput
  report : TestModule → Action σ Path
  cleanup : Action σ Unit

namespace Stages

variable {σ : Type}

/-- Reports what a tool wrote, unless that is blank. -/
def reportOutput (title text : String) : Action σ Unit :=
  if (Text.trim text).isEmpty then pure ()
  else Action.report .debug .engine s!"{title}:\n{Text.trimEnd text}"

/-- The stages that work in the workspace, one after the other. -/
def work (s : Stages σ) : Action σ Summary := do
  Action.report .info .engine "Preparing workspace..."
  let clone ← s.prepare
  Action.report .info .engine "Generating test module..."
  let testModule ← s.generate clone
  Action.report .info .engine "Running generated tests..."
  let output ← s.execute testModule
  reportOutput "Test output" output.stdout
  reportOutput "Test diagnostics" output.stderr
  Action.report .info .engine "Collecting coverage..."
  let reportIndex ← s.report testModule
  return ⟨s.workspace.modulePath testModule.fileName, reportIndex⟩

/-- Cleans up. A failure to do so is only reported. -/
def cleanUp (s : Stages σ) : Action σ Unit := do
  match ← Action.attempt s.cleanup with
  | .ok _ => pure ()
  | .error (.failure failure) =>
    Action.report .warn .engine s!"Workspace cleanup failed: {failure.message}"
  | .error .crash => Action.crash

/-- The stages that work in the workspace, and then the cleaning, unless the program breaks
    down. -/
def workAndCleanUp (s : Stages σ) : Action σ Summary := do
  match ← Action.attempt s.work with
  | .error .crash => Action.crash
  | result =>
    s.cleanUp
    Action.ofResult result

/-- A run. -/
def run (s : Stages σ) : Action σ Summary := do
  s.validate
  s.workspace.whileLocked s.workAndCleanUp

/-- A run that is not valid does nothing but validate. -/
theorem run_of_invalid {s : Stages σ} {w w' : World σ} {h : Halt}
    (hv : s.validate.run w = (.error h, w')) : s.run.run w = (.error h, w') := by
  simp only [run, Action.run_bind, hv]

end Stages

end TestBench
