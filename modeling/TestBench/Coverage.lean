import TestBench.Workspace.Basic
import TestBench.World

/-!
# Coverage

After the tests ran, three tools in a row turn what was measured into a report: one annotates
the source of the test module, one collects the data of the workspace, and one renders them. The
first tool that fails ends the row.

* `programs_steps`: the tools, in their order.
-/

namespace TestBench.Coverage

variable {σ : Type}

/-- The commands that make the report on an artifact. -/
def steps (w : Workspace) (artifact : String) : List ToolCommand :=
  [((ToolCommand.ofProgram "gcov").addArgs ["-b", "-c", artifact]).inDirectory w.root,
   ((ToolCommand.ofProgram "lcov").addArgs
      ["--capture", "--directory", w.root.display, "--output-file",
        w.coverageData.display]).inDirectory w.root,
   ((ToolCommand.ofProgram "genhtml").addArgs
      [w.coverageData.display, "--output-directory", w.report.display]).inDirectory w.root]

/-- Runs commands, one after the other, each of which has to succeed. -/
def runSteps (runner : Runner σ) : List ToolCommand → Action σ Unit
  | [] => pure ()
  | command :: commands => do
    Action.report .info .coverage s!"Coverage step: {command.display}"
    let output ← Action.call runner command
    let output ← Action.ofExcept (output.check command.program)
    if !(Text.trim output.stdout).isEmpty then
      Action.report .debug .coverage
        s!"{command.program} output:\n{Text.trimEnd output.stdout}"
    runSteps runner commands

/-- Makes the report on an artifact, and gives its first page. -/
def report (runner : Runner σ) (w : Workspace) (artifact : String) : Action σ Path := do
  runSteps runner (steps w artifact)
  return w.reportIndex

/-- The tools, in their order. -/
theorem programs_steps (w : Workspace) (artifact : String) :
    (steps w artifact).map ToolCommand.program = ["gcov", "lcov", "genhtml"] :=
  rfl

end TestBench.Coverage
