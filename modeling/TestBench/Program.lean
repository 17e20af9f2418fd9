import TestBench.Arguments
import TestBench.Log.Filter
import TestBench.Options.Reading
import TestBench.Project
import TestBench.Tool.Launch

/-!
# The program

The program reads its arguments and its configuration, tells what it is going to do, and does it:
a run of the project, or nothing if the run is to be a dry one. It writes lines and events to its
output, and the reason for a failure to its error output. All this is a function of the
arguments, the variables and the files.

* `status_failing`: a failure is not hidden by the exit status, unless its code is a multiple
  of 256.
-/

namespace TestBench

/-- What is written to the output. -/
inductive Printed where
  | line (text : String)
  | event (e : Event)
deriving Repr, DecidableEq

/-- What a program leaves: its exit status, what it wrote, and the files. -/
structure Outcome where
  status : Nat
  printed : List Printed
  errors : String
  files : FileTree
deriving Repr, DecidableEq

namespace Program

/-- An event of the program itself. -/
def said (level : Level) (message : String) : Printed :=
  .event ⟨level, .program, message⟩

/-- The exit status that a code becomes. -/
def exitStatus (code : Int) : Nat :=
  (code % 256).toNat

/-- The status of a program that breaks down. -/
def crashStatus : Nat := 101

/-- What a failing tool wrote to its output, unless that is blank. -/
def toolOutput : Failure → String
  | .toolFailed _ _ stdout _ =>
    if (Text.trim stdout).isEmpty then "" else Text.trimEnd stdout ++ "\n"
  | _ => ""

/-- How the program ends with a failure. -/
def failing (printed : List Printed) (failure : Failure) (files : FileTree) : Outcome :=
  { status := exitStatus failure.exitCode
    printed := printed ++
      [said .error s!"{failure.message} (exit code {failure.exitCode})",
       said .error s!"Suggestion: {failure.suggestion}"]
    errors := toolOutput failure ++ s!"error: {failure.userMessage}\nhint: {failure.suggestion}\n"
    files }

/-- What the program is going to do, line by line. -/
def summary (o : Options) (dryRun : Bool) : List String :=
  let s := o.settings
  let w := o.workspace
  ["Configuration Summary:",
   s!"  Repository: {s.repository}",
   s!"  C file: {s.implementation}",
   s!"  Header: {s.header}",
   match s.template with
   | some p => s!"  Template: {p.display}"
   | none => "  Template: bundled cffi harness",
   s!"  Workspace: {w.root.display}",
   s!"  Report: {w.report.display}",
   "  Test command: " ++ " ".intercalate s.testCommand,
   s!"  Tool timeout: {s.timeout}s"] ++
    (if dryRun then ["  DRY RUN MODE ENABLED"] else []) ++ [""]

/-- The options in the configuration, which have to pass the checks. -/
def options (vs : Variables) (files : FileTree) (p : Path) : Except Failure Options := do
  let o ← Options.fromFile vs files p
  o.check
  return o

/-- The lines about what a run left. -/
def results (s : Summary) : List String :=
  [s!"Test module: {s.modulePath.display}", s!"Coverage report: {s.reportIndex.display}"]

/-- Runs a project, after something was written. -/
def runProject (printed : List Printed) (o : Options) (vs : Variables) (files : FileTree) :
    Outcome :=
  let runner := Launch.run ⟨1000 * o.settings.timeout, vs⟩
  let stages : Stages Unit := Project.stages o.settings o.workspace runner
  let (result, w) := stages.run.run ⟨files, [], (), []⟩
  let printed := printed ++ w.events.map Printed.event
  match result with
  | .ok s =>
    { status := 0
      printed := printed ++ (results s).map (said .info) ++ (results s).map Printed.line
      errors := ""
      files := w.files }
  | .error (.failure failure) => failing printed failure w.files
  | .error .crash => ⟨crashStatus, printed, "", w.files⟩

/-- Runs the program. All events are in its output. -/
def perform (a : Arguments) (vs : Variables) (files : FileTree) : Outcome :=
  let printed := [said .info s!"Loading configuration from: {a.configuration}"]
  match options vs files (.ofText a.configuration) with
  | .error failure => failing printed failure files
  | .ok o =>
    let printed := printed ++ [said .info "Configuration loaded and validated"] ++
      (summary o a.dryRun).map Printed.line
    if a.dryRun then
      ⟨0, printed ++ [said .info "Dry run: nothing cloned, generated or reported"], "", files⟩
    else runProject printed o vs files

/-- Whether something is shown. Only events are held back. -/
def isShown (f : Filter) : Printed → Bool
  | .line _ => true
  | .event e => f.passes e

/-- The name of the variable that tells which events are shown. -/
def filterName : String := "RUST_LOG"

/-- Runs the program, and shows the events that are asked for. -/
def run (a : Arguments) (vs : Variables) (files : FileTree) : Outcome :=
  let shown := isShown (Filter.chosen a.verbose (vs.value? filterName))
  let o := perform a vs files
  { o with printed := o.printed.filter shown }

/-- A failure is not hidden by the exit status, unless its code is a multiple of 256. -/
theorem status_failing {printed : List Printed} {failure : Failure} {files : FileTree}
    (h : failure.exitCode % 256 ≠ 0) : (failing printed failure files).status ≠ 0 := by
  have := Int.emod_nonneg failure.exitCode (by decide : (256 : Int) ≠ 0)
  simp only [failing, exitStatus]
  omega

end Program

end TestBench
