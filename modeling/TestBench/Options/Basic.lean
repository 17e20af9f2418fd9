import TestBench.Check
import TestBench.Repository
import TestBench.Workspace.Basic

/-!
# Options of a project

What the description of a project may say. Every option may be left out; `settings` and
`workspace` say what then holds. Before a run, the options are checked one after the other, and
the first that is refused is reported.

* `check_eq_ok_iff`: the options pass if each of the checks passes.
-/

namespace TestBench

/-- The options of a project, as far as they are given. -/
structure Options where
  repository : Option String
  implementation : Option String
  header : Option String
  template : Option Path
  workspaceRoot : Option Path
  cloneName : Option String
  reportName : Option String
  testCommand : Option (List String)
  artifact : Option String
  timeout : Option Nat
deriving Repr, DecidableEq

/-- What a run goes by. A run without a template uses the bundled one, and one without an
    artifact derives it from the test module. The timeout is in seconds. -/
structure Settings where
  repository : String
  implementation : String
  header : String
  template : Option Path
  testCommand : List String
  artifact : Option String
  timeout : Nat
deriving Repr, DecidableEq

namespace Options

/-- No option is given. -/
def none : Options :=
  ⟨.none, .none, .none, .none, .none, .none, .none, .none, .none, .none⟩

/-- What holds for a run. -/
def settings (o : Options) : Settings :=
  { repository := o.repository.getD ""
    implementation := o.implementation.getD ""
    header := o.header.getD ""
    template := o.template
    testCommand := o.testCommand.getD ["python3"]
    artifact := o.artifact
    timeout := o.timeout.getD 600 }

/-- The workspace of a run. -/
def workspace (o : Options) : Workspace :=
  { root := o.workspaceRoot.getD ⟨"."⟩
    cloneName := .ofText (o.cloneName.getD "cloned_repo")
    reportName := .ofText (o.reportName.getD "coverage_report") }

/-- Checks the value of an option, if it is given. -/
def checkGiven {α : Type} (value : Option α) (f : α → Except Failure Unit) :
    Except Failure Unit :=
  match value with
  | some v => f v
  | .none => .ok ()

/-- Checks the value of an option that has to be given. -/
def checkRequired (field : String) (value : Option String) (f : String → Except Failure Unit) :
    Except Failure Unit :=
  match Check.required field value with
  | .ok v => f v
  | .error failure => .error failure

/-- The checks, in their order. -/
def checks (o : Options) : List (Except Failure Unit) :=
  [checkRequired "git_repo_url" o.repository (Repository.check "git_repo_url"),
   checkRequired "unittest_c_file" o.implementation (Check.fileName "unittest_c_file" · "c"),
   checkRequired "unittest_header_file" o.header (Check.fileName "unittest_header_file" · "h"),
   checkGiven o.template fun p => Check.path "template_file" p.display,
   checkGiven o.workspaceRoot fun p => Check.path "workspace_dir" p.display,
   checkGiven o.cloneName (Check.directoryName "repo_dir"),
   checkGiven o.reportName (Check.directoryName "report_dir"),
   checkGiven o.testCommand fun words => Check.nonBlank "test_command" (words.headD ""),
   checkGiven o.artifact (Check.nonBlank "coverage_artifact"),
   checkGiven o.timeout (Check.atLeast "tool_timeout_secs" · 1)]

/-- The first failure among results. -/
def firstFailure : List (Except Failure Unit) → Except Failure Unit
  | [] => .ok ()
  | .ok _ :: rs => firstFailure rs
  | .error failure :: _ => .error failure

/-- Checks the options. -/
def check (o : Options) : Except Failure Unit :=
  firstFailure o.checks

/-- Without a failure among them, all results are good. -/
theorem firstFailure_eq_ok_iff {rs : List (Except Failure Unit)} :
    firstFailure rs = .ok () ↔ ∀ r ∈ rs, r = .ok () := by
  induction rs with
  | nil => simp [firstFailure]
  | cons r rs ih =>
    cases r with
    | ok u => cases u; simp [firstFailure, ih]
    | error f => simp [firstFailure]

/-- The options pass if each of the checks passes. -/
theorem check_eq_ok_iff {o : Options} : o.check = .ok () ↔ ∀ r ∈ o.checks, r = .ok () :=
  firstFailure_eq_ok_iff

end Options

end TestBench
