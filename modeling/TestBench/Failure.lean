import TestBench.Fault
import TestBench.Path
import TestBench.Text.Blank

/-!
# Failures

Everything that can go wrong in a run is a `Failure`, by its cause. From the cause follow the
wording, the exit status of the program and the hint that goes with it. A failure of a tool
passes on the status of the tool, but never as success: `exitCode_ne_zero`.

A computation that does not end in a value ends in a failure or in a crash (`Halt`), which no
rule of the program foresees.
-/

namespace TestBench

/-- What went wrong. -/
inductive Failure where
  | io (fault : Fault)
  | configuration (problem : String)
  /-- The text of the configuration is not in its format. -/
  | notConfiguration (problem : String)
  | missingKey (key : String)
  | invalidValue (field value reason : String)
  | noSuchFile (root : Path) (extension : String)
  | unreadableSource (path : Path) (fault : Fault)
  | placeholder (token : String) (occurrences : Nat)
  | toolFailed (tool : String) (status : Int) (stdout stderr : String)
  | toolNotStarted (tool : String) (fault : Fault)
  | toolTimedOut (tool : String) (seconds : Nat)
  | locked (lockFile : Path)
deriving Repr, DecidableEq

namespace Failure

/-- The wording of a failure. -/
def message : Failure → String
  | .io fault => s!"IO error: {fault.message}"
  | .configuration problem => s!"Configuration error: {problem}"
  | .notConfiguration problem => s!"Configuration error: TOML parsing error: {problem}"
  | .missingKey key => s!"Missing configuration key: {key}"
  | .invalidValue field value reason => s!"Invalid value '{value}' for {field}: {reason}"
  | .noSuchFile root extension => s!"No '.{extension}' file found under {root.display}"
  | .unreadableSource path fault => s!"Cannot read source file {path.display}: {fault.message}"
  | .placeholder token occurrences =>
    s!"Template error: placeholder {token} occurs {occurrences} times, expected exactly once"
  | .toolFailed tool status _ _ => s!"`{tool}` exited with status {status}"
  | .toolNotStarted tool fault => s!"Failed to start `{tool}`: {fault.message}"
  | .toolTimedOut tool seconds => s!"`{tool}` timed out after {seconds}s"
  | .locked lockFile => s!"Workspace {lockFile.display} is locked by another run"

/-- The exit status of a program that ends with a failure: a tool passes on its own. -/
def exitCode : Failure → Int
  | .toolFailed _ status _ _ => if status = 0 then 1 else status
  | .configuration _ | .notConfiguration _ | .missingKey _ | .invalidValue .. => 2
  | .noSuchFile .. | .unreadableSource .. | .placeholder .. => 3
  | .toolNotStarted .. => 127
  | .toolTimedOut .. => 124
  | .locked _ | .io _ => 1

/-- The wording for the user: of a tool, what it wrote to its error stream is added. -/
def userMessage : Failure → String
  | .toolFailed tool status _ stderr =>
    let detail := Text.trim stderr
    if detail.isEmpty then s!"{tool} failed with exit status {status}"
    else s!"{tool} failed with exit status {status}:\n{detail}"
  | failure => failure.message

/-- What the user may do about a failure. -/
def suggestion : Failure → String
  | .configuration _ | .notConfiguration _ | .missingKey _ =>
    "Check that cscaffold.toml exists and defines git_repo_url, unittest_c_file and " ++
      "unittest_header_file under [project]"
  | .invalidValue .. =>
    "Use a repository URL of the form https://github.com/<org>/<repo> or " ++
      "git@github.com:<org>/<repo>"
  | .noSuchFile .. => "Verify that the repository contains the expected .c and .h files"
  | .unreadableSource .. => "Make sure the source file is readable UTF-8 text"
  | .placeholder .. =>
    "The template must contain __HEADER_DEFINITIONS__ and __FUNCTIONS_IMPLEMENTATION__ " ++
      "exactly once each"
  | .toolFailed .. => "Inspect the tool output above and rerun with --verbose"
  | .toolNotStarted .. =>
    "Install the missing tool (git, python3, gcov, lcov, genhtml) and make sure it is on PATH"
  | .toolTimedOut .. => "Raise tool_timeout_secs in cscaffold.toml or check network connectivity"
  | .locked _ => "Wait for the other run to finish, or remove the stale lock file"
  | .io _ => "Check file permissions in the workspace directory"

/-- No failure looks like success. -/
theorem exitCode_ne_zero (f : Failure) : f.exitCode ≠ 0 := by
  cases f with
  | toolFailed tool status stdout stderr => rw [exitCode]; split <;> simp_all
  | _ => simp [exitCode]

end Failure

/-- How a computation ends that gives no value. -/
inductive Halt where
  | failure (failure : Failure)
  /-- The program itself breaks down. -/
  | crash
deriving Repr, DecidableEq

end TestBench
