import TestBench.FileTree.Request
import TestBench.Options.Basic
import TestBench.Options.Variables
import TestBench.Toml.Document

/-!
# Reading options

The options of a project are what its description says under `project`. That may be a table,
whose other keys do not count, or an array with all options in their order. Each option has a
kind of its own, and a value of another kind makes the whole description invalid.

* `read`: the options that a description names.
-/

namespace TestBench.Options

/-- Why a configuration describes no project. -/
inductive Fault where
  | unreadable (fault : Toml.Fault)
  | noProject
  | wrongKind
deriving Repr, DecidableEq

/-- The wording of a fault. -/
def Fault.message : Fault → String
  | .unreadable fault => fault.message
  | .noProject => "no table with the name project"
  | .wrongKind => "a value of a wrong kind"

/-- A text. -/
def text? : Toml.Value → Option String
  | .string text => some text
  | _ => Option.none

/-- A path. -/
def path? (v : Toml.Value) : Option Path :=
  (text? v).map Path.ofText

/-- A list of texts. -/
def texts? : Toml.Value → Option (List String)
  | .array items => items.mapM text?
  | _ => Option.none

/-- A number of seconds. -/
def seconds? : Toml.Value → Option Nat
  | .integer (.ofNat n) => if n < Nat.pow 2 64 then some n else Option.none
  | _ => Option.none

/-- The keys of the options, in their order. -/
def keys : List String :=
  ["git_repo_url", "unittest_c_file", "unittest_header_file", "template_file", "workspace_dir",
   "repo_dir", "report_dir", "test_command", "coverage_artifact", "tool_timeout_secs"]

/-- An option that may be missing. There is nothing if its value is of another kind. -/
def optional {α : Type} (kind : Toml.Value → Option α) :
    Option Toml.Value → Option (Option α)
  | some v => (kind v).map some
  | Option.none => some Option.none

/-- The options with the given values, in the order of the keys. -/
def ofValues? : List (Option Toml.Value) → Option Options
  | [repository, implementation, header, template, workspaceRoot, cloneName, reportName,
      testCommand, artifact, timeout] => do
    return {
      repository := ← optional text? repository
      implementation := ← optional text? implementation
      header := ← optional text? header
      template := ← optional path? template
      workspaceRoot := ← optional path? workspaceRoot
      cloneName := ← optional text? cloneName
      reportName := ← optional text? reportName
      testCommand := ← optional texts? testCommand
      artifact := ← optional text? artifact
      timeout := ← optional seconds? timeout }
  | _ => Option.none

/-- The options in a table. -/
def ofTable? (t : Toml.Table) : Option Options :=
  ofValues? (keys.map t.find?)

/-- The options that a value gives. A date has no keys, and so gives none. -/
def ofValue? : Toml.Value → Option Options
  | .table _ entries => ofTable? entries
  | .array items => ofValues? ((items.take keys.length).map some)
  | .moment => some none
  | _ => Option.none

/-- The options in a configuration. -/
def ofConfiguration (t : Toml.Table) : Except Fault Options :=
  match t.find? "project" with
  | Option.none => .error .noProject
  | some v =>
    match ofValue? v with
    | some o => .ok o
    | Option.none => .error .wrongKind

/-- The options that a text describes, without regard to variables. -/
def ofText (text : String) : Except Fault Options :=
  match Toml.read text with
  | .ok t => ofConfiguration t
  | .error fault => .error (.unreadable fault)

/-- The options that a text describes. -/
def read (vs : Variables) (text : String) : Except Failure Options :=
  (ofText (String.ofList (vs.substitute text.toList))).mapError
    fun fault => .notConfiguration fault.message

/-- The options that a file describes. -/
def fromFile (vs : Variables) (t : FileTree) (p : Path) : Except Failure Options :=
  match t.readText p with
  | .ok text => read vs text
  | .error fault => .error (.configuration s!"cannot read {p.display}: {fault.message}")

end TestBench.Options
