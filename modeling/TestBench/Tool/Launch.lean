import TestBench.Shell.Run
import TestBench.World

/-!
# Launching tools

Tools that are run, with no input and for a limited time. A tool that cannot be started is one
failure, and one that takes too long is another; any other ends with a status, which is one if a
signal ended it. What it writes is read leniently, since it need not be text.

* `run`: a tool that is run in a system.
-/

namespace TestBench.Launch

open Shell

variable {σ : Type}

/-- How tools are run: the time that one has, in milliseconds, and the variables that all get. -/
structure Setup where
  timeout : Nat
  settings : Variables
deriving Repr, DecidableEq

/-- The number of commands that a tool may run in its time. -/
def maxSteps : Nat := 200000

/-- The depth of scripts in scripts that is followed. -/
def maxDepth : Nat := 200

/-- Whether a text holds a zero byte. -/
def hasZero (text : String) : Bool :=
  text.toList.contains (Char.ofNat 0)

/-- Whether a command holds a zero byte. -/
def holdsZero (c : ToolCommand) : Bool :=
  hasZero c.program || c.args.any hasZero || c.directory.any (hasZero ·.text) ||
    c.environment.any fun (k, v) => hasZero k || hasZero v

/-- The variables that a command gets, as byte strings: its own come before those for all. -/
def environment (setup : Setup) (c : ToolCommand) : List (ByteString × ByteString) :=
  (c.environment.reverse ++ setup.settings).map fun (k, v) => (.ofText k, .ofText v)

/-- Where a command runs, and what. -/
def start (setup : Setup) (c : ToolCommand) (t : FileTree) :
    Except Fault (FileTree × Executable) := do
  if holdsZero c then throw .zeroInArgument
  let here ← match c.directory with
    | some p => t.directory p
    | none => pure t.here
  let t := { t with here }
  let searchPath := (Variables.value? (environment setup c) "PATH").getD
    Executable.standardSearchPath
  match Executable.search t searchPath (.ofText c.program) with
  | .ok (.unmarked _ _) => throw (.system .notExecutable)
  | .ok e => return (t, e)
  | .error e => throw (.system e)

/-- The variables of a session that starts with others. Only names are taken. -/
def sessionVariables (vs : List (ByteString × ByteString)) (here : Location) :
    List (List Char × Variable) :=
  let named := vs.filter fun v => (Word.splitName v.1.toList).2 = [] && v.1 ≠ "IFS" && v.1 ≠ ""
  let exported := named.map fun v => (v.1.toList, ⟨v.2.toList, true⟩)
  if exported.any (·.1 = "PWD".toList) then exported
  else exported ++ [("PWD".toList, ⟨(FileTree.pathOf here).text.toList, false⟩)]

/-- The session in which a tool starts: no input, and two outputs. -/
def session (setup : Setup) (c : ToolCommand) (t : FileTree) : Session :=
  { files := t
    name := .ofText c.program
    arguments := c.args.map .ofText
    settings := sessionVariables (environment setup c) t.here
    functions := []
    traps := []
    streams := [(0, .nowhere), (1, .sink 0), (2, .sink 1)]
    stores := [[], []]
    status := 0
    process := 1000
    line := 1
    flow := if setup.timeout = 0 then .overdue else .on
    clock := 0
    deadline := setup.timeout
    steps := maxSteps
    loops := 0
    locals := []
    careful := false
    tested := false
    strict := false }

/-- The session in which a tool has ended. -/
def finish (setup : Setup) (c : ToolCommand) (t : FileTree) (e : Executable) : Session :=
  let s := session setup c t
  s.andThen (Run.execute (Shell.run maxDepth) e s.name s.arguments)

/-- What a session leaves of a tool. There is nothing if it was overdue. -/
def output? (s : Session) : Option ToolOutput :=
  let text := fun n => Utf8.lossy (s.store n).reverse
  match s.flow with
  | .overdue => none
  | .killed _ => some ⟨1, text 0, text 1⟩
  | _ => some ⟨s.status, text 0, text 1⟩

/-- Reports something about a tool. -/
def report (message : String) (w : World σ) : World σ :=
  { w with events := w.events ++ [⟨.debug, .process, message⟩] }

/-- Runs tools. -/
def run (setup : Setup) : Runner σ := fun c w =>
  let w := report s!"Running: {c.display}" w
  match start setup c w.files with
  | .error fault => (.error (.toolNotStarted c.program fault), w)
  | .ok (t, e) =>
    let s := finish setup c t e
    let w := { w with files := { s.files with here := w.files.here } }
    match output? s with
    | none => (.error (.toolTimedOut c.program (setup.timeout / 1000)), w)
    | some o => (.ok o, report s!"{c.program} exited with status {o.status}" w)

end TestBench.Launch
