import TestBench.Failure

/-!
# Tools

The programs that a run calls, and what they answer. A command is built up from the name of a
program; an answer counts as a failure unless its status is zero (`check_eq_ok_iff`).
-/

namespace TestBench

/-- A call of a program: its arguments, the directory it is to run in, and the environment that
    is set for it, later settings of a key overriding earlier ones. -/
structure ToolCommand where
  program : String
  args : List String
  directory : Option Path
  environment : List (String × String)
deriving Repr, DecidableEq

namespace ToolCommand

/-- A program called without arguments. -/
def ofProgram (program : String) : ToolCommand := ⟨program, [], none, []⟩

/-- The command with more arguments. -/
def addArgs (c : ToolCommand) (args : List String) : ToolCommand :=
  { c with args := c.args ++ args }

/-- The command with one more argument. -/
def addArg (c : ToolCommand) (arg : String) : ToolCommand :=
  c.addArgs [arg]

/-- The command run in a directory. -/
def inDirectory (c : ToolCommand) (directory : Path) : ToolCommand :=
  { c with directory := some directory }

/-- The command with one more setting in its environment. -/
def withVariable (c : ToolCommand) (key value : String) : ToolCommand :=
  { c with environment := c.environment ++ [(key, value)] }

/-- The command as a line. -/
def display (c : ToolCommand) : String :=
  " ".intercalate (c.program :: c.args)

end ToolCommand

/-- What a tool leaves behind when it ends. -/
structure ToolOutput where
  status : Int
  stdout : String
  stderr : String
deriving Repr, DecidableEq

namespace ToolOutput

/-- Whether the tool succeeded. -/
def success (o : ToolOutput) : Bool := o.status == 0

/-- The output of a tool that succeeded. -/
def check (o : ToolOutput) (tool : String) : Except Failure ToolOutput :=
  if o.success then .ok o else .error (.toolFailed tool o.status o.stdout o.stderr)

/-- The output passes if the status is zero, and then it is passed on as it is. -/
theorem check_eq_ok_iff {o o' : ToolOutput} {tool : String} :
    o.check tool = .ok o' ↔ o.status = 0 ∧ o' = o := by
  by_cases h : o.status = 0
  · simp [check, success, h, eq_comm]
  · simp [check, success, h]

end ToolOutput

end TestBench
