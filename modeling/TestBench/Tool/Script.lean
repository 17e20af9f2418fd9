import TestBench.FileTree.Fixture
import TestBench.World

/-!
# Scripted tools

Tools that do as they are told: each call is noted, puts the files in place that are planned for
the program, and gets the planned answer. A program without a plan succeeds and does nothing.

* `run`: a tool that does what is planned for it.
-/

namespace TestBench

/-- What is planned for a program. -/
structure Reply where
  fixture : Fixture
  answer : Except Failure ToolOutput

/-- The plans for programs, and the calls so far. -/
structure Script where
  replies : List (String × Reply)
  calls : List ToolCommand

namespace Script

/-- What a program without a plan does. -/
def silentReply : Reply := ⟨⟨[], [], []⟩, .ok ⟨0, "", ""⟩⟩

/-- What is planned for a program. -/
def replyTo (s : Script) (program : String) : Reply :=
  match s.replies.find? (·.1 == program) with
  | some (_, r) => r
  | none => silentReply

/-- The script with another plan for a program. -/
def withReply (s : Script) (program : String) (r : Reply) : Script :=
  { s with replies := (program, r) :: s.replies }

/-- Answers a command by the script. -/
def run : Runner Script := fun command w =>
  let r := w.tools.replyTo command.program
  (r.answer,
    { w with
      files := w.files.add r.fixture
      tools := { w.tools with calls := w.tools.calls ++ [command] } })

end Script

end TestBench
