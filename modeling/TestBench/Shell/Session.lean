import TestBench.FileTree.Request
import TestBench.Options.Variables
import TestBench.Shell.Command
import TestBench.Shell.Pattern

/-!
# Sessions of a shell

What a shell knows while it carries out a script: the files, variables and arguments, where its
descriptors lead, and how the last command ended. A shell works on bytes, so that all its texts
are byte strings, with one character for each byte. Time is counted and not measured: sleeping lets
it pass, and a session that has no time left is overdue, as is one that has used up its steps.

* `value?_assign`: a variable has the value that was given to it, and the others keep theirs.
-/

namespace TestBench.Shell

/-- Where a descriptor leads: to bytes that are collected, to bytes that are to be read, to the
    end of a file, or nowhere. -/
inductive Stream where
  | sink (number : Nat)
  | source (number : Nat)
  | file (location : Location)
  | nowhere
deriving Repr, DecidableEq

/-- Whether and how commands go on. -/
inductive Flow where
  | on
  /-- The given number of loops is left. -/
  | leaving (loops : Nat)
  /-- So, but the last of them goes on with its next round. -/
  | repeating (loops : Nat)
  | returning
  | exiting
  | killed (signal : Nat)
  | overdue
deriving Repr, DecidableEq

/-- The value of a variable, and whether programs that are called get it. -/
structure Variable where
  value : List Char
  exported : Bool
deriving Repr, DecidableEq

/-- The state of a shell. -/
structure Session where
  files : FileTree
  name : ByteString
  arguments : List ByteString
  settings : List (List Char × Variable)
  functions : List (List Char × Command)
  /-- What is done when a signal comes, or, with the number zero, when the script ends. -/
  traps : List (Nat × List Char)
  streams : List (Nat × Stream)
  /-- What sinks hold, the latest byte first, and what sources hold, the next byte first. -/
  stores : List (List UInt8)
  status : Nat
  process : Nat
  line : Nat
  flow : Flow
  clock : Nat
  deadline : Nat
  steps : Nat
  loops : Nat
  /-- The variables that belong to the current function. -/
  locals : List (List Char)
  /-- Whether a failing command ends the script. -/
  careful : Bool
  /-- Whether the outcome of the current command is asked for, so that it may fail. -/
  tested : Bool
  /-- Whether a variable that is not set is a fault. -/
  strict : Bool
deriving Repr, DecidableEq

namespace Session

/-! ## Variables -/

/-- The value of a variable. -/
def value? (s : Session) (name : List Char) : Option (List Char) :=
  (s.settings.find? (·.1 = name)).map (·.2.value)

/-- The session with a value given to a variable. -/
def assign (s : Session) (name value : List Char) : Session :=
  let exported := (s.settings.find? (·.1 = name)).any (·.2.exported)
  { s with settings := (name, ⟨value, exported⟩) :: s.settings.filter (·.1 ≠ name) }

/-- The session with a variable that programs get. -/
def publish (s : Session) (name : List Char) : Session :=
  let value := (s.value? name).getD []
  { s with settings := (name, ⟨value, true⟩) :: s.settings.filter (·.1 ≠ name) }

/-- The session without a variable. -/
def unset (s : Session) (name : List Char) : Session :=
  { s with settings := s.settings.filter (·.1 ≠ name) }

/-- The session with the given variables as they were in another one. -/
def restore (s : Session) (names : List (List Char)) (before : Session) : Session :=
  let kept := s.settings.filter fun v => !names.contains v.1
  { s with settings := before.settings.filter (fun v => names.contains v.1) ++ kept }

/-- What programs get. -/
def environment (s : Session) : Variables :=
  (s.settings.filter (·.2.exported)).map fun (name, v) =>
    (String.ofList name, String.ofList v.value)

/-- A variable has the value that was given to it, and the others keep theirs. -/
theorem value?_assign (s : Session) (name value name' : List Char) :
    (s.assign name value).value? name' = if name' = name then some value else s.value? name' := by
  unfold value? assign
  rw [List.find?_cons, List.find?_filter]
  by_cases h : name' = name
  · simp [h]
  · simp only [Ne.symm h, h, decide_false, if_false]
    congr 2
    funext p
    by_cases hp : p.1 = name' <;> simp [hp, h]

/-! ## Input and output -/

/-- The stream of a descriptor. A closed one has none. -/
def stream? (s : Session) (descriptor : Nat) : Option Stream :=
  (s.streams.find? (·.1 = descriptor)).map (·.2)

/-- The session with a descriptor that leads somewhere, or is closed. -/
def direct (s : Session) (descriptor : Nat) (stream : Option Stream) : Session :=
  let others := s.streams.filter (·.1 ≠ descriptor)
  { s with streams := (stream.map (descriptor, ·)).toList ++ others }

/-- The session with a new store, and the number of the store. -/
def newStore (s : Session) (bytes : List UInt8) : Session × Nat :=
  ({ s with stores := s.stores ++ [bytes] }, s.stores.length)

/-- What a store holds. -/
def store (s : Session) (number : Nat) : List UInt8 :=
  (s.stores[number]?).getD []

/-- The path of the file that holds nothing and keeps nothing. -/
def nullPath : ByteString := "/dev/null"

/-- The bytes in the file that a path leads to. -/
def content (s : Session) (path : ByteString) : Except TestBench.Fault (List UInt8) :=
  if path = nullPath then .ok [] else s.files.readBytes ⟨path⟩

/-- The session after bytes were written to a descriptor. It refuses if the descriptor is closed,
    or not to be written to. -/
def write? (s : Session) (descriptor : Nat) (bytes : List UInt8) : Option Session :=
  match s.stream? descriptor with
  | some (.sink n) => some { s with stores := s.stores.modify n (bytes.reverse ++ ·) }
  | some (.file l) =>
    match s.files.lookup l with
    | some (.file content executable) =>
      some { s with files := s.files.insert l (.file (content ++ bytes) executable) }
    | _ => some s
  | some .nowhere => some s
  | some (.source _) => none
  | none => none

/-- The session after a text was written to the descriptor for errors, as far as that is open. -/
def complain (s : Session) (text : ByteString) : Session :=
  (s.write? 2 (ByteString.bytes text)).getD s

/-- The session after a remark of the shell itself. -/
def remark (s : Session) (text : ByteString) : Session :=
  s.complain s!"{s.name}: {s.line}: {text}\n"

/-- All bytes that can be read from a descriptor, and the session without them. -/
def readAll (s : Session) (descriptor : Nat) : List UInt8 × Session :=
  match s.stream? descriptor with
  | some (.source n) => (s.store n, { s with stores := s.stores.set n [] })
  | _ => ([], s)

/-- The bytes up to the next line end, which is read as well; nothing at the end of the input. -/
def readLine (s : Session) (descriptor : Nat) : Option (List UInt8) × Session :=
  match s.stream? descriptor with
  | some (.source n) =>
    match s.store n with
    | [] => (none, s)
    | bytes =>
      (some (bytes.takeWhile (· ≠ 10)),
        { s with stores := s.stores.set n ((bytes.dropWhile (· ≠ 10)).drop 1) })
  | _ => (none, s)

/-! ## Progress -/

/-- The session in which the last command ended with a status. -/
def ended (s : Session) (status : Nat) : Session :=
  { s with status }

/-- The session in which the script ends with a status. -/
def exited (s : Session) (status : Nat) : Session :=
  { s with status := status % 256, flow := .exiting }

/-- The session in which a fault of the script ends it. -/
def failed (s : Session) (text : String) : Session :=
  (s.remark text).exited 2

/-- Whether commands go on. -/
def goesOn (s : Session) : Bool :=
  s.flow = .on

/-- The session after what follows, if commands go on. -/
def andThen (s : Session) (f : Session → Session) : Session :=
  if s.goesOn then f s else s

/-- The session after a step. -/
def step (s : Session) : Session :=
  match s.steps with
  | 0 => { s with flow := .overdue }
  | n + 1 => { s with steps := n }

/-- The session after some time. Nothing happens after the deadline. -/
def sleep (s : Session) (time : Nat) : Session :=
  if s.clock + time < s.deadline then { s with clock := s.clock + time }
  else { s with clock := s.deadline, flow := .overdue }

/-- The session that goes on when a part of it ended that has its own variables and descriptors:
    the files and the outputs stay, and so does the end of the whole process. -/
def rejoin (s : Session) (part : Session) : Session :=
  { s with
    files := { part.files with here := s.files.here }
    stores := part.stores
    status := part.status
    clock := part.clock
    steps := part.steps
    flow := match part.flow with
      | .killed signal => .killed signal
      | .overdue => .overdue
      | _ => s.flow }

end Session

end TestBench.Shell
