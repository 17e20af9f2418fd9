import TestBench.Shell.Condition
import TestBench.Shell.Expansion
import TestBench.Shell.Format

/-!
# Utilities

The programs that scripts find on every system, and those that a shell has in itself. A utility
is a change of the session: it writes, changes files, or lets time pass, and ends with a status.

* `find?`: the utility of a name.
-/

namespace TestBench.Shell

/-- A program, which gets the name by which it was called and its arguments. -/
abbrev Utility := String → List String → Session → Session

namespace Utility

/-- The session after a program wrote bytes to its output. What it says if the output is closed
    comes from `refuse`. -/
def output (refuse : Session → Session) (bytes : List UInt8) (s : Session) : Session :=
  if bytes.isEmpty then s
  else
    match s.write? 1 bytes with
    | some s => s
    | none => (refuse s).ended 1

/-- What a program of the shell itself says if its output is closed. -/
def refuseInside (name : String) (s : Session) : Session :=
  s.remark s!"{name}: {name}: I/O error"

/-- What another program says then. -/
def refuseOutside (name : String) (s : Session) : Session :=
  s.complain s!"{name}: write error: Bad file descriptor\n"

/-- The session after a program failed for a reason. -/
def fail (name reason : String) (s : Session) : Session :=
  (s.complain s!"{name}: {reason}\n").ended 1

/-- Arguments without the options among them, and the letters of the options. -/
def splitOptions : List String → List Char × List String
  | [] => ([], [])
  | arg :: args =>
    match arg.toList with
    | ['-', '-'] => ([], args)
    | '-' :: c :: cs => (c :: cs ++ (splitOptions args).1, (splitOptions args).2)
    | _ => ((splitOptions args).1, arg :: (splitOptions args).2)

/-! ## Ends -/

/-- Succeeds. -/
def succeed : Utility := fun _ _ s => s.ended 0

/-- Fails. -/
def refuse : Utility := fun _ _ s => s.ended 1

/-! ## Writing -/

/-- Whether an argument asks for no line end. -/
def asksForNoLineEnd (args : List String) : Bool :=
  args.head? == some "-n"

/-- Writes its arguments, with backslashes resolved. -/
def echo : Utility := fun name args s =>
  let plain := asksForNoLineEnd args
  let text := " ".intercalate (if plain then args.tail else args)
  let r := Format.echo text.toList
  output (refuseInside name) (r.bytes ++ if plain || r.stopped then [] else [10]) (s.ended 0)

/-- Writes its arguments as they are. -/
def echoVerbatim : Utility := fun name args s =>
  let plain := asksForNoLineEnd args
  let text := " ".intercalate (if plain then args.tail else args)
  output (refuseOutside name) (ByteString.bytes text ++ if plain then [] else [10]) (s.ended 0)

/-- Writes its arguments by a format. -/
def printf : Utility := fun name args s =>
  match if args.head? = some "--" then args.tail else args with
  | [] => (s.remark s!"{name}: usage: printf format [arg ...]").ended 2
  | format :: args =>
    let r := Format.print format args
    let s := output (refuseInside name) r.bytes (s.ended 0)
    if r.faults.isEmpty then s
    else
      (r.faults.foldl (fun s fault => s.remark s!"{name}: {fault}") s).ended
        (if r.stopped then 2 else 1)

/-- Writes the working directory. -/
def workingDirectory : Utility := fun name _ s =>
  output (refuseInside name) (ByteString.bytes ((FileTree.pathOf s.files.here).text ++ "\n"))
    (s.ended 0)

/-- Writes the variables that programs get. -/
def environment : Utility := fun name _ s =>
  let lines := s.environment.map fun (k, v) => s!"{k}={v}\n"
  output (refuseOutside name) (ByteString.bytes (String.join lines)) (s.ended 0)

/-- Writes the values of the variables that are asked for, or all variables. -/
def valuesOfVariables : Utility := fun name args s =>
  match args with
  | [] => environment name [] s
  | names =>
    let values := names.map s.environment.value?
    let lines := values.filterMap fun v => v.map (· ++ "\n")
    output (refuseOutside name) (ByteString.bytes (String.join lines))
      (s.ended (if values.all Option.isSome then 0 else 1))

/-! ## Conditions -/

/-- Ends by whether its arguments are a condition that holds. -/
def test : Utility := fun name args s =>
  match Condition.holds s.files args with
  | .ok true => s.ended 0
  | .ok false => s.ended 1
  | .error fault => (s.remark s!"{name}: {fault.message}").ended 2

/-- So, with a bracket behind the condition. -/
def bracket : Utility := fun name args s =>
  if args.getLast? = some "]" then test name args.dropLast s
  else (s.remark s!"{name}: missing ]").ended 2

/-! ## Files -/

/-- The wording of a fault for users of files. -/
def reason : TestBench.Fault → String
  | .system e => e.text
  | fault => fault.message

/-- Writes files one after the other, or its input. -/
def concatenate : Utility := fun name args s =>
  let (_, paths) := splitOptions args
  let paths := if paths.isEmpty then ["-"] else paths
  paths.foldl
    (fun s path =>
      if path = "-" then
        let (bytes, s) := s.readAll 0
        output (refuseOutside name) bytes s
      else
        match s.content path with
        | .ok bytes => output (refuseOutside name) bytes s
        | .error fault => fail name s!"{path}: {reason fault}" s)
    (s.ended 0)

/-- A reason, and where to find out more about a program. -/
def withAdvice (program reason : String) : String :=
  s!"{reason}\nTry '{program} --help' for more information."

/-- Does something to files one after the other, each of which may fail, and keeps what was done
    before a failure. -/
def forPathsPartly (name : String) (verb : String)
    (f : FileTree → Path → Except TestBench.Fault Unit × FileTree) (paths : List String)
    (s : Session) : Session :=
  if paths.isEmpty then fail name (withAdvice name "missing operand") s
  else
    paths.foldl
      (fun s path =>
        match f s.files ⟨path⟩ with
        | (.ok _, t) => { s with files := t }
        | (.error fault, t) =>
          fail name s!"{verb} '{path}': {reason fault}" { s with files := t })
      (s.ended 0)

/-- Does something to files one after the other, each of which may fail. -/
def forPaths (name : String) (verb : String) (f : FileTree → Path → Except TestBench.Fault FileTree)
    (paths : List String) (s : Session) : Session :=
  forPathsPartly name verb
    (fun t p =>
      match f t p with
      | .ok t => (.ok (), t)
      | .error fault => (.error fault, t))
    paths s

/-- Makes directories. -/
def makeDirectory : Utility := fun name args s =>
  let (options, paths) := splitOptions args
  let verb := "cannot create directory"
  if options.contains 'p' then forPathsPartly name verb FileTree.makeDirectories paths s
  else forPaths name verb FileTree.makeDirectory paths s

/-- Removes files, and with the letter `r` directories. With the letter `f` a file need not be
    there. -/
def remove : Utility := fun name args s =>
  let (options, paths) := splitOptions args
  let remove := fun (t : FileTree) (p : Path) =>
    if t.isDirectory p && (options.contains 'r' || options.contains 'R') then
      match t.removeTree p with
      | (.ok _, t) => .ok t
      | (.error fault, _) => .error fault
    else
      match t.removeFile p with
      | .error (.system .notFound) =>
        if options.contains 'f' then .ok t else .error (.system .notFound)
      | r => r
  if paths.isEmpty && options.contains 'f' then s.ended 0
  else forPaths name "cannot remove" remove paths s

/-- Removes empty directories. -/
def removeDirectory : Utility := fun name args s =>
  let remove := fun (t : FileTree) (p : Path) =>
    match t.directory p with
    | .error fault => .error fault
    | .ok l => if (t.children l).isEmpty then .ok (t.erase l) else .error (.system .notEmpty)
  forPaths name "failed to remove" remove args s

/-- Makes files that are not there. -/
def touch : Utility := fun name args s =>
  let make := fun (t : FileTree) (p : Path) =>
    if t.present p then .ok t else t.writeFile p []
  if args.isEmpty then fail name (withAdvice name "missing file operand") s
  else forPaths name "cannot touch" make args s

/-- Writes the names in directories. -/
def list : Utility := fun name args s =>
  let (options, paths) := splitOptions args
  let visible := fun n : String =>
    options.contains 'a' || options.contains 'A' || n.toList.head? ≠ some '.'
  let paths := if paths.isEmpty then ["."] else paths
  paths.foldl
    (fun s path =>
      match s.files.find ⟨path⟩ true with
      | .error fault => (fail name s!"cannot access '{path}': {reason fault}" s).ended 2
      | .ok (l, .directory) =>
        let names := (((s.files.children l).map (·.1)).filter visible).mergeSort (· ≤ ·)
        output (refuseOutside name) (ByteString.bytes (String.join (names.map (· ++ "\n")))) s
      | .ok _ => output (refuseOutside name) (ByteString.bytes (path ++ "\n")) s)
    (s.ended 0)

/-! ## Time and processes -/

/-- The milliseconds that a text of seconds gives, which may be fractions. -/
def milliseconds? (cs : List Char) : Option Nat :=
  let whole := cs.takeWhile (· != '.')
  let fraction := (cs.dropWhile (· != '.')).drop 1
  if whole.isEmpty && fraction.isEmpty then none
  else
    match Text.number? 10 whole, Text.number? 10 ((fraction ++ ['0', '0', '0']).take 3) with
    | some n, some m => some (1000 * n + m)
    | _, _ => none

/-- The number of milliseconds that an argument asks for. -/
def duration? (arg : String) : Option Nat :=
  match arg.toList.reverse with
  | 's' :: cs => milliseconds? cs.reverse
  | 'm' :: cs => (milliseconds? cs.reverse).map (60 * ·)
  | 'h' :: cs => (milliseconds? cs.reverse).map (3600 * ·)
  | 'd' :: cs => (milliseconds? cs.reverse).map (86400 * ·)
  | _ => if arg = "infinity" then some 1000000000000 else milliseconds? arg.toList

/-- Lets time pass. -/
def sleep : Utility := fun name args s =>
  let first := args.headD ""
  match args.mapM duration? with
  | none => fail name (withAdvice name s!"invalid time interval '{first}'") s
  | some [] => fail name (withAdvice name "missing operand") s
  | some times => (s.ended 0).sleep (times.foldl (· + ·) 0)

/-- Does something that has no end. -/
def endless : Utility := fun _ _ s => { s with flow := .overdue }

/-- The names of signals, and their numbers. -/
def signals : List (String × Nat) :=
  [("HUP", 1), ("INT", 2), ("QUIT", 3), ("ILL", 4), ("TRAP", 5), ("ABRT", 6), ("BUS", 7),
   ("FPE", 8), ("KILL", 9), ("USR1", 10), ("SEGV", 11), ("USR2", 12), ("PIPE", 13), ("ALRM", 14),
   ("TERM", 15), ("CHLD", 17), ("CONT", 18), ("STOP", 19), ("TSTP", 20), ("TTIN", 21),
   ("TTOU", 22), ("URG", 23), ("WINCH", 28)]

/-- The signal that a text names or numbers. -/
def signal? (text : String) : Option Nat :=
  match signals.find? fun s => s.1 = text || "SIG" ++ s.1 = text with
  | some (_, n) => some n
  | none => if text.isEmpty then none else Text.number? 10 text.toList

/-- The text of a signal that ends a program. -/
def signalText : Nat → String
  | 1 => "Hangup"
  | 6 => "Aborted"
  | 9 => "Killed"
  | 11 => "Segmentation fault"
  | 14 => "Alarm clock"
  | 15 => "Terminated"
  | n => s!"Signal {n}"

/-- The session after its process got a signal: most of them end it, some stop it, and some do
    nothing. One that is ignored does nothing either. -/
def receive (signal : Nat) (s : Session) : Session :=
  let ignored := s.traps.any fun t => t.1 = signal && t.2.isEmpty && signal ≠ 9 && signal ≠ 19
  if [0, 17, 18, 23, 28].contains signal || ignored then s.ended 0
  else if 19 ≤ signal && signal ≤ 22 then { s with flow := .overdue }
  else { s with flow := .killed signal }

/-- Sends a signal. The only process that there is for it is the one of the script. -/
def kill : Utility := fun name args s =>
  let (signal, targets) := match args with
    | "-s" :: text :: rest => (signal? text, rest)
    | arg :: rest =>
      match arg.toList with
      | '-' :: cs => (signal? (String.ofList cs), rest)
      | _ => (some 15, args)
    | [] => (some 15, [])
  let first := args.headD ""
  match signal with
  | none => (s.remark s!"{name}: Illegal option {String.ofList (first.toList.take 2)}").ended 2
  | some n =>
    if targets.isEmpty then (s.remark s!"{name}: Usage: {name} [-s sigspec] pid").ended 2
    else
      targets.foldl
        (fun s target =>
          if target = toString s.process then receive n s
          else (s.remark s!"{name}: No such process").ended 1)
        s

/-! ## All of them -/

/-- The utilities that have files of their own. -/
def outside : List (String × Utility) :=
  [("cat", concatenate), ("echo", echoVerbatim), ("env", environment), ("false", refuse),
   ("kill", kill), ("ls", list), ("mkdir", makeDirectory), ("printenv", valuesOfVariables),
   ("printf", printf), ("pwd", workingDirectory), ("rm", remove), ("rmdir", removeDirectory),
   ("sleep", sleep), ("test", test), ("[", bracket), ("touch", touch), ("true", succeed),
   ("yes", endless)]

/-- The utilities that a shell has in itself. -/
def inside : List (String × Utility) :=
  [("echo", echo), ("false", refuse), ("kill", kill), ("printf", printf),
   ("pwd", workingDirectory), ("test", test), ("[", bracket), ("true", succeed),
   ("umask", succeed), ("wait", succeed)]

/-- The utility of a name. -/
def find? (utilities : List (String × Utility)) (name : String) : Option Utility :=
  (utilities.find? (·.1 = name)).map (·.2)

end Utility

end TestBench.Shell
