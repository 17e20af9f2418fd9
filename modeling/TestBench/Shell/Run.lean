import TestBench.Shell.Executable

/-!
# Running commands

What a command does to a session. The commands inside of a command are run by recursion on it;
what is read while it runs (functions, scripts that are called, and commands in words) is run by
a function that is given, so that its depth can be bounded.

* `run`: what a command does to a session.
-/

namespace TestBench.Shell

/-- How commands are run that are no part of the current one. -/
abbrev Call := Command → Session → Session

namespace Run

/-! ## Parts with a session of their own -/

/-- Runs a part in a session of its own, which goes back into the one it comes from. -/
def apart (f : Session → Session) (s : Session) : Session :=
  s.rejoin (f { s with loops := 0 })

/-- The session of a program that is called. It gets the variables that are for programs. -/
def program (s : Session) (name : String) (arguments : List String) : Session :=
  { s with
    name := name
    arguments := arguments
    settings := s.settings.filter (·.2.exported)
    functions := []
    traps := []
    process := s.process + 1
    line := 1
    loops := 0
    locals := []
    careful := false
    tested := false
    strict := false }

/-- The session that goes on when a program has ended. What kills the program only shows in its
    status. -/
def afterProgram (s part : Session) : Session :=
  match part.flow with
  | .killed signal =>
    ({ s.rejoin { part with flow := .exiting } with flow := s.flow }.complain
      (Utility.signalText signal ++ "\n")).ended (128 + signal)
  | _ => s.rejoin part

/-- The output of a script as the value of a reference: without the line ends at its end. -/
def capture (call : Call) (script : List Char) (s : Session) : List Char × Session :=
  let (s, n) := s.newStore []
  let s := apart (fun part => call (Command.ofScript script) (part.direct 1 (some (.sink n)))) s
  let bytes := ((s.store n).dropWhile (· = 10)).reverse.filter (· ≠ 0)
  ((ByteString.ofBytes bytes).toList, s)

/-- The two ends of a pipe, one after the other. -/
def pipe (source sink : Session → Session) (s : Session) : Session :=
  let (s, n) := s.newStore []
  let s := apart (fun part => source (part.direct 1 (some (.sink n)))) s
  s.andThen fun s =>
    let (s, m) := s.newStore (s.store n).reverse
    apart (fun part => sink (part.direct 0 (some (.source m)))) s

/-! ## Redirections -/

/-- The wording of the fault that a file cannot be opened. -/
def openReason (creating : Bool) : TestBench.Fault → String
  | .system .notFound => if creating then "Directory nonexistent" else "No such file"
  | .system .notDirectory => if creating then "Directory nonexistent" else "No such file"
  | fault => Utility.reason fault

/-- The stream to the end of the file that a path leads to. -/
def fileStream (t : FileTree) (p : Path) : Except TestBench.Fault (FileTree × Stream) :=
  match t.find p true with
  | .ok (l, .file _ _) => .ok (t, .file l)
  | .ok _ => .error (.system .isDirectory)
  | .error fault => .error fault

/-- Opens what a redirection leads to. -/
def openStream (sign : String) (p : Path) (s : Session) :
    Except TestBench.Fault (Session × Stream) :=
  if p.text = Session.nullPath then .ok (s, .nowhere)
  else if sign = "<" then
    match s.files.readBytes p with
    | .error fault => .error fault
    | .ok bytes =>
      let (s, n) := s.newStore bytes
      .ok (s, .source n)
  else
    let opened := if (sign = ">>" || sign = "<>") && s.files.present p then .ok s.files
      else s.files.writeFile p []
    match opened with
    | .error fault => .error fault
    | .ok t => (fileStream t p).map fun (t, stream) => ({ s with files := t }, stream)

/-- Applies a redirection. There is no session if that fails, but the fault is remarked. -/
def redirectOne (call : Call) (r : Redirection) (s : Session) : Session × Bool :=
  let (target, s) := expandText (capture call) r.target s
  let path := String.ofList target
  let descriptor := r.descriptor.getD (if r.sign.toList.head? = some '<' then 0 else 1)
  if !s.goesOn then (s, false)
  else if r.sign = "<<" then
    let (s, n) := s.newStore (ByteString.bytes path)
    (s.direct descriptor (some (.source n)), true)
  else if r.sign = ">&" || r.sign = "<&" then
    if path = "-" then (s.direct descriptor none, true)
    else
      match Text.number? 10 target with
      | none => (s.remark s!"Syntax error: Bad fd number", false)
      | some n =>
        match s.stream? n with
        | some stream => (s.direct descriptor (some stream), true)
        | none => (s.remark s!"{n}: Bad file descriptor", false)
  else
    match openStream r.sign ⟨path⟩ s with
    | .ok (s, stream) => (s.direct descriptor (some stream), true)
    | .error fault =>
      let creating := r.sign ≠ "<"
      let verb := if creating then "create" else "open"
      (s.remark s!"cannot {verb} {path}: {openReason creating fault}", false)

/-- Applies redirections, up to one that fails. -/
def redirect (call : Call) : List Redirection → Session → Session × Bool
  | [], s => (s, true)
  | r :: rs, s =>
    match redirectOne call r s with
    | (s, true) => redirect call rs s
    | (s, false) => (s, false)

/-- Runs something with redirections that hold only for it. What is done if one of them fails is
    given as well. -/
def redirected (call : Call) (rs : List Redirection) (refused f : Session → Session)
    (s : Session) : Session :=
  match redirect call rs s with
  | (s', true) => { f s' with streams := s.streams }
  | (s', false) => { s'.andThen refused with streams := s.streams }

/-! ## Programs -/

/-- Runs a script to its end, and then what was to be done there. -/
def script (call : Call) (text : List Char) (s : Session) : Session :=
  let s := call (Command.ofScript text) s
  match s.traps.find? (·.1 = 0), s.flow with
  | none, _ => s
  | _, .killed _ => s
  | _, .overdue => s
  | some (_, action), _ =>
    let s' := call (Command.ofScript action) { s with flow := .on, traps := [] }
    if s'.flow = .on then { s' with status := s.status } else s'

/-- The session after a signal was answered that ended it, if there is an answer. -/
def answer (call : Call) (s : Session) : Session :=
  match s.flow with
  | .killed n =>
    match s.traps.find? (·.1 = n) with
    | some (_, action) =>
      if n = 9 then s
      else ({ s with flow := .on }.ended 0).andThen (call (Command.ofScript action))
    | none => s
  | _ => s

/-- Runs a shell on its arguments: options, and a script in an argument, in a file or in the
    input. -/
def shell (call : Call) (name : String) (args : List String) (s : Session) : Session :=
  let options := (args.takeWhile isOption).flatMap fun a => (a.toList.drop 1)
  let rest := args.dropWhile isOption
  let s := { s with careful := options.contains 'e', strict := options.contains 'u' }
  if options.contains 'c' then
    match rest with
    | [] => (s.complain s!"{name}: 0: -c requires an argument\n").ended 2
    | script :: names =>
      Run.script call script.toList
        { s with name := names.headD name, arguments := names.tail }
  else
    match rest with
    | [] =>
      let (bytes, s) := s.readAll 0
      Run.script call (ByteString.ofBytes bytes).toList { s with name, arguments := [] }
    | path :: arguments =>
      match s.files.readBytes ⟨path⟩ with
      | .error fault =>
        (s.complain s!"{name}: 0: cannot open {path}: {openReason false fault}\n").ended 2
      | .ok bytes =>
        Run.script call (ByteString.ofBytes bytes).toList { s with name := path, arguments }
where
  /-- Whether an argument is an option of a shell. -/
  isOption (a : String) : Bool :=
    match a.toList with
    | '-' :: c :: _ => c ≠ '-'
    | _ => false

/-- Cuts an argument at its first equals sign. -/
def splitSetting (arg : String) : List Char × Option (List Char) :=
  (arg.toList.takeWhile (· != '='), (arg.toList.dropWhile (· != '=')).tail?)

/-- Sets variables as arguments say, and does something with each of their names. -/
def declare (f : Session → List Char → Session) (args : List String) (s : Session) : Session :=
  args.foldl
    (fun s arg =>
      match splitSetting arg with
      | (name, some value) => f (s.assign name value) name
      | (name, none) => f s name)
    (s.ended 0)

/-- Runs a command with other variables: none at first, if that is asked for, and those that are
    set by arguments. Without a command, the variables are written. -/
def withVariables (call : Call) (name : String) (args : List String) (s : Session) : Session :=
  let cleared := args.head? = some "-i"
  let args := if cleared then args.tail else args
  let s := if cleared then { s with settings := [] } else s
  let isSetting := fun a : String => a.toList.contains '='
  let s := declare Session.publish (args.takeWhile isSetting) s
  match args.dropWhile isSetting with
  | [] => Utility.environment name [] s
  | texts => call (.call 1 [] (texts.map fun t => [.text true t.toList]) []) s

/-- Runs an executable in the session that is made for it. -/
def execute (call : Call) (e : Executable) (name : String) (args : List String) (s : Session) :
    Session :=
  match e with
  | .utility "env" => withVariables call name args s
  | .utility u =>
    match Utility.find? Utility.outside u with
    | some f => f name args s
    | none => s.ended 127
  | .shell => shell call name args s
  | .script path options content =>
    let letters := options.flatMap String.toList
    script call (ByteString.ofBytes content).toList { s with
      name := path
      arguments := args
      careful := letters.contains 'e'
      strict := letters.contains 'u' }
  | .unmarked path content =>
    script call (ByteString.ofBytes content).toList { s with name := path, arguments := args }

/-- The search path of a session. -/
def searchPath (s : Session) : String :=
  ((s.value? "PATH".toList).map String.ofList).getD Executable.standardSearchPath

/-- Calls a program by its name, which is `shown` where it cannot be called. -/
def callProgram (call : Call) (shown name : String) (args : List String) (s : Session) : Session :=
  if name.isEmpty then (s.remark s!"{shown}: Permission denied").ended 127
  else match Executable.search s.files (searchPath s) name with
  | .ok e => afterProgram s (execute call e name args (program s name args))
  | .error .notFound => (s.remark s!"{shown}: not found").ended 127
  | .error .notDirectory => (s.remark s!"{shown}: not found").ended 127
  | .error e => (s.remark s!"{shown}: {e.text}").ended 126

/-! ## What changes the shell itself -/

/-- The number that an argument is. -/
def number? (arg : String) : Option Nat :=
  if arg.isEmpty then none else Text.number? 10 arg.toList

/-- Does something with the number that the first argument is, or with another one. -/
def withNumber (name : String) (args : List String) (default : Nat) (f : Nat → Session)
    (s : Session) : Session :=
  match args with
  | [] => f default
  | arg :: _ =>
    match number? arg with
    | some n => f n
    | none => s.failed s!"{name}: Illegal number: {arg}"

/-- Leaves loops, of which there may be fewer. -/
def leaveLoops (flow : Nat → Flow) (n : Nat) (s : Session) : Session :=
  if s.loops = 0 then s.ended 0 else { s.ended 0 with flow := flow (min n s.loops) }

/-- Changes the working directory. -/
def changeDirectory (args : List String) (s : Session) : Session :=
  let target := match args with
    | [] => ((s.value? "HOME".toList).map String.ofList).getD ""
    | "-" :: _ => ((s.value? "OLDPWD".toList).map String.ofList).getD ""
    | arg :: _ => arg
  if target.isEmpty then s.ended 0
  else
    match s.files.directory ⟨target⟩ with
    | .error _ => (s.remark s!"cd: can't cd to {target}").ended 2
    | .ok l =>
      let old := (FileTree.pathOf s.files.here).text.toList
      let new := (FileTree.pathOf l).text
      let s := { s with files := { s.files with here := l } }
      let s := ((s.assign "OLDPWD".toList old).assign "PWD".toList new.toList).ended 0
      if args.head? = some "-" then Utility.output id (ByteString.bytes (new ++ "\n")) s else s

/-- Sets options and arguments. -/
def setOptions (args : List String) (s : Session) : Session :=
  match args with
  | [] => s.ended 0
  | "--" :: arguments => { s.ended 0 with arguments }
  | arg :: rest =>
    match arg.toList with
    | '-' :: letters =>
      setOptions rest { s with
        careful := s.careful || letters.contains 'e'
        strict := s.strict || letters.contains 'u' }
    | '+' :: letters =>
      setOptions rest { s with
        careful := s.careful && !letters.contains 'e'
        strict := s.strict && !letters.contains 'u' }
    | _ => { s.ended 0 with arguments := arg :: rest }

/-- Makes variables belong to the current function. -/
def makeLocal (args : List String) (s : Session) : Session :=
  { s with locals := args.map (fun arg => (splitSetting arg).1) ++ s.locals }

/-- Gives the parts of a line to variables. The last one gets all that is left. -/
def assignParts (separators : List Char) : List (List Char) → List Char → Session → Session
  | [], _, s => s
  | [name], cs, s => s.assign name (Text.dropTail separators.contains (skip cs))
  | name :: names, cs, s =>
    let cs := skip cs
    assignParts separators names (cs.dropWhile (!separators.contains ·))
      (s.assign name (cs.takeWhile (!separators.contains ·)))
where
  /-- A text without separators at its start. -/
  skip (cs : List Char) : List Char :=
    cs.dropWhile separators.contains

/-- Reads a line into variables. -/
def readLine (args : List String) (s : Session) : Session :=
  let names := (args.filter fun a => a ≠ "-r").map String.toList
  match s.readLine 0 with
  | (none, s) => (assignParts s.separators names [] s).ended 1
  | (some bytes, s) =>
    (assignParts s.separators names (ByteString.ofBytes bytes).toList s).ended 0

/-- Runs the script in a file in the session itself. -/
def includeFile (call : Call) (args : List String) (s : Session) : Session :=
  match args with
  | [] => s.ended 0
  | path :: _ =>
    match s.files.readBytes ⟨path⟩ with
    | .error fault => s.failed s!".: cannot open {path}: {openReason false fault}"
    | .ok bytes => call (Command.ofScript (ByteString.ofBytes bytes).toList) s

/-- The signal that a trap is for, or zero for the end of the script. -/
def trapped? (text : String) : Option Nat :=
  if text = "EXIT" then some 0 else Utility.signal? text

/-- Plans what is done when signals come. A dash stands for what is done without a plan. -/
def trap (args : List String) (s : Session) : Session :=
  let (action, targets) := match args with
    | [] => (none, [])
    | "-" :: targets => (none, targets)
    | first :: rest => if (number? first).isSome then (none, args) else (some first.toList, rest)
  targets.foldl
    (fun s target =>
      match trapped? target with
      | none => (s.remark s!"trap: {target}: bad trap").ended 1
      | some n =>
        let others := s.traps.filter (·.1 ≠ n)
        { s with traps := (action.map (n, ·)).toList ++ others })
    (s.ended 0)

/-- Writes where a name leads. -/
def locate (name : String) (s : Session) : Session :=
  if (Utility.find? Utility.inside name).isSome || s.functions.any (·.1 = name.toList) then
    Utility.output id (ByteString.bytes (name ++ "\n")) (s.ended 0)
  else
    let paths := (Executable.searchDirectories (searchPath s)).map fun d => d ++ "/" ++ name
    match paths.find? fun p => (Executable.at? s.files p).isOk with
    | some p => Utility.output id (ByteString.bytes (p ++ "\n")) (s.ended 0)
    | none => s.ended 127

/-- What the shell itself does by a name, with the settings before it kept or not. -/
def special? (call : Call) (name : String) (args : List String) (s : Session) :
    Option Session :=
  match name with
  | ":" => some (s.ended 0)
  | "exit" => some (withNumber name args s.status s.exited s)
  | "return" =>
    some (withNumber name args s.status (fun n => { s.ended (n % 256) with flow := .returning }) s)
  | "break" => some (withNumber name args 1 (fun n => leaveLoops .leaving n s) s)
  | "continue" => some (withNumber name args 1 (fun n => leaveLoops .repeating n s) s)
  | "export" => some (declare Session.publish args s)
  | "readonly" => some (declare (fun s _ => s) args s)
  | "local" => some (declare (fun s _ => s) args (makeLocal args s))
  | "unset" => some ((args.filter (· ≠ "-v")).foldl (fun s arg => s.unset arg.toList) (s.ended 0))
  | "set" => some (setOptions args s)
  | "shift" =>
    some (withNumber name args 1
      (fun n =>
        if n ≤ s.arguments.length then { s.ended 0 with arguments := s.arguments.drop n }
        else s.failed "shift: can't shift that many") s)
  | "eval" => some (call (Command.ofScript (" ".intercalate args).toList) (s.ended 0))
  | "." => some (includeFile call args s)
  | "cd" => some (changeDirectory args s)
  | "read" => some (readLine args s)
  | "trap" => some (trap args s)
  | _ => none

/-- The names of what the shell does itself and in which a failing redirection ends it. -/
def specialNames : List String :=
  [":", "exit", "return", "break", "continue", "export", "readonly", "unset", "set", "shift",
   "eval", ".", "trap", "exec"]

/-- Calls a function. -/
def callFunction (call : Call) (body : Command) (args : List String) (s : Session) : Session :=
  let part := call body { s with arguments := args, loops := 0, locals := [] }
  let flow := if part.flow = .returning then .on else part.flow
  { part.restore part.locals s with
    arguments := s.arguments, loops := s.loops, locals := s.locals, flow }

/-- Calls what a name stands for. -/
def dispatch (call : Call) (name : String) (args : List String) (s : Session) : Session :=
  match s.functions.find? (·.1 = name.toList) with
  | some (_, body) => callFunction call body args s
  | none =>
    match special? call name args s with
    | some s => s
    | none =>
      match Utility.find? Utility.inside name, name, args with
      | some f, _, _ => f name args s
      | none, "command", "-v" :: target :: _ => locate target s
      | none, "command", target :: args =>
        match Utility.find? Utility.inside target with
        | some f => f target args s
        | none => callProgram call target target args s
      | none, "exec", target :: args =>
        let s := callProgram call s!"exec: {target}" target args s
        if s.goesOn then s.exited s.status else s
      | none, _, _ => callProgram call name name args s

/-- Sets variables, one after the other. -/
def assignAll (call : Call) (settings : List (List Char × Word)) (s : Session) : Session :=
  settings.foldl
    (fun s (name, w) =>
      s.andThen fun s =>
        let (value, s) := expandText (capture call) w s
        s.andThen (·.assign name value))
    s

/-- Whether a word calls a command. -/
def callsCommand (w : Word) : Bool :=
  w.any fun | .output _ _ => true | _ => false

/-- Runs a call. -/
def runCall (call : Call) (line : Nat) (settings : List (List Char × Word)) (words : List Word)
    (rs : List Redirection) (s : Session) : Session :=
  let (texts, s) := expandAll (capture call) words { s with line }
  s.andThen fun s =>
    match texts with
    | [] =>
      let ended := if (settings.map (·.2) ++ words).any callsCommand then id else (·.ended 0)
      redirected call rs (·.ended 2) (fun s => (assignAll call settings s).andThen ended) s
    | ["exec"] =>
      match redirect call rs s with
      | (s, true) => (assignAll call settings s).andThen (·.ended 0)
      | (s, false) => s.andThen (·.exited 2)
    | name :: args =>
      if specialNames.contains name then
        redirected call rs (·.exited 2)
          (fun s => (assignAll call settings s).andThen (dispatch call name args)) s
      else
        let names := settings.map (·.1)
        let run := fun s =>
          (names.foldl Session.publish (assignAll call settings s)).andThen
            (dispatch call name args)
        let s' := redirected call rs (·.ended 2) run s
        if names.isEmpty then s' else s'.restore names s

/-! ## Commands -/

/-- Ends the script if a command failed that must not. -/
def check (s : Session) : Session :=
  if s.careful && !s.tested && s.status ≠ 0 && s.goesOn then s.exited s.status else s

/-- Runs something whose outcome is asked for. -/
def asking (f : Session → Session) (s : Session) : Session :=
  { f { s with tested := true } with tested := s.tested }

/-- Repeats a step as long as it says so. The number bounds the repetitions; that they were too
    many is the same as too much time. -/
def repeatWhile : Nat → (Session → Session × Bool) → Session → Session
  | 0, _, s => { s with flow := .overdue }
  | bound + 1, f, s =>
    match f s with
    | (s, true) => repeatWhile bound f s
    | (s, false) => s

/-- The session after the body of a loop, and whether the loop goes on. -/
def endRound (s : Session) : Session × Bool :=
  match s.flow with
  | .on => (s, true)
  | .leaving n => ({ s with flow := if n ≤ 1 then .on else .leaving (n - 1) }, false)
  | .repeating n => if n ≤ 1 then ({ s with flow := .on }, true)
    else ({ s with flow := .repeating (n - 1) }, false)
  | _ => (s, false)

/-- A round of a loop. In between, the status is that of the last body. -/
def round (outcome : Bool) (condition body : Session → Session) (s : Session) : Session × Bool :=
  let status := s.status
  let s := asking condition s.step
  if !s.goesOn then ((endRound s).1, false)
  else if (s.status = 0) = outcome then endRound (body s)
  else (s.ended status, false)

/-- A loop over texts. -/
def overTexts (name : List Char) (body : Session → Session) : List String → Session → Session
  | [], s => s
  | text :: texts, s =>
    let s := s.step
    if !s.goesOn then s
    else
      match endRound (body (s.assign name text.toList)) with
      | (s, true) => overTexts name body texts s
      | (s, false) => s

/-- Runs something as the body of a loop. -/
def looping (f : Session → Session) (s : Session) : Session :=
  let s' := f { s.ended 0 with loops := s.loops + 1 }
  { s' with loops := s.loops }

/-- Whether one of some patterns fits a text. -/
def fitsOne (call : Call) (subject : List Char) : List Word → Session → Bool × Session
  | [], s => (false, s)
  | w :: ws, s =>
    let (p, s) := expandPattern (capture call) w s
    if p.fits subject then (true, s) else fitsOne call subject ws s

/-- Runs a command. -/
def command (call : Call) : Command → Session → Session
  | .nothing, s => s
  | .call line settings words rs, s =>
    let s := s.step
    if s.goesOn then check (answer call (runCall call line settings words rs s)) else s
  | .sequence a b, s => (command call a s).andThen (command call b)
  | .background c, s =>
    (apart (fun part => command call c (part.direct 0 (some .nowhere))) s).andThen (·.ended 0)
  | .both a b, s =>
    (asking (command call a) s).andThen fun s => if s.status = 0 then command call b s else s
  | .either a b, s =>
    (asking (command call a) s).andThen fun s => if s.status = 0 then s else command call b s
  | .negation c, s =>
    (asking (command call c) s).andThen fun s => s.ended (if s.status = 0 then 1 else 0)
  | .pipe a b, s => (pipe (command call a) (command call b) s).andThen check
  | .branch condition yes no, s =>
    (asking (command call condition) s).andThen fun s =>
      if s.status = 0 then command call yes (s.ended 0) else command call no (s.ended 0)
  | .loop outcome condition body, s =>
    looping
      (repeatWhile (s.steps + 1) (round outcome (command call condition) (command call body))) s
  | .each name words body, s =>
    let (texts, s) := match words with
      | some ws => expandAll (capture call) ws s
      | none => (s.arguments, s)
    s.andThen (looping (overTexts name (command call body) texts))
  | .choice subject patterns body otherwise, s =>
    let (text, s) := expandText (capture call) subject s
    s.andThen fun s =>
      let (fits, s) := fitsOne call text patterns s
      s.andThen fun s =>
        if fits then command call body (s.ended 0) else command call otherwise (s.ended 0)
  | .subshell body, s => (apart (command call body) s).andThen check
  | .redirected body rs, s => redirected call rs (·.ended 2) (command call body) s
  | .definition name body, s =>
    { s.ended 0 with functions := (name, body) :: s.functions.filter (·.1 ≠ name) }
  | .unreadable line message, s =>
    ({ s with line }.remark s!"Syntax error: {message}").exited 2

end Run

/-- Runs a command. The number bounds the depth of functions, scripts and commands in words; what
    lies deeper would not end in time. -/
def run : Nat → Command → Session → Session
  | 0, _, s => { s with flow := .overdue }
  | depth + 1, c, s => Run.command (run depth) c s

end TestBench.Shell
