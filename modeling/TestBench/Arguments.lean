import TestBench.Log.Line

/-!
# Arguments

The words of a command line. An option has a long name, mostly a short one, and takes a value or
not. Short names may share a word, and a value may be in the word of its option or be the word
after it.

The value in a word of its own is *awaited*: only the next known option, or the end, shows that
it is missing. A word that no option stands for is refused at once, whatever is awaited.

* `read`: the arguments that the words of a command line are.
-/

namespace TestBench

/-- What a command line asks for. -/
structure Arguments where
  configuration : String
  verbose : Bool
  logFormat : LogFormat
  dryRun : Bool
deriving Repr, DecidableEq

namespace Arguments

/-- What is asked for without words. -/
def default : Arguments := ⟨"cscaffold.toml", false, .compact, false⟩

/-- Why the words of a command line are no arguments. Help is not an error, but ends the
    reading as well. -/
inductive Fault where
  | unknown
  | badValue
  | repeated
  | surplusValue
  | help
deriving Repr, DecidableEq

/-- The exit status of a program that was called with these words. -/
def Fault.status : Fault → Nat
  | .help => 0
  | _ => 2

/-- The options. -/
inductive Key where
  | configuration
  | verbose
  | logFormat
  | dryRun
  | help
deriving Repr, DecidableEq

namespace Key

/-- Whether an option takes a value. -/
def takesValue : Key → Bool
  | .configuration | .logFormat => true
  | .verbose | .dryRun | .help => false

/-- The option with a long name. -/
def ofLong? (name : String) : Option Key :=
  match name with
  | "config" => some .configuration
  | "verbose" => some .verbose
  | "log-format" => some .logFormat
  | "dry-run" => some .dryRun
  | "help" => some .help
  | _ => none

/-- The option with a short name. -/
def ofShort? : Char → Option Key
  | 'c' => some .configuration
  | 'v' => some .verbose
  | 'h' => some .help
  | _ => none

end Key

/-- How far the words have been read: the arguments so far, the options they come from, and the
    option that awaits its value, with the value if that is there. -/
structure Progress where
  arguments : Arguments
  given : List Key
  awaiting : Option (Key × Option String)
deriving Repr, DecidableEq

namespace Progress

/-- Nothing is read yet. -/
def start : Progress := ⟨default, [], none⟩

/-- The arguments with an option set. -/
def assign (a : Arguments) (key : Key) (value : String) : Except Fault Arguments :=
  match key with
  | .configuration => .ok { a with configuration := value }
  | .verbose => .ok { a with verbose := true }
  | .dryRun => .ok { a with dryRun := true }
  | .logFormat =>
    match value with
    | "compact" => .ok { a with logFormat := .compact }
    | "json" => .ok { a with logFormat := .json }
    | _ => .error .badValue
  | .help => .error .help

/-- Sets an option, which must not have been set before. -/
def set (p : Progress) (key : Key) (value : String) : Except Fault Progress :=
  if p.given.contains key then .error .repeated
  else
    match assign p.arguments key value with
    | .ok arguments => .ok { p with arguments, given := key :: p.given }
    | .error fault => .error fault

/-- Sets the option that awaits its value, if there is one. -/
def settle (p : Progress) : Except Fault Progress :=
  match p.awaiting with
  | none => .ok p
  | some (_, none) => .error .badValue
  | some (key, some value) => { p with awaiting := none }.set key value

/-- Sets an option, after the one that awaits its value. -/
def settleAndSet (p : Progress) (key : Key) (value : String) : Except Fault Progress := do
  (← p.settle).set key value

/-- Awaits the value of an option. -/
def await (p : Progress) (key : Key) : Except Fault Progress := do
  return { ← p.settle with awaiting := some (key, none) }

/-- Reads what follows two dashes: a name, and perhaps a value behind an equals sign. -/
def long (p : Progress) (cs : List Char) : Except Fault Progress :=
  match Key.ofLong? (String.ofList (cs.takeWhile (· != '='))) with
  | none => .error .unknown
  | some key =>
    match (cs.dropWhile (· != '=')).tail? with
    | some value =>
      if key.takesValue then p.settleAndSet key (String.ofList value) else .error .surplusValue
    | none => if key.takesValue then p.await key else p.settleAndSet key ""

/-- Reads what follows a single dash: names of options without a value, and perhaps one with a
    value, which is the rest, with or without an equals sign before it. -/
def short (p : Progress) : List Char → Except Fault Progress
  | [] => .ok p
  | c :: cs =>
    match Key.ofShort? c with
    | none => .error .unknown
    | some key =>
      if key.takesValue then
        match cs with
        | [] => p.await key
        | '=' :: value => p.settleAndSet key (String.ofList value)
        | value => p.settleAndSet key (String.ofList value)
      else
        match p.settleAndSet key "" with
        | .ok p => p.short cs
        | .error fault => .error fault

/-- Reads a word that is no name of an option: it has to be an awaited value. -/
def plain (p : Progress) (text : String) : Except Fault Progress :=
  match p.awaiting with
  | some (key, none) => .ok { p with awaiting := some (key, some text) }
  | _ => .error .unknown

/-- Reads words. After two dashes alone, no word is read any more, and none is expected. -/
def read (p : Progress) : List String → Except Fault Progress
  | [] => p.settle
  | text :: rest =>
    match text.toList with
    | ['-', '-'] => if rest.isEmpty then p.settle else .error .unknown
    | '-' :: '-' :: cs => do (← p.long cs).read rest
    | '-' :: c :: cs => do (← p.short (c :: cs)).read rest
    | _ => do (← p.plain text).read rest

end Progress

/-- The arguments that the words of a command line give. -/
def read (texts : List String) : Except Fault Arguments :=
  (Progress.start.read texts).map Progress.arguments

end Arguments

end TestBench
