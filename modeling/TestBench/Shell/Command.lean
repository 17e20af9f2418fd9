import TestBench.Shell.Token

/-!
# Commands of a shell

A script is a row of commands: calls of programs, and calls put together by sequences,
conditions, loops and pipes. A script is read line by line, so that what stands before a line
that cannot be read is still carried out; the place where the reading failed is a command as
well.

* `ofScript`: the command that a script is.
-/

namespace TestBench.Shell

/-- Where a descriptor is directed to. -/
structure Redirection where
  descriptor : Option Nat
  sign : String
  target : Word
deriving Repr, DecidableEq

/-- A command. -/
inductive Command where
  | nothing
  /-- A call with the settings of variables before it; without words, only these count. -/
  | call (line : Nat) (settings : List (List Char × Word)) (words : List Word)
      (redirections : List Redirection)
  | sequence (first second : Command)
  | background (c : Command)
  | both (first second : Command)
  | either (first second : Command)
  | negation (c : Command)
  | pipe (source sink : Command)
  | branch (condition yes no : Command)
  /-- Goes on as long as the condition has the given outcome. -/
  | loop (outcome : Bool) (condition body : Command)
  /-- Goes through words, or through the arguments. -/
  | each (name : List Char) (words : Option (List Word)) (body : Command)
  /-- Goes one way if a word fits one of the patterns, and another way otherwise. -/
  | choice (subject : Word) (patterns : List Word) (body otherwise : Command)
  | subshell (body : Command)
  | redirected (body : Command) (redirections : List Redirection)
  | definition (name : List Char) (body : Command)
  /-- What is not expected here ends the script. -/
  | unreadable (line : Nat) (message : String)
deriving Repr, DecidableEq

namespace Command

/-- Why a command cannot be read: the line, and what was found in it. -/
structure Fault where
  line : Nat
  message : String
deriving Repr, DecidableEq

/-- What the readers give: a command, and the tokens after it. -/
abbrev Reading := Except Fault (Command × List Located)

/-- The words that have a meaning of their own where a command starts. -/
def reserved : List String :=
  ["if", "then", "elif", "else", "fi", "while", "until", "do", "done", "for", "case", "in", "esac",
   "\x7b", "\x7d", "!"]

/-- The words that end a list of commands. -/
def closers : List String :=
  ["then", "elif", "else", "fi", "do", "done", "esac", "\x7d"]

/-- The text of a word that is written without quotes and references. -/
def plain? : Token → Option String
  | .word w => (Word.literal? w).map String.ofList
  | _ => none

/-- Whether tokens start with the given plain word. -/
def startsWith (text : String) : List Located → Bool
  | t :: _ => plain? t.token == some text
  | [] => false

/-- Whether tokens start with the given sign. -/
def startsWithSign (text : String) : List Located → Bool
  | ⟨_, .sign s⟩ :: _ => s == text
  | _ => false

/-- Tokens without the line ends at their start. -/
def skipLines (ts : List Located) : List Located :=
  ts.dropWhile (·.token == .lineEnd)

/-- How a token is called that was not expected. -/
def nameOf : Token → String
  | .word w =>
    match Word.literal? w with
    | some cs =>
      if reserved.contains (String.ofList cs) then s!"\"{String.ofList cs}\"" else "word"
    | none => "word"
  | .sign text => s!"\"{text}\""
  | .redirect _ _ => "redirection"
  | .lineEnd => "newline"
  | .unterminated => "end of file"

/-- The fault that the next token is not expected. -/
def surprise (line : Nat) : List Located → Fault
  | [] => ⟨line, "end of file unexpected"⟩
  | ⟨line, .unterminated⟩ :: _ => ⟨line, "Unterminated quoted string"⟩
  | t :: _ => ⟨t.line, s!"{nameOf t.token} unexpected"⟩

/-- The fault that something else was expected. -/
def missing (line : Nat) (text : String) (ts : List Located) : Fault :=
  match ts with
  | ⟨line, .unterminated⟩ :: _ => ⟨line, "Unterminated quoted string"⟩
  | _ =>
    let fault := surprise line ts
    ⟨fault.line, s!"{fault.message} (expecting {text})"⟩

/-- The line where tokens start. -/
def lineOf (line : Nat) : List Located → Nat
  | [] => line
  | t :: _ => t.line

/-- The tokens behind a plain word, which has to be there. -/
def expect (text : String) (ts : List Located) : Except Fault (List Located) :=
  match ts with
  | t :: rest =>
    if plain? t.token = some text then .ok rest else .error (missing t.line (inQuotes text) ts)
  | [] => .error (missing 1 (inQuotes text) [])
where
  /-- A text between quotes. -/
  inQuotes (text : String) : String := s!"\"{text}\""

/-- The setting of a variable that a word is: a name, an equals sign, and the value. -/
def setting? (w : Word) : Option (List Char × Word) :=
  match w.span isPlainText with
  | (front, rest) =>
    match Word.literal? front with
    | none => none
    | some cs =>
      match Word.splitName cs with
      | (c :: name, '=' :: value) =>
        some (c :: name, value.map (fun c => .text false [c]) ++ rest)
      | _ => none
where
  /-- Whether a piece is text without quotes. -/
  isPlainText : Piece → Bool
    | .text false _ => true
    | _ => false

/-- The redirections at the start of tokens. -/
def redirections : List Located → Except Fault (List Redirection × List Located)
  | ⟨line, .redirect descriptor sign⟩ :: ts =>
    match ts with
    | ⟨_, .word w⟩ :: ts =>
      (redirections ts).map fun (rs, ts) => (⟨descriptor, sign, w⟩ :: rs, ts)
    | _ => .error (surprise line ts)
  | ts => .ok ([], ts)

/-- A command with redirections. -/
def withRedirections (c : Command) (ts : List Located) : Reading :=
  match redirections ts with
  | .ok ([], ts) => .ok (c, ts)
  | .ok (rs, ts) => .ok (.redirected c rs, ts)
  | .error fault => .error fault

/-- Reads the rest of a call. -/
def callFrom (line : Nat) (settings : List (List Char × Word)) (words : List Word)
    (rs : List Redirection) : List Located → Reading
  | ⟨_, .word w⟩ :: ts =>
    match words, setting? w with
    | [], some s => callFrom line (settings ++ [s]) [] rs ts
    | _, _ => callFrom line settings (words ++ [w]) rs ts
  | ⟨line', .redirect descriptor sign⟩ :: ts =>
    match ts with
    | ⟨_, .word w⟩ :: ts => callFrom line settings words (rs ++ [⟨descriptor, sign, w⟩]) ts
    | _ => .error (surprise line' ts)
  | ⟨line', .unterminated⟩ :: ts => .error (surprise line' (⟨line', .unterminated⟩ :: ts))
  | ts => .ok (.call line settings words rs, ts)

/-- The words at the start of tokens, up to a token of another kind. -/
def wordsFrom : List Located → List Word × List Located
  | ⟨_, .word w⟩ :: ts => ((wordsFrom ts).1.cons w, (wordsFrom ts).2)
  | ts => ([], ts)

/-- The patterns of a way of a choice, and the tokens after the bracket that closes them. -/
def patternsFrom : List Located → Except Fault (List Word × List Located)
  | ⟨_, .word w⟩ :: ⟨_, .sign "|"⟩ :: ts => (patternsFrom ts).map fun (ws, ts) => (w :: ws, ts)
  | ⟨_, .word w⟩ :: ⟨_, .sign ")"⟩ :: ts => .ok ([w], ts)
  | ⟨line, .word _⟩ :: ts => .error (missing line "\")\"" ts)
  | ts => .error (surprise 1 ts)

/-- Whether a list of commands ends here. -/
def listEnds : List Located → Bool
  | [] => true
  | t :: _ =>
    match t.token with
    | .sign text => text == ")" || text == ";;"
    | token => (plain? token).any closers.contains

mutual

/-- Reads commands up to a word that ends them. The number bounds the depth, as for all readers
    of commands. -/
def listFrom : Nat → List Located → Reading
  | 0, ts => .error (surprise 1 ts)
  | bound + 1, ts =>
    let ts := skipLines ts
    if listEnds ts then .ok (.nothing, ts)
    else
      match chainFrom bound ts with
      | .error fault => .error fault
      | .ok (c, ts) =>
        match ts with
        | ⟨_, .lineEnd⟩ :: ts => continueList bound c ts
        | ⟨_, .sign ";"⟩ :: ts => continueList bound c ts
        | ⟨_, .sign "&"⟩ :: ts => continueList bound (.background c) ts
        | ts => .ok (c, ts)

/-- Reads the commands that follow one. -/
def continueList : Nat → Command → List Located → Reading
  | 0, _, ts => .error (surprise 1 ts)
  | bound + 1, c, ts => (listFrom bound ts).map fun (d, ts) => (.sequence c d, ts)

/-- Reads commands that depend on the outcome of those before them. -/
def chainFrom : Nat → List Located → Reading
  | 0, ts => .error (surprise 1 ts)
  | bound + 1, ts =>
    match pipeFrom bound ts with
    | .error fault => .error fault
    | .ok (c, ts) => continueChain bound c ts

/-- Reads the commands that depend on the outcome of one. -/
def continueChain : Nat → Command → List Located → Reading
  | 0, _, ts => .error (surprise 1 ts)
  | bound + 1, c, ts =>
    match ts with
    | ⟨_, .sign "&&"⟩ :: ts =>
      match pipeFrom bound (skipLines ts) with
      | .error fault => .error fault
      | .ok (d, ts) => continueChain bound (.both c d) ts
    | ⟨_, .sign "||"⟩ :: ts =>
      match pipeFrom bound (skipLines ts) with
      | .error fault => .error fault
      | .ok (d, ts) => continueChain bound (.either c d) ts
    | ts => .ok (c, ts)

/-- Reads commands that are joined by pipes, perhaps with an exclamation mark before them. -/
def pipeFrom : Nat → List Located → Reading
  | 0, ts => .error (surprise 1 ts)
  | bound + 1, ts =>
    if startsWith "!" ts then (pipeFrom bound (ts.drop 1)).map fun (c, ts) => (.negation c, ts)
    else
      match commandFrom bound ts with
      | .error fault => .error fault
      | .ok (c, ts) =>
        match ts with
        | ⟨_, .sign "|"⟩ :: ts =>
          (pipeFrom bound (skipLines ts)).map fun (d, ts) => (.pipe c d, ts)
        | ts => .ok (c, ts)

/-- Reads a single command. -/
def commandFrom : Nat → List Located → Reading
  | 0, ts => .error (surprise 1 ts)
  | bound + 1, ts =>
    match ts with
    | ⟨line, .word w⟩ :: rest =>
      match (Word.literal? w).map String.ofList with
      | some "if" => conditionFrom bound rest
      | some "while" => loopFrom bound true rest
      | some "until" => loopFrom bound false rest
      | some "for" => eachFrom bound rest
      | some "case" => caseFrom bound rest
      | some "\x7b" =>
        match listFrom bound rest with
        | .error fault => .error fault
        | .ok (c, ts) =>
          match expect "\x7d" ts with
          | .error fault => .error fault
          | .ok ts => withRedirections c ts
      | some name =>
        if closers.contains name then .error (surprise line ts)
        else
          match rest with
          | ⟨_, .sign "("⟩ :: ⟨_, .sign ")"⟩ :: rest =>
            (commandFrom bound (skipLines rest)).map fun (c, ts) =>
              (.definition name.toList c, ts)
          | ⟨line, .sign "("⟩ :: rest => .error (missing line "\")\"" rest)
          | _ => callFrom line [] [] [] ts
      | none => callFrom line [] [] [] ts
    | ⟨_, .sign "("⟩ :: rest =>
      match listFrom bound rest with
      | .error fault => .error fault
      | .ok (c, ts) =>
        match ts with
        | ⟨_, .sign ")"⟩ :: ts => withRedirections (.subshell c) ts
        | ts => .error (missing 1 "\")\"" ts)
    | ⟨line, .redirect _ _⟩ :: _ => callFrom line [] [] [] ts
    | ts => .error (surprise 1 ts)

/-- Reads what follows `if`: a condition, what is done then, and the other ways. -/
def conditionFrom : Nat → List Located → Reading
  | 0, ts => .error (surprise 1 ts)
  | bound + 1, ts => do
    let (condition, ts) ← listFrom bound ts
    let (yes, ts) ← listFrom bound (← expect "then" ts)
    if startsWith "elif" ts then
      let (no, ts) ← conditionFrom bound (ts.drop 1)
      return (.branch condition yes no, ts)
    else if startsWith "else" ts then
      let (no, ts) ← listFrom bound (ts.drop 1)
      withRedirections (.branch condition yes no) (← expect "fi" ts)
    else withRedirections (.branch condition yes .nothing) (← expect "fi" ts)

/-- Reads what follows `while` or `until`. -/
def loopFrom : Nat → Bool → List Located → Reading
  | 0, _, ts => .error (surprise 1 ts)
  | bound + 1, outcome, ts => do
    let (condition, ts) ← listFrom bound ts
    let (body, ts) ← listFrom bound (← expect "do" ts)
    withRedirections (.loop outcome condition body) (← expect "done" ts)

/-- Reads what follows `for`. -/
def eachFrom : Nat → List Located → Reading
  | 0, ts => .error (surprise 1 ts)
  | bound + 1, ts =>
    match ts with
    | ⟨line, .word w⟩ :: ts =>
      match Word.literal? w with
      | none => .error ⟨line, "Bad for loop variable"⟩
      | some name => do
        let ts := skipLines ts
        let (words, ts) := if startsWith "in" ts then
            let (ws, ts) := wordsFrom (ts.drop 1)
            (some ws, ts)
          else (none, ts)
        let ts := if startsWithSign ";" ts then ts.drop 1 else ts
        let (body, ts) ← listFrom bound (← expect "do" (skipLines ts))
        withRedirections (.each name words body) (← expect "done" ts)
    | ts => .error ⟨lineOf 1 ts, "Bad for loop variable"⟩

/-- Reads what follows `case`. -/
def caseFrom : Nat → List Located → Reading
  | 0, ts => .error (surprise 1 ts)
  | bound + 1, ts =>
    match ts with
    | ⟨_, .word w⟩ :: ts => do
      let (c, ts) ← waysFrom bound w (← expect "in" (skipLines ts))
      withRedirections c ts
    | ts => .error (missing 1 "word" ts)

/-- Reads the ways of a choice. -/
def waysFrom : Nat → Word → List Located → Reading
  | 0, _, ts => .error (surprise 1 ts)
  | bound + 1, subject, ts =>
    let ts := skipLines ts
    if startsWith "esac" ts then .ok (.nothing, ts.drop 1)
    else do
      let ts := if startsWithSign "(" ts then ts.drop 1 else ts
      let (patterns, ts) ← patternsFrom ts
      let (body, ts) ← listFrom bound ts
      if startsWithSign ";;" ts then
        let (otherwise, ts) ← waysFrom bound subject (ts.drop 1)
        return (.choice subject patterns body otherwise, ts)
      else
        return (.choice subject patterns body .nothing, ← expect "esac" ts)

end

/-- Reads the commands of one line, which may go on over lines where a command does. -/
def lineFrom : Nat → List Located → Reading
  | 0, ts => .error (surprise 1 ts)
  | bound + 1, ts =>
    match chainFrom bound ts with
    | .error fault => .error fault
    | .ok (c, ts) =>
      match ts with
      | ⟨_, .sign ";"⟩ :: ts => restOfLine bound c ts
      | ⟨_, .sign "&"⟩ :: ts => restOfLine bound (.background c) ts
      | ⟨_, .lineEnd⟩ :: ts => .ok (c, ts)
      | [] => .ok (c, [])
      | ts => .error (surprise 1 ts)
where
  /-- Reads what is left of a line after a command. -/
  restOfLine (bound : Nat) (c : Command) (ts : List Located) : Reading :=
    match ts with
    | [] => .ok (c, [])
    | ⟨_, .lineEnd⟩ :: ts => .ok (c, ts)
    | ts => (lineFrom bound ts).map fun (d, ts) => (.sequence c d, ts)

/-- Reads lines. -/
def linesFrom : Nat → List Located → Command
  | 0, _ => .nothing
  | bound + 1, ts =>
    match skipLines ts with
    | [] => .nothing
    | ts =>
      match lineFrom (8 * ts.length + 8) ts with
      | .ok (c, ts) => .sequence c (linesFrom bound ts)
      | .error fault => .unreadable fault.line fault.message

/-- The command that a script is. -/
def ofScript (script : List Char) : Command :=
  linesFrom (script.length + 1) (tokens script)

end Command

end TestBench.Shell
