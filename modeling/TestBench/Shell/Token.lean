import TestBench.Shell.Word
import TestBench.Text.Pieces

/-!
# Tokens of a shell

A script is cut into words, signs and line ends. A word ends at a blank or at a sign; a number
right before an angle bracket belongs to it. What follows a hash at the start of a word, up to
the end of the line, is a comment. The lines that a double angle bracket asks for are the word
behind it.

* `tokens`: the tokens of a script.
-/

namespace TestBench.Shell

/-- A token. -/
inductive Token where
  | word (w : Word)
  /-- A sign that separates commands or groups them. -/
  | sign (text : String)
  /-- The sign of a redirection, and the number before it. -/
  | redirect (descriptor : Option Nat) (text : String)
  | lineEnd
  /-- Something that is opened by a quote or a brace and is closed nowhere. -/
  | unterminated
deriving Repr, DecidableEq

/-- A token, and the number of its line. -/
structure Located where
  line : Nat
  token : Token
deriving Repr, DecidableEq

namespace Token

/-- The signs that are tokens, and whether they are those of redirections. A sign comes before
    those that it starts with. -/
def signs : List (String × Bool) :=
  [(";;", false), ("&&", false), ("||", false), ("<<-", true), ("<<", true), (">>", true),
   (">&", true), (">|", true), ("<&", true), ("<>", true), (";", false), ("&", false),
   ("|", false), ("(", false), (")", false), (">", true), ("<", true)]

/-- The sign at the start of a text, and what follows it. -/
def sign? (cs : List Char) : Option (String × Bool × List Char) :=
  match signs.find? fun s => s.1.toList.isPrefixOf cs with
  | some (text, redirects) => some (text, redirects, cs.drop text.length)
  | none => none

/-- Whether a character ends a word. -/
def endsWord (c : Char) : Bool :=
  " \t\n;&|()<>".toList.contains c

/-- The value of decimal digits. -/
def number (cs : List Char) : Nat :=
  cs.foldl (fun n c => n * 10 + (c.toNat - '0'.toNat)) 0

/-- The number right before an angle bracket at the start of a text, and what follows it. -/
def descriptor? (cs : List Char) : Option Nat × List Char :=
  match cs.takeWhile Text.isDigit, cs.dropWhile Text.isDigit with
  | [], _ => (none, cs)
  | digits, rest =>
    if rest.head? == some '<' || rest.head? == some '>' then (some (number digits), rest)
    else (none, cs)

/-- Lines up to one that is the given text, and the lines behind it. Tabs at the start of lines
    may not count. -/
def linesUntil (tabs : Bool) (last : List Char) :
    List (List Char) → List (List Char) × List (List Char)
  | [] => ([], [])
  | l :: ls =>
    let l := if tabs then l.dropWhile (· = '\t') else l
    if l = last then ([], ls)
    else ((linesUntil tabs last ls).1.cons l, (linesUntil tabs last ls).2)

/-- The text of the lines that come with a line, and the line and what follows them. -/
def splitLines (tabs : Bool) (last cs : List Char) : List Char × List Char :=
  match Text.pieces '\n' cs with
  | [] => ([], [])
  | first :: more =>
    let (inside, after) := linesUntil tabs last more
    (inside.flatMap (· ++ ['\n']), ['\n'].intercalate (first :: after))

/-- The word that lines of text are. They are as quoted as the word that they end with. -/
def lineWord (last : Word) (inside : List Char) : Option Word :=
  if (Word.literal? last).isSome then Word.ofQuoted? .literal inside else some [.text true inside]

/-- The text of a word, quoted or not. -/
def lastLine (w : Word) : List Char :=
  w.flatMap fun | .text _ cs => cs | _ => []

/-- The tokens of a text that starts in a line. Lines that were taken away further on are
    counted with the next line end. The bound is one on the characters. -/
def tokensWithin : Nat → Nat → Nat → List Char → List Located
  | 0, _, _, _ => []
  | _ + 1, _, _, [] => []
  | bound + 1, line, taken, '\\' :: '\n' :: cs => tokensWithin bound (line + 1) taken cs
  | bound + 1, line, taken, c :: cs =>
    if c = '\n' then ⟨line, .lineEnd⟩ :: tokensWithin bound (line + 1 + taken) 0 cs
    else if c = ' ' || c = '\t' then tokensWithin bound line taken cs
    else if c = '#' then tokensWithin bound line taken (cs.dropWhile (· != '\n'))
    else
      let (descriptor, cs) := descriptor? (c :: cs)
      match sign? cs with
      | some (text, true, rest) =>
        if text = "<<" || text = "<<-" then
          match Word.split? endsWord (rest.dropWhile (· = ' ')) with
          | none => [⟨line, .unterminated⟩]
          | some (last, rest) =>
            let (inside, after) := splitLines (text = "<<-") (lastLine last) rest
            match lineWord last inside with
            | none => [⟨line, .unterminated⟩]
            | some w =>
              ⟨line, .redirect descriptor "<<"⟩ :: ⟨line, .word w⟩ ::
                tokensWithin bound line (taken + rest.count '\n' - after.count '\n') after
        else ⟨line, .redirect descriptor text⟩ :: tokensWithin bound line taken rest
      | some (text, false, rest) => ⟨line, .sign text⟩ :: tokensWithin bound line taken rest
      | none =>
        match Word.split? endsWord cs with
        | none => [⟨line, .unterminated⟩]
        | some (w, rest) =>
          let lines := (cs.take (cs.length - rest.length)).count '\n'
          ⟨line, .word w⟩ :: tokensWithin bound (line + lines) taken rest

end Token

/-- The tokens of a script. -/
def tokens (script : List Char) : List Located :=
  Token.tokensWithin (script.length + 1) 1 0 script

end TestBench.Shell
