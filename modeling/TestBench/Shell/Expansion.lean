import TestBench.Shell.Arithmetic
import TestBench.Shell.Session

/-!
# Expansion of words

A word becomes a list of fields. First its pieces become chunks, which still know what is quoted;
then what came out of references without quotes is split at the separators; and last, fields
with signs of patterns in them become the names of the files that they fit. Where one text is
wanted and no list, only the first step is taken.

The output of a command that is called in a word comes from a function that is given here.

* `fields`: the fields that chunks are split into.
-/

namespace TestBench.Shell

/-- A part of an expanded word. -/
inductive Chunk where
  | fixed (p : Pattern)
  | splitting (cs : List Char)
  /-- Here one field ends and another one starts. -/
  | boundary
deriving Repr, DecidableEq

namespace Chunk

/-- The text of a chunk. -/
def text : Chunk → List Char
  | .fixed p => p.chars
  | .splitting cs => cs
  | .boundary => [' ']

/-- The text of chunks. -/
def texts (chunks : List Chunk) : List Char :=
  chunks.flatMap text

/-- A chunk as a pattern. -/
def pattern : Chunk → Pattern
  | .fixed p => p
  | .splitting cs => .ofText false cs
  | .boundary => .ofText false [' ']

/-- The chunk for a value that a reference gives. -/
def ofValue (quoted : Bool) (cs : List Char) : Chunk :=
  if quoted then .fixed (.ofText true cs) else .splitting cs

end Chunk

/-! ## Fields -/

/-- How far a word is split: the fields that are complete, the one that goes on, and whether the
    last one ended at a blank, so that a separator right behind is only its end. -/
structure Splitting where
  done : List Pattern
  current : Option Pattern
  afterBlank : Bool

namespace Splitting

/-- Nothing is split yet. -/
def start : Splitting := ⟨[], none, false⟩

/-- The splitting with more in the current field. -/
def add (s : Splitting) (p : Pattern) : Splitting :=
  ⟨s.done, some (s.current.getD [] ++ p), false⟩

/-- The splitting after the end of the current field, if there is one. -/
def finish (s : Splitting) : Splitting :=
  match s.current with
  | some p => ⟨s.done ++ [p], none, false⟩
  | none => s

/-- The splitting after a blank separator. -/
def blank (s : Splitting) : Splitting :=
  match s.current with
  | some p => ⟨s.done ++ [p], none, true⟩
  | none => s

/-- The splitting after a separator that is no blank. -/
def separator (s : Splitting) : Splitting :=
  if s.afterBlank then { s with afterBlank := false }
  else ⟨s.done ++ [s.current.getD []], none, false⟩

/-- The splitting after a character of a text that is to be split. -/
def char (separators : List Char) (s : Splitting) (c : Char) : Splitting :=
  if !separators.contains c then s.add [⟨c, false⟩]
  else if c = ' ' || c = '\t' || c = '\n' then s.blank
  else s.separator

/-- The splitting after a chunk. -/
def chunk (separators : List Char) (s : Splitting) : Chunk → Splitting
  | .fixed p => s.add p
  | .splitting cs => cs.foldl (char separators) s
  | .boundary => s.finish

end Splitting

/-- The fields that chunks make. -/
def fields (separators : List Char) (chunks : List Chunk) : List Pattern :=
  (chunks.foldl (Splitting.chunk separators) .start).finish.done

/-! ## Names of files -/

/-- The names in a directory that a pattern fits. A dot at the start of a name has to be written
    out. -/
def namesFitting (t : FileTree) (directory : ByteString) (p : Pattern) : List ByteString :=
  match t.directory ⟨if directory.isEmpty then "." else directory⟩ with
  | .error _ => []
  | .ok l =>
    let fitting := ((t.children l).map (·.1)).filter fun name =>
      p.fits name.toList && (name.toList.head? ≠ some '.' || p.chars.head? = some '.')
    fitting.mergeSort (· ≤ ·)

/-- The paths that start as given and go on through the given patterns. -/
def pathsFrom (t : FileTree) (start : ByteString) : List Pattern → List ByteString
  | [] => if t.present ⟨start⟩ then [start] else []
  | p :: ps =>
    let names := if p.any Pattern.isActive then namesFitting t start p
      else [String.ofList p.chars]
    names.flatMap fun name =>
      pathsFrom t (start ++ name ++ if ps.isEmpty then "" else "/") ps

/-- The texts that a field becomes: the paths that it fits, or itself if there is none. -/
def pathsOf (t : FileTree) (p : Pattern) : List ByteString :=
  if p.any Pattern.isActive then
    match pathsFrom t "" (Text.piecesBy (·.char = '/') p) with
    | [] => [String.ofList p.chars]
    | paths => paths
  else [String.ofList p.chars]

/-! ## Pieces -/

namespace Session

/-- The signs at which fields are split. -/
def separators (s : Session) : List Char :=
  (s.value? "IFS".toList).getD [' ', '\t', '\n']

/-- The arguments with a separator between them. -/
def joinedArguments (s : Session) : List Char :=
  match s.value? "IFS".toList with
  | none => [' '].intercalate (s.arguments.map String.toList)
  | some cs => (cs.take 1).intercalate (s.arguments.map String.toList)

/-- A number as text. -/
def decimal (n : Nat) : List Char :=
  (toString n).toList

/-- The value of a parameter, as one text. -/
def parameter? (s : Session) (name : List Char) : Option (List Char) :=
  match name with
  | ['#'] => some (decimal s.arguments.length)
  | ['?'] => some (decimal s.status)
  | ['$'] => some (decimal s.process)
  | ['!'] => none
  | ['-'] => some ((if s.careful then ['e'] else []) ++ if s.strict then ['u'] else [])
  | ['@'] => if s.arguments.isEmpty then none else some s.joinedArguments
  | ['*'] => if s.arguments.isEmpty then none else some s.joinedArguments
  | ['0'] => some s.name.toList
  | c :: _ =>
    if Text.isDigit c then (s.arguments[Token.number name - 1]?).map String.toList
    else s.value? name
  | [] => none

/-- The chunks of the arguments, one field each. -/
def argumentChunks (s : Session) (quoted : Bool) : List Chunk :=
  (s.arguments.map fun a => [Chunk.ofValue quoted a.toList]).intersperse [.boundary] |>.flatten

/-- The number that a variable holds. One that is not set holds zero. -/
def numberOf (s : Session) (name : List Char) : Except SumFault Int :=
  match s.value? name with
  | none => .ok 0
  | some [] => .ok 0
  | some cs =>
    match Sum.number? cs with
    | some n => .ok n
    | none => .error (.noNumber cs)

/-- The wording of a fault in an expression. -/
def sumMessage (cs : List Char) : SumFault → String
  | .divisionByZero => s!"arithmetic expression: division by zero: \"{String.ofList cs}\""
  | .noNumber text => s!"Illegal number: {String.ofList text}"
  | .noPrimary => s!"arithmetic expression: expecting primary: \"{String.ofList cs}\""
  | .leftOver => s!"arithmetic expression: expecting EOF: \"{String.ofList cs}\""

/-- The value of an expression, and the session after the variables in it were set. -/
def calculate (s : Session) (cs : List Char) : List Char × Session :=
  match Sum.value s.numberOf cs with
  | .ok (n, numbers) =>
    ((toString n).toList,
      numbers.reverse.foldl (fun s (name, n) => s.assign name (toString n).toList) s)
  | .error fault => ([], s.failed (sumMessage cs fault))

end Session

variable (capture : List Char → Session → List Char × Session)

/-- The chunks of a word. The number bounds the depth of words in words. -/
def chunksWithin : Nat → Word → Session → List Chunk × Session
  | 0, _, s => ([], s)
  | bound + 1, w, s =>
    w.foldl
      (fun (chunks, s) piece =>
        if s.goesOn then
          let (more, s) := pieceChunks bound piece s
          (chunks ++ more, s)
        else (chunks, s))
      ([], s)
where
  /-- The chunks of a word that stands behind a sign in braces. -/
  operandChunks (bound : Nat) (quoted : Bool) (operand : List Char) (s : Session) :
      List Chunk × Session :=
    wordChunks bound
      (if quoted then Word.ofQuoted? .skipped operand else Word.ofUnquoted? operand) s
  /-- The chunks of a word that may have been unreadable. -/
  wordChunks (bound : Nat) (w : Option Word) (s : Session) : List Chunk × Session :=
    match w with
    | some w => chunksWithin bound w s
    | none => ([], s.failed "Syntax error: Unterminated quoted string")
  /-- The chunks of an operand that stand in place of a value. What is not quoted is split. -/
  inPlace (r : List Chunk × Session) : List Chunk × Session :=
    (r.1.map fun
      | .fixed p => if p ≠ [] && p.all (!·.quoted) then .splitting p.chars else .fixed p
      | c => c, r.2)
  /-- The chunks of a piece. -/
  pieceChunks (bound : Nat) (piece : Piece) (s : Session) : List Chunk × Session :=
    match piece with
    | .text quoted cs => ([.fixed (.ofText quoted cs)], s)
    | .output quoted script =>
      let (cs, s) := capture script s
      ([.ofValue quoted cs], s)
    | .sum quoted expression =>
      let (chunks, s) := wordChunks bound (Word.ofQuoted? .literal expression) s
      let (cs, s) := if s.goesOn then s.calculate (Chunk.texts chunks) else ([], s)
      ([.ofValue quoted cs], s)
    | .parameter quoted name use =>
      let value := s.parameter? name
      match use with
      | .meaningless => ([], s.failed "Bad substitution")
      | .length =>
        ([.ofValue quoted (Session.decimal (value.getD []).length)], s)
      | .value =>
        if name = ['@'] || (name = ['*'] && !quoted) then (s.argumentChunks quoted, s)
        else
          match value with
          | some cs => ([.ofValue quoted cs], s)
          | none =>
            if s.strict && name ≠ ['*'] && name ≠ ['!'] then
              ([], s.failed s!"{String.ofList name}: parameter not set")
            else ([.ofValue quoted []], s)
      | .adapted sign operand =>
        let given := if sign.head? = some ':' then value.filter (· ≠ []) else value
        match sign.getLast?, given with
        | some '-', none => inPlace (operandChunks bound quoted operand s)
        | some '+', some _ => inPlace (operandChunks bound quoted operand s)
        | some '+', none => ([.ofValue quoted []], s)
        | some '=', none =>
          let (chunks, s) := operandChunks bound quoted operand s
          let cs := Chunk.texts chunks
          ([.ofValue quoted cs], s.assign name cs)
        | some '?', none =>
          let (chunks, s) := operandChunks bound quoted operand s
          let cs := Chunk.texts chunks
          let reason := if !cs.isEmpty then String.ofList cs
            else if sign.length = 2 then "parameter not set or null"
            else "parameter not set"
          ([], s.failed s!"{String.ofList name}: {reason}")
        | some '%', _ =>
          let (chunks, s) := operandChunks bound false operand s
          let p := chunks.flatMap Chunk.pattern
          ([.ofValue quoted (Pattern.withoutEnd p (sign.length = 2) (value.getD []))], s)
        | some '#', _ =>
          let (chunks, s) := operandChunks bound false operand s
          let p := chunks.flatMap Chunk.pattern
          ([.ofValue quoted (Pattern.withoutStart p (sign.length = 2) (value.getD []))], s)
        | _, _ => ([.ofValue quoted (value.getD [])], s)

/-- The depth of words in words that is followed. -/
def wordDepth : Nat := 64

/-- The chunks of a word. -/
def chunks (w : Word) (s : Session) : List Chunk × Session :=
  chunksWithin capture wordDepth w s

/-- The fields of a word. -/
def expand (w : Word) (s : Session) : List String × Session :=
  let (cs, s) := chunks capture w s
  ((fields s.separators cs).flatMap (pathsOf s.files), s)

/-- The fields of words. -/
def expandAll (ws : List Word) (s : Session) : List String × Session :=
  ws.foldl
    (fun (texts, s) w =>
      if s.goesOn then
        let (more, s) := expand capture w s
        (texts ++ more, s)
      else (texts, s))
    ([], s)

/-- The text of a word, where no list is wanted. -/
def expandText (w : Word) (s : Session) : List Char × Session :=
  let (cs, s) := chunks capture w s
  (Chunk.texts cs, s)

/-- The pattern that a word is. -/
def expandPattern (w : Word) (s : Session) : Pattern × Session :=
  let (cs, s) := chunks capture w s
  (cs.flatMap Chunk.pattern, s)

end TestBench.Shell
