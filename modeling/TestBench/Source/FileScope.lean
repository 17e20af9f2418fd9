import TestBench.Source.Cell
import TestBench.Source.Prototype

/-!
# File scope

The code of a header is read statement by statement, never entering braces: a brace group is
passed as a whole, and a group after a closing parenthesis, the body of a function, ends its
statement. The braces of an `extern "C"` block alone are no group; what stands between them is
at file scope too. A statement with the keyword of a struct or an enum in front of a brace
group is a definition, up to the semicolon after the group; any other that ends in a semicolon
and has met no group is taken if it is a prototype.

* `length_group_lt`, `length_definition_lt`: what follows a group or a definition is shorter
  than what was read.
-/

namespace TestBench.Source

/-- Whether a byte belongs to a word of code. -/
def isWordByte (b : UInt8) : Bool :=
  (0x61 ≤ b && b ≤ 0x7A) || (0x41 ≤ b && b ≤ 0x5A) || (0x30 ≤ b && b ≤ 0x39) || b == 0x5F

/-- Whether a byte may start the tag of a struct or an enum. -/
def isTagStart (b : UInt8) : Bool :=
  (0x61 ≤ b && b ≤ 0x7A) || (0x41 ≤ b && b ≤ 0x5A) || b == 0x5F

abbrev openBrace : UInt8 := 0x7B
abbrev closeBrace : UInt8 := 0x7D
abbrev semicolon : UInt8 := 0x3B
abbrev closeParen : UInt8 := 0x29

/-- The cells as written. -/
def rawText (cs : List Cell) : String :=
  Utf8.lossy (cs.map Cell.raw)

/-- The cells as code. -/
def codeText (cs : List Cell) : String :=
  Utf8.lossy (cs.map Cell.code)

/-! ### Looking ahead -/

/-- The cells up to the brace that closes the last of `depth + 1` open ones, and what follows. -/
def group? : Nat → List Cell → Option (List Cell × List Cell)
  | _, [] => none
  | depth, c :: cs =>
    if c.code = openBrace then (group? (depth + 1) cs).map fun g => (c :: g.1, g.2)
    else if c.code = closeBrace then
      match depth with
      | 0 => some ([c], cs)
      | depth + 1 => (group? depth cs).map fun g => (c :: g.1, g.2)
    else (group? depth cs).map fun g => (c :: g.1, g.2)

/-- The cells up to the first semicolon outside brace groups, with `depth` of them open, and
    what follows. A closing brace too many is passed. -/
def toSemicolon? : Nat → List Cell → Option (List Cell × List Cell)
  | _, [] => none
  | depth, c :: cs =>
    if c.code = semicolon ∧ depth = 0 then some ([c], cs)
    else
      let depth :=
        if c.code = openBrace then depth + 1
        else if c.code = closeBrace then depth - 1
        else depth
      (toSemicolon? depth cs).map fun g => (c :: g.1, g.2)

/-- The tag at the front of some cells with the blanks after it, and what follows. -/
def splitTag (cs : List Cell) : List Cell × List Cell :=
  match cs with
  | [] => ([], [])
  | c :: _ =>
    if isTagStart c.code then
      let rest := cs.dropWhile (isWordByte ·.code)
      (cs.takeWhile (isWordByte ·.code) ++ rest.takeWhile Cell.isBlank,
        rest.dropWhile Cell.isBlank)
    else ([], cs)

/-- The cells up to the opening brace of a definition, given those after its keyword, and what
    follows the brace: only a tag and blanks may stand between. -/
def opening? (cs : List Cell) : Option (List Cell × List Cell) :=
  let tag := splitTag (cs.dropWhile Cell.isBlank)
  match tag.2 with
  | [] => none
  | c :: rest =>
    if c.code = openBrace then some (cs.takeWhile Cell.isBlank ++ tag.1 ++ [c], rest) else none

/-- The rest of a definition, given the cells after its keyword: its heading, its group and all
    up to the semicolon. A definition that does not end is `endless`. -/
inductive Definition where
  | absent
  | endless
  | complete (cells rest : List Cell)
deriving Repr, DecidableEq

/-- The definition that the cells after a keyword start. -/
def definition (cs : List Cell) : Definition :=
  match opening? cs with
  | none => .absent
  | some (head, rest) =>
    match group? 0 rest with
    | none => .endless
    | some (body, rest) =>
      match toSemicolon? 0 rest with
      | none => .endless
      | some (tail, rest) => .complete (head ++ body ++ tail) rest

theorem length_dropWhile_le {α : Type} (p : α → Bool) (l : List α) :
    (l.dropWhile p).length ≤ l.length :=
  (List.dropWhile_sublist p).length_le

theorem length_group_lt {depth : Nat} {cs g rest : List Cell}
    (h : group? depth cs = some (g, rest)) : rest.length < cs.length := by
  fun_induction group? depth cs generalizing g rest <;> grind [Option.map_eq_some_iff]

theorem length_toSemicolon_lt {depth : Nat} {cs g rest : List Cell}
    (h : toSemicolon? depth cs = some (g, rest)) : rest.length < cs.length := by
  fun_induction toSemicolon? depth cs generalizing g rest <;> grind [Option.map_eq_some_iff]

theorem length_splitTag_le (cs : List Cell) : (splitTag cs).2.length ≤ cs.length := by
  cases cs with
  | nil => simp [splitTag]
  | cons c cs =>
    rw [splitTag]
    split
    · exact Nat.le_trans (length_dropWhile_le ..) (length_dropWhile_le ..)
    · exact Nat.le_refl _

theorem length_opening_lt {cs head rest : List Cell} (h : opening? cs = some (head, rest)) :
    rest.length < cs.length := by
  have h₁ := length_dropWhile_le Cell.isBlank cs
  have h₂ := length_splitTag_le (cs.dropWhile Cell.isBlank)
  grind [opening?]

theorem length_definition_lt {cs g rest : List Cell} (h : definition cs = .complete g rest) :
    rest.length < cs.length := by
  match ho : opening? cs with
  | none => simp [definition, ho] at h
  | some (head, after) =>
    match hg : group? 0 after with
    | none => simp [definition, ho, hg] at h
    | some (body, after') =>
      match hs : toSemicolon? 0 after' with
      | none => simp [definition, ho, hg, hs] at h
      | some (tail, after'') =>
        simp only [definition, ho, hg, hs, Definition.complete.injEq] at h
        have := length_opening_lt ho
        have := length_group_lt hg
        have := length_toSemicolon_lt hs
        rw [← h.2]
        omega

/-! ### Statements -/

/-- The part of the current statement that has been read: the offset where it stops, its cells
    from the last to the first, and whether a brace group is among them. -/
structure Statement where
  stop : Nat
  read : List Cell
  hasGroup : Bool
deriving Repr, DecidableEq

namespace Statement

/-- The statement that starts at an offset. -/
def startingAt (start : Nat) : Statement := ⟨start, [], false⟩

/-- The statement with one more cell. -/
def push (s : Statement) (c : Cell) : Statement :=
  { s with stop := s.stop + 1, read := c :: s.read }

/-- The statement with more cells. -/
def append (s : Statement) (cs : List Cell) : Statement :=
  { s with stop := s.stop + cs.length, read := cs.reverse ++ s.read }

/-- The cells from the first that is not blank as code. -/
def head (s : Statement) : List Cell :=
  s.read.reverse.dropWhile Cell.isBlank

/-- The offset of the first of these. -/
def headStart (s : Statement) : Nat :=
  s.stop - s.head.length

/-- Whether the code ends in a closing parenthesis, blanks apart. -/
def endsInParen (s : Statement) : Bool :=
  match s.read.dropWhile Cell.isBlank with
  | [] => false
  | c :: _ => c.code == closeParen

/-- Whether the statement so far opens a block of C linkage: so it reads as written, blanks
    apart. -/
def opensLinkage (s : Statement) : Bool :=
  (rawText s.head).toList.filter (fun c => !Text.isBlank c) == "extern\"C\"".toList

/-- Whether the statement so far is the one word that makes a definition a type name. -/
def isTypedef (s : Statement) : Bool :=
  Utf8.lossy ((Text.dropTail Text.isBlankByte (s.head.map Cell.code))) == "typedef"

end Statement

/-- What may be wrong with the braces of a header. -/
inductive Warning where
  | unbalanced (offset : Nat)
  | unterminated (keyword : String) (offset : Nat)
deriving Repr, DecidableEq

/-- The wording of a warning. -/
def Warning.message : Warning → String
  | .unbalanced offset => s!"Unbalanced brace at byte {offset}; ignoring the rest of the input"
  | .unterminated keyword offset =>
    s!"Unterminated {keyword} definition at byte {offset}; extending it to end of input"

/-- What reading a header at file scope gives: its definitions and prototypes in the order of
    the text, the fault that ended the reading early, and the number of blocks of C linkage
    that are still open. -/
structure Reading where
  found : List Declaration
  warning : Option Warning
  openBlocks : Nat
deriving Repr, DecidableEq

/-- A reading with one more declaration in front. -/
def Reading.cons (d : Declaration) (r : Reading) : Reading :=
  { r with found := d :: r.found }

/-- The prototype that ends with a semicolon, if the statement before it is one. -/
def Statement.prototype? (s : Statement) (last : Cell) : Option Declaration :=
  if s.hasGroup || s.head.isEmpty then none
  else if isPrototype (codeText (s.head ++ [last])) then
    some ⟨.prototype, rawText (s.head ++ [last]), s.headStart⟩
  else none

/-- Reads the rest of a header, given the statement so far and the number of open blocks of C
    linkage. -/
def readFrom (s : Statement) (blocks : Nat) (rest : List Cell) : Reading :=
  match rest with
  | [] => ⟨[], none, blocks⟩
  | c :: rest =>
    let next := Statement.startingAt (s.stop + 1)
    if c.code = semicolon then
      match s.prototype? c with
      | some d => (readFrom next blocks rest).cons d
      | none => readFrom next blocks rest
    else if c.code = openBrace then
      if s.opensLinkage then readFrom next (blocks + 1) rest
      else
        match _hg : group? 0 rest with
        | none => ⟨[], some (.unbalanced s.stop), blocks⟩
        | some (group, after) =>
          let s' := (s.push c).append group
          if s.endsInParen then readFrom (.startingAt s'.stop) blocks after
          else readFrom { s' with hasGroup := true } blocks after
    else if c.code = closeBrace then readFrom next (blocks - 1) rest
    else if isWordByte c.code then
      let word := c :: rest.takeWhile (isWordByte ·.code)
      let after := rest.dropWhile (isWordByte ·.code)
      let keyword := codeText word
      if keyword = "struct" ∨ keyword = "enum" then
        let lead := if s.isTypedef then s.head else []
        let start := s.stop - lead.length
        match _hd : definition after with
        | .absent => readFrom (s.append word) blocks after
        | .endless =>
          ⟨[⟨.structOrEnum, Text.trimEnd (rawText (lead ++ word ++ after)), start⟩],
            some (.unterminated keyword start), blocks⟩
        | .complete cells after' =>
          (readFrom (.startingAt (s.stop + (word ++ cells).length)) blocks after').cons
            ⟨.structOrEnum, rawText (lead ++ word ++ cells), start⟩
      else readFrom (s.append word) blocks after
    else readFrom (s.push c) blocks rest
termination_by rest.length
decreasing_by
  all_goals
    have hw := length_dropWhile_le (isWordByte ·.code) rest
    grind [→ length_group_lt, → length_definition_lt]

/-- Reads a whole header at file scope. -/
def read (cs : List Cell) : Reading :=
  readFrom (.startingAt 0) 0 cs

end TestBench.Source
