import TestBench.Text.Blank
import TestBench.Text.Utf8
import TestBench.Source.Declaration

/-!
# Lexemes of C text

C text is cut into *lexemes*, just finely enough to tell code from what is not code: comments,
the inside of literals, and directive lines. Each cut is found by looking ahead in the rest of
the text (`splitDirective`, `splitLine`, `splitComment`, `splitLiteral`), and `lexemes` goes
from one cut to the next.

A directive starts at a `#` that only blanks precede on its line, and it runs over all lines
that a backslash continues. It is looked for only where a line starts in code, so neither a
comment nor a literal can hide one, or hide in one.

* `bytes_splitDirective`, `bytes_splitComment`, `bytes_splitLiteral`: a cut loses nothing;
* `flatMap_bytes_lexemes`: the lexemes of a text put together are the text.
-/

namespace TestBench.Source

/-- The newline byte. -/
abbrev newline : UInt8 := 0x0A

/-- The backslash byte. -/
abbrev backslash : UInt8 := 0x5C

/-- The byte that starts a directive. -/
abbrev hash : UInt8 := 0x23

/-- The byte that starts a comment. -/
abbrev slash : UInt8 := 0x2F

/-- The byte that makes it a block comment. -/
abbrev star : UInt8 := 0x2A

/-- The quote of a string literal. -/
abbrev doubleQuote : UInt8 := 0x22

/-- The quote of a character literal. -/
abbrev singleQuote : UInt8 := 0x27

/-- A piece of C text. A literal keeps its opening quote apart, and `closed` tells whether the
    same quote ends it. -/
inductive Lexeme where
  | newline
  | code (byte : UInt8)
  | directive (bytes : List UInt8)
  | lineComment (bytes : List UInt8)
  | blockComment (bytes : List UInt8)
  | literal (quote : UInt8) (body : List UInt8) (closed : Bool)
deriving Repr, DecidableEq

/-- The bytes of a lexeme as written. -/
def Lexeme.bytes : Lexeme → List UInt8
  | .newline => [Source.newline]
  | .code b => [b]
  | .directive bs | .lineComment bs | .blockComment bs => bs
  | .literal q body closed => q :: body ++ if closed then [q] else []

/-- The bytes of a directive, and what follows it: it ends before the first newline whose line
    does not end in a backslash. `continued` tells whether the last byte of this line that is
    no blank was one. -/
def splitDirective (continued : Bool) : List UInt8 → List UInt8 × List UInt8
  | [] => ([], [])
  | b :: bs =>
    if b = newline then
      if continued then
        let (directive, rest) := splitDirective false bs
        (b :: directive, rest)
      else ([], b :: bs)
    else
      let (directive, rest) :=
        splitDirective (if Text.isBlankByte b then continued else b == backslash) bs
      (b :: directive, rest)

/-- The bytes of a block comment after its opening, and what follows it: it ends with the first
    closing mark, or with the text. -/
def splitComment : List UInt8 → List UInt8 × List UInt8
  | [] => ([], [])
  | [b] => ([b], [])
  | b :: c :: rest =>
    if b = star ∧ c = slash then ([b, c], rest)
    else
      let (comment, rest) := splitComment (c :: rest)
      (b :: comment, rest)

/-- The bytes between the quotes of a literal, whether it is closed, and what follows it. A
    backslash takes the next byte with it, whatever it is; a newline ends the literal
    unclosed. -/
def splitLiteral (quote : UInt8) : List UInt8 → List UInt8 × Bool × List UInt8
  | [] => ([], false, [])
  | b :: bs =>
    if b = quote then ([], true, bs)
    else if b = newline then ([], false, b :: bs)
    else if b = backslash then
      match bs with
      | [] => ([b], false, [])
      | c :: bs =>
        let (body, closed, rest) := splitLiteral quote bs
        (b :: c :: body, closed, rest)
    else
      let (body, closed, rest) := splitLiteral quote bs
      (b :: body, closed, rest)

/-- A line comment and what follows it, from its newline on. -/
def splitLine (bs : List UInt8) : List UInt8 × List UInt8 :=
  (bs.takeWhile (· != newline), bs.dropWhile (· != newline))

/-- A blank that does not end the line. -/
def isLineBlank (b : UInt8) : Bool :=
  Text.isBlankByte b && b != newline

/-- The blanks of a line and what follows them. -/
def splitBlanks (bs : List UInt8) : List UInt8 × List UInt8 :=
  (bs.takeWhile isLineBlank, bs.dropWhile isLineBlank)

/-! ### Nothing is lost at a cut -/

theorem bytes_splitDirective (continued : Bool) (bs : List UInt8) :
    (splitDirective continued bs).1 ++ (splitDirective continued bs).2 = bs := by
  induction bs generalizing continued with
  | nil => rfl
  | cons b bs ih =>
    rw [splitDirective]
    split
    · split <;> simp [ih]
    · simp [ih]

theorem bytes_splitComment (bs : List UInt8) :
    (splitComment bs).1 ++ (splitComment bs).2 = bs := by
  fun_induction splitComment bs <;> simp_all

theorem bytes_splitLiteral (q : UInt8) (bs : List UInt8) :
    (splitLiteral q bs).1 ++ ((if (splitLiteral q bs).2.1 then [q] else []) ++
      (splitLiteral q bs).2.2) = bs := by
  fun_induction splitLiteral q bs <;> simp_all

theorem bytes_splitLine (bs : List UInt8) : (splitLine bs).1 ++ (splitLine bs).2 = bs :=
  List.takeWhile_append_dropWhile

theorem bytes_splitBlanks (bs : List UInt8) : (splitBlanks bs).1 ++ (splitBlanks bs).2 = bs :=
  List.takeWhile_append_dropWhile

/-! ### The rest after a cut is no longer -/

theorem length_splitDirective_le (continued : Bool) (bs : List UInt8) :
    (splitDirective continued bs).2.length ≤ bs.length := by
  have h := congrArg List.length (bytes_splitDirective continued bs)
  rw [List.length_append] at h
  omega

theorem length_splitComment_le (bs : List UInt8) : (splitComment bs).2.length ≤ bs.length := by
  have h := congrArg List.length (bytes_splitComment bs)
  rw [List.length_append] at h
  omega

theorem length_splitLiteral_le (q : UInt8) (bs : List UInt8) :
    (splitLiteral q bs).2.2.length ≤ bs.length := by
  have h := congrArg List.length (bytes_splitLiteral q bs)
  rw [List.length_append, List.length_append] at h
  omega

theorem length_splitLine_le (bs : List UInt8) : (splitLine bs).2.length ≤ bs.length := by
  have h := congrArg List.length (bytes_splitLine bs)
  rw [List.length_append] at h
  omega

theorem length_splitBlanks_le (bs : List UInt8) : (splitBlanks bs).2.length ≤ bs.length := by
  have h := congrArg List.length (bytes_splitBlanks bs)
  rw [List.length_append] at h
  omega

/-! ### The lexemes of a text -/

/-- The lexemes of a text. `lineStart` tells whether a line starts here; if so, its blanks are
    passed first, to see whether a directive follows them. -/
def lexemesFrom (lineStart : Bool) (bs : List UInt8) : List Lexeme :=
  if lineStart then
    let blanks := splitBlanks bs
    if blanks.2.head? = some hash then
      let cut := splitDirective false blanks.2
      .directive (blanks.1 ++ cut.1) :: lexemesFrom false cut.2
    else blanks.1.map .code ++ lexemesFrom false blanks.2
  else
    match bs with
    | [] => []
    | b :: bs =>
      if b = newline then .newline :: lexemesFrom true bs
      else if b = slash ∧ bs.head? = some slash then
        let cut := splitLine bs
        .lineComment (b :: cut.1) :: lexemesFrom false cut.2
      else if b = slash ∧ bs.head? = some star then
        let cut := splitComment bs.tail
        .blockComment (b :: star :: cut.1) :: lexemesFrom false cut.2
      else if b = doubleQuote ∨ b = singleQuote then
        let cut := splitLiteral b bs
        .literal b cut.1 cut.2.1 :: lexemesFrom false cut.2.2
      else .code b :: lexemesFrom false bs
termination_by 2 * bs.length + lineStart.toNat
decreasing_by
  all_goals simp only [List.length_cons, Bool.toNat_false, Bool.toNat_true]
  · have h := length_splitDirective_le false (splitBlanks bs).2
    have h' := length_splitBlanks_le bs
    rw [‹lineStart = true›, Bool.toNat_true]
    omega
  · have h := length_splitBlanks_le bs
    rw [‹lineStart = true›, Bool.toNat_true]
    omega
  · omega
  · have h := length_splitLine_le bs
    omega
  · have h := length_splitComment_le bs.tail
    rw [List.length_tail] at h
    omega
  · have h := length_splitLiteral_le b bs
    omega
  · omega

/-- The lexemes of a text, whose first byte starts a line. -/
def lexemes (bs : List UInt8) : List Lexeme :=
  lexemesFrom true bs

/-- The bytes of code lexemes are those they were made of. -/
theorem flatMap_bytes_map_code (bs : List UInt8) :
    (bs.map Lexeme.code).flatMap Lexeme.bytes = bs := by
  induction bs with
  | nil => rfl
  | cons b bs ih => simp [Lexeme.bytes, ih]

/-- The lexemes from any place on, put together, are the rest of the text. -/
theorem flatMap_bytes_lexemesFrom (lineStart : Bool) (bs : List UInt8) :
    (lexemesFrom lineStart bs).flatMap Lexeme.bytes = bs := by
  fun_induction lexemesFrom lineStart bs with
  | case1 bs blanks _ cut ih =>
    rw [List.flatMap_cons, ih, Lexeme.bytes, List.append_assoc, bytes_splitDirective,
      bytes_splitBlanks]
  | case2 bs blanks _ ih =>
    rw [List.flatMap_append, flatMap_bytes_map_code, ih, bytes_splitBlanks]
  | case3 => rfl
  | case4 => simp_all [Lexeme.bytes]
  | case5 _ _ b bs _ _ cut ih =>
    rw [List.flatMap_cons, ih, Lexeme.bytes, List.cons_append, bytes_splitLine]
  | case6 _ _ b bs _ _ h cut ih =>
    rw [List.flatMap_cons, ih, Lexeme.bytes, List.cons_append, List.cons_append,
      bytes_splitComment]
    cases bs <;> simp_all
  | case7 _ _ b bs _ _ _ _ cut ih =>
    rw [List.flatMap_cons, ih, Lexeme.bytes, List.cons_append, List.cons_append,
      List.append_assoc, bytes_splitLiteral]
  | case8 _ _ b bs _ _ _ _ ih => simp [Lexeme.bytes, ih]

/-- The lexemes of a text, put together, are the text. -/
theorem flatMap_bytes_lexemes (bs : List UInt8) : (lexemes bs).flatMap Lexeme.bytes = bs :=
  flatMap_bytes_lexemesFrom true bs

end TestBench.Source
