import TestBench.Toml.Quoted

/-!
# Tokens of a configuration

A configuration is cut into tokens: quoted texts, words, signs, blanks and the ends of lines.
Comments go to the end of their line and are left out.

* `length_skipComment_le`: what follows a comment is no longer than what it starts.
-/

namespace TestBench.Toml

/-- A token. A word is a run of other characters: a key, or a part of a number or of a date. -/
inductive Token where
  | newline
  | blank (c : Char)
  | dot
  | equals
  | comma
  | openSquare
  | closeSquare
  | openBrace
  | closeBrace
  | quoted (text : List Char)
  | block (text : List Char)
  | word (text : List Char)
deriving Repr, DecidableEq

/-- What follows a comment, from the end of its line on. -/
def skipComment : List Char → Option (List Char)
  | [] => some []
  | '\n' :: cs => some ('\n' :: cs)
  | '\r' :: '\n' :: cs => some ('\n' :: cs)
  | c :: cs => if isControl c then none else skipComment cs

theorem length_skipComment_le {cs rest : List Char} (h : skipComment cs = some rest) :
    rest.length ≤ cs.length := by
  fun_induction skipComment cs generalizing rest <;> grind

/-- Whether a character continues a word. -/
def continuesWord (c : Char) : Bool :=
  !isControl c && !(" \t#.=,[]\x7b\x7d\"'".toList.contains c)

/-- The tokens of a text. -/
def tokens (cs : List Char) : Option (List Token) :=
  match cs with
  | [] => some []
  | '\n' :: cs => (tokens cs).map (.newline :: ·)
  | '\r' :: '\n' :: cs => (tokens cs).map (.newline :: ·)
  | ' ' :: cs => (tokens cs).map (.blank ' ' :: ·)
  | '\t' :: cs => (tokens cs).map (.blank '\t' :: ·)
  | '#' :: cs =>
    match _h : skipComment cs with
    | some rest => tokens rest
    | none => none
  | '.' :: cs => (tokens cs).map (.dot :: ·)
  | '=' :: cs => (tokens cs).map (.equals :: ·)
  | ',' :: cs => (tokens cs).map (.comma :: ·)
  | '[' :: cs => (tokens cs).map (.openSquare :: ·)
  | ']' :: cs => (tokens cs).map (.closeSquare :: ·)
  | '\x7b' :: cs => (tokens cs).map (.openBrace :: ·)
  | '\x7d' :: cs => (tokens cs).map (.closeBrace :: ·)
  | '"' :: '"' :: '"' :: cs =>
    match _h : readBasicBlock (skipLineEnd cs) with
    | some (text, rest) => (tokens rest).map (.block text :: ·)
    | none => none
  | '\'' :: '\'' :: '\'' :: cs =>
    match _h : readLiteralBlock (skipLineEnd cs) with
    | some (text, rest) => (tokens rest).map (.block text :: ·)
    | none => none
  | '"' :: cs =>
    match _h : readBasic cs with
    | some (text, rest) => (tokens rest).map (.quoted text :: ·)
    | none => none
  | '\'' :: cs =>
    match _h : readLiteral cs with
    | some (text, rest) => (tokens rest).map (.quoted text :: ·)
    | none => none
  | c :: cs =>
    if isControl c then none
    else (tokens (cs.dropWhile continuesWord)).map
      (.word (c :: cs.takeWhile continuesWord) :: ·)
termination_by cs.length
decreasing_by
  all_goals try (simp only [List.length_cons]; omega)
  · grind [→ length_skipComment_le]
  · have := length_readBasicBlock_lt _h
    have := length_skipLineEnd_le cs
    simp only [List.length_cons]
    grind
  · have := length_readLiteralBlock_lt _h
    have := length_skipLineEnd_le cs
    simp only [List.length_cons]
    grind
  · grind [→ length_readBasic_lt]
  · grind [→ length_readLiteral_lt]
  · have := (List.dropWhile_suffix continuesWord (l := cs)).length_le
    simp only [List.length_cons]
    omega

/-! ### Groups -/

/-- The kinds of brackets. -/
inductive Bracket where
  | square
  | brace
deriving Repr, DecidableEq

/-- Tokens of which those in brackets are gathered. -/
inductive Tree where
  | leaf (token : Token)
  | group (bracket : Bracket) (inside : List Tree)
deriving Repr

/-- How deep groups may lie in each other. -/
def maxDepth : Nat := 80

/-- Gathers tokens. The groups that are open are given from the innermost one on, each with
    what stands before it; what is gathered is given backwards. -/
def gatherFrom (groups : List (Bracket × List Tree)) (level : List Tree) :
    List Token → Option (List Tree)
  | [] => if groups.isEmpty then some level.reverse else none
  | t :: ts =>
    match t, groups with
    | .openSquare, _ =>
      if groups.length < maxDepth then gatherFrom ((.square, level) :: groups) [] ts else none
    | .openBrace, _ =>
      if groups.length < maxDepth then gatherFrom ((.brace, level) :: groups) [] ts else none
    | .closeSquare, (.square, before) :: groups =>
      gatherFrom groups (.group .square level.reverse :: before) ts
    | .closeBrace, (.brace, before) :: groups =>
      gatherFrom groups (.group .brace level.reverse :: before) ts
    | .closeSquare, _ => none
    | .closeBrace, _ => none
    | t, _ => gatherFrom groups (.leaf t :: level) ts

/-- Tokens with those in brackets gathered, if the brackets match. -/
def gather (ts : List Token) : Option (List Tree) :=
  gatherFrom [] [] ts

end TestBench.Toml
