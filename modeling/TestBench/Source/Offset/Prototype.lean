import TestBench.Source.Offset.Basic
import TestBench.Source.Prototype

/-!
# Prototypes by offsets

Parentheses are counted with 32 bits, and a group is cut off by the offset of the byte that opens
it, where a character has to start.

* `isPrototype`: whether a statement is a prototype.
-/

namespace TestBench.Source.Offset

/-! ### Texts and the offsets of their characters -/

/-- The characters of a text with their offsets, if the text itself has an offset. -/
def charIndices (start : Nat) : List Char → List (Nat × Char)
  | [] => []
  | c :: cs => (start, c) :: charIndices (start + c.utf8Size) cs

/-- The text up to an offset, where a character has to start, or the text to end. -/
def textTo : List Char → Nat → Checked (List Char)
  | _, 0 => .ok []
  | [], _ + 1 => .error .noSlice
  | c :: cs, n + 1 => do
    if c.utf8Size ≤ n + 1 then return c :: (← textTo cs (n + 1 - c.utf8Size))
    else .error .noSlice

/-- A text without a given end. -/
def stripSuffix? (suffix cs : List Char) : Option (List Char) :=
  (afterPrefix? suffix.reverse cs.reverse).map List.reverse

/-! ### Attributes -/

/-- The offset of the parenthesis that opens the last group of a text, given the characters of the
    text from the last to the first. -/
def groupStart (depth : Int) : List (Nat × Char) → Checked (Option Nat)
  | [] => return none
  | (i, c) :: rest => do
    if c = ')' then groupStart (← count (depth + 1)) rest
    else if c = '(' then
      let depth ← count (depth - 1)
      if depth = 0 then return some i else groupStart depth rest
    else groupStart depth rest

/-- What a round leaves of a text: all but the group of an attribute at its end, or all of it. -/
def dropAttribute (body : List Char) : Checked (List Char ⊕ List Char) := do
  if body.getLast? = some ')' then
    match ← groupStart 0 (charIndices 0 body).reverse with
    | none => return .inr body
    | some start =>
      let before ← textTo body start
      match stripSuffix? "__attribute__".toList (Text.dropTail Text.isBlank before) with
      | none => return .inr body
      | some rest => return .inl (Text.dropTail Text.isBlank rest)
  else return .inr body

/-- The statement without the groups of attributes before its semicolon. -/
def withoutAttributes (statement : List Char) : Checked (List Char) :=
  match stripSuffix? [';'] (Text.dropTail Text.isBlank statement) with
  | none => return statement
  | some body => do
    let body ← loop List.length dropAttribute (Text.dropTail Text.isBlank body)
    return body ++ [';']

/-! ### The form of a prototype -/

/-- Whether the parentheses of a text match, with `depth` of them open to its left. -/
def isBalanced (depth : Int) : List Char → Checked Bool
  | [] => return depth == 0
  | c :: cs => do
    if c = '(' then isBalanced (← count (depth + 1)) cs
    else if c = ')' then
      let depth ← count (depth - 1)
      if depth < 0 then return false else isBalanced depth cs
    else isBalanced depth cs

/-- Whether a statement is a prototype. -/
def isPrototype (statement : String) : Checked Bool := do
  match Prototype.parts? (← withoutAttributes statement.toList) with
  | none => return false
  | some p =>
    if p.result.any fun w => nonTypeWords.contains (String.ofList w) then return false
    else if nonFunctionNames.contains (String.ofList p.name) then return false
    else isBalanced 0 p.params

end TestBench.Source.Offset
