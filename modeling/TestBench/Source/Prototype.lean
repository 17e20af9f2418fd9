import TestBench.Text.Blank
import TestBench.Text.Word

/-!
# Prototypes

A statement is a prototype if it reads: the words of a result type with blanks and stars
between them, a name, parameters in parentheses, then any number of attribute groups, then a
semicolon. The first parenthesis opens the parameters, and the last one, once the attributes
are gone, closes them; so there is nothing to try twice.

* `without_attributes_of_not_terminated`: only a statement that ends in a semicolon is touched.
-/

namespace TestBench.Source

/-- The parts of a statement that has the outer form of a prototype. -/
structure Prototype where
  /-- The words of the result type, in order. -/
  result : List (List Char)
  name : List Char
  params : List Char
deriving Repr, DecidableEq

/-- The keywords that stand before parentheses without naming a function. -/
def nonFunctionNames : List String :=
  ["if", "while", "for", "switch", "return", "sizeof"]

/-- The words that no result type contains. -/
def nonTypeWords : List String :=
  ["typedef", "return"]

/-! ### Trailing attributes -/

/-- Given a reversed text and the number of parentheses open to its right, the text before the
    one that opens the outermost group. -/
def beforeGroup : Nat → List Char → Option (List Char)
  | _, [] => none
  | depth, ')' :: cs => beforeGroup (depth + 1) cs
  | 0, '(' :: cs => beforeGroup 0 cs
  | 1, '(' :: cs => some cs
  | depth + 2, '(' :: cs => beforeGroup (depth + 1) cs
  | depth, _ :: cs => beforeGroup depth cs

/-- The keyword of an attribute group, reversed. -/
def attributeKeyword : List Char := "__attribute__".toList.reverse

/-- A list without a given beginning. -/
def afterPrefix? [BEq α] : List α → List α → Option (List α)
  | [], l => some l
  | _ :: _, [] => none
  | p :: ps, c :: cs => if p == c then afterPrefix? ps cs else none

theorem length_beforeGroup_lt {depth : Nat} {cs rest : List Char}
    (h : beforeGroup depth cs = some rest) : rest.length < cs.length := by
  fun_induction beforeGroup depth cs <;> grind

theorem length_afterPrefix?_le [BEq α] {ps cs rest : List α} (h : afterPrefix? ps cs = some rest) :
    rest.length ≤ cs.length := by
  fun_induction afterPrefix? ps cs <;> grind

/-- A reversed text without the attribute groups at its front, and without the blanks before
    each. -/
def dropAttributes (body : List Char) : List Char :=
  if body.head? = some ')' then
    match _hg : beforeGroup 0 body with
    | none => body
    | some before =>
      match _ha : afterPrefix? attributeKeyword (before.dropWhile Text.isBlank) with
      | none => body
      | some rest => dropAttributes (rest.dropWhile Text.isBlank)
  else body
termination_by body.length
decreasing_by
  have h := length_beforeGroup_lt _hg
  have h' := length_afterPrefix?_le _ha
  have hb : (before.dropWhile Text.isBlank).length ≤ before.length :=
    (List.dropWhile_sublist _).length_le
  have hr : (rest.dropWhile Text.isBlank).length ≤ rest.length :=
    (List.dropWhile_sublist _).length_le
  omega

/-- A statement without the attribute groups before its semicolon. One without a semicolon is
    left as it is. -/
def withoutAttributes (statement : List Char) : List Char :=
  match statement.reverse.dropWhile Text.isBlank with
  | ';' :: body => (';' :: dropAttributes (body.dropWhile Text.isBlank)).reverse
  | _ => statement

/-! ### The form of a prototype -/

/-- Whether a character stands between the words of a result type. -/
def isTypeGap (c : Char) : Bool :=
  Text.isBlank c || c == '*'

/-- The longest word at the front of a text, and the rest; the word starts with an ASCII letter
    or an underscore. -/
def word? : List Char → Option (List Char × List Char)
  | [] => none
  | c :: cs =>
    if Text.isWordStart c then some (c :: cs.takeWhile Text.isWord, cs.dropWhile Text.isWord)
    else none

theorem length_word?_lt {cs w rest : List Char} (h : word? cs = some (w, rest)) :
    rest.length < cs.length := by
  cases cs with
  | nil => simp [word?] at h
  | cons c cs =>
    have hd : (cs.dropWhile Text.isWord).length ≤ cs.length :=
      (List.dropWhile_sublist _).length_le
    simp only [word?] at h
    split at h
    · simp only [Option.some.injEq, Prod.mk.injEq] at h
      rw [← h.2, List.length_cons]
      omega
    · simp at h

/-- The words that make up a text, apart from the gaps between them, provided that no gap is
    empty, no star follows the last word and nothing but words and gaps occurs. -/
def words? (cs : List Char) : Option (List (List Char)) :=
  match _h : word? cs with
  | none => none
  | some (w, rest) =>
    if rest.all Text.isBlank then some [w]
    else if (rest.takeWhile isTypeGap).isEmpty then none
    else (words? (rest.dropWhile isTypeGap)).map (w :: ·)
termination_by cs.length
decreasing_by
  have h := length_word?_lt _h
  have hr : (rest.dropWhile isTypeGap).length ≤ rest.length :=
    (List.dropWhile_sublist _).length_le
  omega

/-- The parameters that a text starts with, if nothing follows them but a closing parenthesis
    and a semicolon, with blanks before and none after the latter. -/
def params? (cs : List Char) : Option (List Char) :=
  match cs.reverse with
  | ';' :: rest =>
    match rest.dropWhile Text.isBlank with
    | ')' :: params =>
      if params.any fun c => c == ';' || c == '{' || c == '}' then none else some params.reverse
    | _ => none
  | _ => none

/-- The parts of a statement of the form of a prototype, its attributes apart. -/
def Prototype.parts? (statement : List Char) : Option Prototype :=
  match statement.dropWhile (· != '(') with
  | [] => none
  | _ :: tail =>
    match words? (statement.takeWhile (· != '(')), params? tail with
    | some ws, some params =>
      match ws.getLast? with
      | some name => if ws.dropLast.isEmpty then none else some ⟨ws.dropLast, name, params⟩
      | none => none
    | _, _ => none

/-- Whether the parentheses of a text match, with `depth` of them open to its left. -/
def isBalanced : Nat → List Char → Bool
  | depth, [] => depth == 0
  | depth, '(' :: cs => isBalanced (depth + 1) cs
  | 0, ')' :: _ => false
  | depth + 1, ')' :: cs => isBalanced depth cs
  | depth, _ :: cs => isBalanced depth cs

/-- The prototype that a statement is, if it is one: no word of its result type may belong to
    another kind of statement, its name must be one of a function, and the parentheses of its
    parameters must match. -/
def Prototype.ofStatement? (statement : List Char) : Option Prototype :=
  (parts? (withoutAttributes statement)).filter fun p =>
    p.result.all (fun w => !nonTypeWords.contains (String.ofList w)) &&
      !nonFunctionNames.contains (String.ofList p.name) && isBalanced 0 p.params

/-- Whether a statement is a prototype. -/
def isPrototype (statement : String) : Bool :=
  (Prototype.ofStatement? statement.toList).isSome

/-- Only a statement that ends in a semicolon is touched. -/
theorem without_attributes_of_not_terminated {statement : List Char}
    (h : (statement.reverse.dropWhile Text.isBlank).head? ≠ some ';') :
    withoutAttributes statement = statement := by
  rw [withoutAttributes]
  split
  · simp_all
  · rfl

end TestBench.Source
