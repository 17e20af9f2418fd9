import TestBench.Failure
import TestBench.Source.Declaration
import TestBench.Template.Bundled

/-!
# Templates

A template is a text in which two placeholders stand, one for the definitions of a header and
one for an implementation, each once. Rendering puts two texts in their places; what is put in
is never looked at again. Two placeholders may share underscores, the last of one being the
first of the other; such a template is accepted, but there is no text for it (`render?`).

* `length_occurrencesFrom_of_skip`: within an occurrence no other one is counted.
-/

namespace TestBench

/-- What stands for the definitions of the header. -/
def headerPlaceholder : String := "__HEADER_DEFINITIONS__"

/-- What stands for the implementation. -/
def implementationPlaceholder : String := "__FUNCTIONS_IMPLEMENTATION__"

/-- The places where a token occurs in a text, from left to right, no two of them sharing a
    character. The text starts at `pos`, and its first `skip` characters belong to an
    occurrence already counted. -/
def occurrencesFrom (token : List Char) (skip pos : Nat) : List Char → List Nat
  | [] => []
  | c :: cs =>
    match skip with
    | skip + 1 => occurrencesFrom token skip (pos + 1) cs
    | 0 =>
      if token.isPrefixOf (c :: cs) then
        pos :: occurrencesFrom token (token.length - 1) (pos + 1) cs
      else occurrencesFrom token 0 (pos + 1) cs

/-- The places where a token occurs in a text. -/
def occurrences (token text : List Char) : List Nat :=
  occurrencesFrom token 0 0 text

/-- Within an occurrence no other one is counted. -/
theorem length_occurrencesFrom_of_skip (token : List Char) (pos : Nat) (cs ds : List Char) :
    occurrencesFrom token cs.length pos (cs ++ ds) =
      occurrencesFrom token 0 (pos + cs.length) ds := by
  induction cs generalizing pos with
  | nil => rfl
  | cons c cs ih =>
    rw [List.length_cons, List.cons_append, occurrencesFrom, ih]
    congr 1
    omega

/-- A text in which each placeholder occurs once, and where. -/
structure Template where
  text : List Char
  headerAt : Nat
  implementationAt : Nat
deriving Repr, DecidableEq

namespace Template

/-- The one place where a token occurs in a text. -/
def place (text : List Char) (token : String) : Except Failure Nat :=
  match occurrences token.toList text with
  | [at'] => .ok at'
  | places => .error (.placeholder token places.length)

/-- The template that a text is. -/
def parse (text : String) : Except Failure Template := do
  let headerAt ← place text.toList headerPlaceholder
  let implementationAt ← place text.toList implementationPlaceholder
  return ⟨text.toList, headerAt, implementationAt⟩

/-- The template that is used if a project names none. -/
def bundled : Except Failure Template :=
  parse bundledText

/-- A text with two disjoint stretches of it, the earlier one first, replaced. There is none if
    the first ends after the second starts. -/
def splice? (text : List Char) (at₁ length₁ : Nat) (new₁ : List Char) (at₂ length₂ : Nat)
    (new₂ : List Char) : Option (List Char) :=
  if at₁ + length₁ ≤ at₂ then
    some (text.take at₁ ++ new₁ ++ (text.take at₂).drop (at₁ + length₁) ++ new₂ ++
      text.drop (at₂ + length₂))
  else none

/-- The template with the placeholders replaced. There is no such text if they overlap. -/
def render? (t : Template) (header implementation : String) : Option String :=
  let headerLength := headerPlaceholder.length
  let implementationLength := implementationPlaceholder.length
  (if t.headerAt ≤ t.implementationAt then
    splice? t.text t.headerAt headerLength header.toList
      t.implementationAt implementationLength implementation.toList
  else
    splice? t.text t.implementationAt implementationLength implementation.toList
      t.headerAt headerLength header.toList).map String.ofList

end Template

/-- The text of a test module: the template with the definitions that declarations stand for,
    and the implementation, in the places for them. -/
def synthesize (template : String) (declarations : List Declaration) (implementation : String) :
    Except Halt String :=
  match Template.parse template with
  | .error failure => .error (.failure failure)
  | .ok t =>
    match t.render? (headerDefinitions declarations) implementation with
    | some text => .ok text
    | none => .error .crash

end TestBench
