/-!
# Declarations

What a header contributes to a test module: directives, definitions of structs and enums, and
prototypes of functions, each with its text as written and its place in the header. Several
declarations are put in one text by `headerDefinitions`: in the order of their places, each
text once.

* `declarations_perm`: merging the three lists of an extraction loses and adds nothing.
-/

namespace TestBench

/-- The kinds of declarations that are recovered. -/
inductive DeclarationKind where
  | directive
  | structOrEnum
  | prototype
deriving Repr, DecidableEq

/-- A fragment of a header: its kind, its text and the offset of its first byte. -/
structure Declaration where
  kind : DeclarationKind
  text : String
  order : Nat
deriving Repr, DecidableEq

/-- The declarations found in a header, by kind, each list in the order of the text. -/
structure Extraction where
  directives : List Declaration
  structsAndEnums : List Declaration
  prototypes : List Declaration
deriving Repr, DecidableEq

/-- Declarations by their places; those of one place stay as they stand. -/
def sortByOrder (ds : List Declaration) : List Declaration :=
  ds.mergeSort fun a b => a.order ≤ b.order

namespace Extraction

/-- Nothing found. -/
def empty : Extraction := ⟨[], [], []⟩

/-- The number of declarations found. -/
def size (e : Extraction) : Nat :=
  e.directives.length + e.structsAndEnums.length + e.prototypes.length

/-- Whether no declaration was found. -/
def isEmpty (e : Extraction) : Bool :=
  e.directives.isEmpty && e.structsAndEnums.isEmpty && e.prototypes.isEmpty

/-- All declarations in the order of their places. Of two at one place, a directive comes
    before a definition, and a definition before a prototype. -/
def declarations (e : Extraction) : List Declaration :=
  sortByOrder (e.directives ++ e.structsAndEnums ++ e.prototypes)

/-- Merging the three lists loses and adds nothing. -/
theorem declarations_perm (e : Extraction) :
    e.declarations.Perm (e.directives ++ e.structsAndEnums ++ e.prototypes) :=
  List.mergeSort_perm ..

end Extraction

/-- The members of a list that are not in `seen` and not repeats of earlier ones. -/
def firstOccurrences (seen : List String) : List String → List String
  | [] => []
  | t :: ts =>
    if t ∈ seen then firstOccurrences seen ts else t :: firstOccurrences (t :: seen) ts

/-- The text that stands for declarations in a module: their texts in the order of their
    places, one below the other, each once. -/
def headerDefinitions (ds : List Declaration) : String :=
  "\n".intercalate (firstOccurrences [] ((sortByOrder ds).map Declaration.text))

end TestBench
