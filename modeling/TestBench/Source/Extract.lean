import TestBench.Log
import TestBench.Source.FileScope

/-!
# Extraction

The declarations of a header, recovered from its bytes alone: no macro is expanded and nothing
is checked. The directives are among the lexemes of the text, and the definitions and the
prototypes are those that its code shows at file scope.

* `extract_of_no_bytes`: an empty text declares nothing.
-/

namespace TestBench.Source

/-- The directives among lexemes, the first of which starts at an offset. A directive is taken
    without the carriage returns at its end. -/
def directivesFrom (order : Nat) : List Lexeme → List Declaration
  | [] => []
  | .directive bs :: ls =>
    let text := String.ofList (Text.dropTail (· == '\r') (Utf8.lossy bs).toList)
    ⟨.directive, text, order⟩ :: directivesFrom (order + bs.length) ls
  | l :: ls => directivesFrom (order + l.bytes.length) ls

/-- What is reported about an extraction: the fault that ended the reading early, blocks that
    are still open, and how much was found. -/
def reports (r : Reading) (e : Extraction) : List Event :=
  (r.warning.map fun w => ⟨.warn, .extraction, w.message⟩).toList ++
    (if r.openBlocks = 0 then [] else
      [⟨.debug, .extraction, s!"{r.openBlocks} extern \"C\" block(s) left open"⟩]) ++
    [⟨.debug, .extraction,
      s!"Extracted {e.directives.length} directives, {e.structsAndEnums.length}" ++
        s!" struct/enum definitions, {e.prototypes.length} prototypes"⟩]

/-- The declarations of a header, and what is to be reported. -/
def extractWithReports (text : String) : Extraction × List Event :=
  let ls := lexemes (Utf8.encode text)
  let reading := read (ls.flatMap Lexeme.cells)
  let extraction : Extraction :=
    { directives := directivesFrom 0 ls
      structsAndEnums := reading.found.filter (·.kind == .structOrEnum)
      prototypes := reading.found.filter (·.kind == .prototype) }
  (extraction, reports reading extraction)

/-- The declarations of a header. -/
def extract (text : String) : Extraction :=
  (extractWithReports text).1

/-- An empty text declares nothing. -/
theorem extract_of_no_bytes : extract "" = Extraction.empty := by
  have hl : lexemes (Utf8.encode "") = [] := by
    simp [lexemes, lexemesFrom, Utf8.encode, splitBlanks]
  simp [extract, extractWithReports, hl, directivesFrom, read, readFrom, Extraction.empty]

end TestBench.Source
