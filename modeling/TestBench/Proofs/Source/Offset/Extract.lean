import TestBench.Proofs.Source.Offset.FileScope
import TestBench.Proofs.Source.Offset.Masking
import TestBench.Source.Offset.Extract

/-!
# Extraction without a trap

Of a text with fewer than 2 ^ 31 bytes extraction by offsets gives what is extracted from its
lexemes, without a failing check: no access and no slice is out of bounds, no slice ends before it
starts, no depth is negative or too large, and no round of a loop leaves as much to do as there was.

* `extract_eq_ok`: no check fails, and what is extracted is the same.
-/

namespace TestBench.Source.Offset

open Utf8

/-- No check fails: masking and the scan go further on in the text with each round, every slice ends
    inside and not before it starts, and no depth is negative. What is extracted is what the lexemes
    of the text declare. -/
theorem extract_eq_ok {text : String} (h : (encode text).length < 0x80000000) :
    extract text = .ok (extractWithReports text) := by
  have hmask := mask_eq_ok (encode text)
  have hscan := scan_eq_ok (cells (encode text)) (by rwa [length_cells])
  rw [raw_cells] at hscan
  simp only [extract, hmask, hscan, ok_bind, pure_eq_ok]
  rfl

/-- A prototype with an attribute, and a definition that does not end: its last byte is a backslash,
    which takes the search for the end of its literal behind the end of the text. -/
def truncated : String :=
  "int f(int) __attribute__((pure));\nenum e \x7b A = '\\"

theorem extract_truncated : (encode truncated).length < 0x80000000 ∧
    extract truncated = .ok (extractWithReports truncated) ∧
      (extract truncated).map Prod.fst = .ok
        { directives := []
          structsAndEnums := [⟨.structOrEnum, "enum e \x7b A = '\\", 34⟩]
          prototypes := [⟨.prototype, "int f(int) __attribute__((pure));", 0⟩] } :=
  ⟨by decide, extract_eq_ok (by decide), by decide +kernel⟩

end TestBench.Source.Offset
