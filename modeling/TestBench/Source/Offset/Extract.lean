import TestBench.Source.Offset.FileScope
import TestBench.Source.Offset.Masking

/-!
# Extraction by offsets

A header is masked and its masked copy scanned, with offsets all the way.

* `extract`: the declarations of a header, unless a check fails.
-/

namespace TestBench.Source.Offset

open Utf8

/-- The declarations of a header, and what is to be reported. -/
def extract (text : String) : Checked (Extraction × List Event) := do
  let bytes := encode text
  let (masked, directives) ← mask bytes
  let reading ← scan bytes masked
  let extraction : Extraction :=
    { directives
      structsAndEnums := reading.found.filter (·.kind == .structOrEnum)
      prototypes := reading.found.filter (·.kind == .prototype) }
  return (extraction, reports reading extraction)

end TestBench.Source.Offset
