/-!
# Test modules

What a run generates: a file that binds an implementation, named after it.
-/

namespace TestBench

/-- A generated test module: the name of its file, its text, and the name of the file of the
    implementation that it binds. -/
structure TestModule where
  fileName : String
  content : String
  sourceName : String
deriving Repr, DecidableEq

/-- The file name of the test module for an implementation with the given stem. The extension
    comes with its dot, or is empty. -/
def TestModule.fileNameFor (stem extension : String) : String :=
  s!"test_{stem}{extension}"

end TestBench
