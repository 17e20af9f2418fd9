import TestBench.World

/-!
# Source files

A file of C is read once, under its absolute path. Stray bytes in a header do no harm, since only
declarations are taken from it; an implementation goes into the test module as it is, and so has
to be a text.

* `decode_of_text`: a text is read the same either way.
-/

namespace TestBench

/-- What a source file is read for. -/
inductive SourceKind where
  | header
  | implementation
deriving Repr, DecidableEq

/-- The extension of the files of a kind. -/
def SourceKind.extension : SourceKind → String
  | .header => "h"
  | .implementation => "c"

/-- The name of a kind. -/
def SourceKind.name : SourceKind → String
  | .header => "Header"
  | .implementation => "Implementation"

/-- A source file that was read: its absolute path and its text. -/
structure SourceFile where
  path : Path
  kind : SourceKind
  content : String
deriving Repr, DecidableEq

namespace SourceFile

/-- The name of a file without the extension, as far as that is a text. -/
def stem (f : SourceFile) : String :=
  (f.path.stem?.bind ByteString.text?).getD "module"

/-- The text that bytes are for a kind of file, and whether some of them had to be replaced. -/
def decode (kind : SourceKind) (bytes : List UInt8) : Except Utf8.Fault (String × Bool) :=
  match Utf8.decode bytes, kind with
  | .ok text, _ => .ok (text, false)
  | .error _, .header => .ok (Utf8.lossy bytes, true)
  | .error fault, .implementation => .error fault

/-- Asks something of the files; a refusal is reported as that of a source file. -/
def askAbout {σ α : Type} (p : Path) (f : FileTree → Except Fault α) : Action σ α := do
  let t ← Action.files
  match f t with
  | .ok a => return a
  | .error fault => Action.fail (.unreadableSource p fault)

/-- Reads the file that a path leads to. -/
def read {σ : Type} (p : Path) (kind : SourceKind) : Action σ SourceFile := do
  let path ← askAbout p (·.canonical p)
  let bytes ← askAbout path (·.readBytes path)
  match decode kind bytes with
  | .error fault => Action.fail (.unreadableSource path (.malformed fault))
  | .ok (content, replaced) =>
    if replaced then
      Action.report .warn .reading s!"{path.display} is not valid UTF-8; invalid bytes replaced"
    return ⟨path, kind, content⟩

/-- A text is read the same either way. -/
theorem decode_of_text {bytes : List UInt8} {text : String} (h : Utf8.decode bytes = .ok text)
    (kind : SourceKind) : decode kind bytes = .ok (text, false) := by
  simp [decode, h]

end SourceFile

end TestBench
