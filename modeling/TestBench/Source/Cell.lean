import TestBench.Source.Lexeme

/-!
# Cells

A byte of C text seen twice: as it is written and as code. Code is the text in which comments,
directives and the insides of literals are blank, so that a brace or a semicolon in it always
is one of the language. Newlines stay, and so does the place of every byte.

* `raw_cells`: as written, the cells of a text are the text;
* `length_cells`: every byte has one cell.
-/

namespace TestBench.Source

/-- A byte as written and as code. -/
structure Cell where
  raw : UInt8
  code : UInt8
deriving Repr, DecidableEq

namespace Cell

/-- A byte that is code. -/
def plain (b : UInt8) : Cell := ⟨b, b⟩

/-- A byte that is not code: only a newline shows. -/
def blanked (b : UInt8) : Cell := ⟨b, if b = newline then newline else 0x20⟩

/-- Whether a cell is blank as code. -/
def isBlank (c : Cell) : Bool :=
  Text.isBlankByte c.code

end Cell

/-- The cells of a lexeme. Of a literal, the quotes are code. -/
def Lexeme.cells : Lexeme → List Cell
  | .newline => [.plain Source.newline]
  | .code b => [.plain b]
  | .directive bs | .lineComment bs | .blockComment bs => bs.map .blanked
  | .literal q body closed =>
    .plain q :: body.map .blanked ++ if closed then [.plain q] else []

/-- The cells of a text. -/
def cells (bs : List UInt8) : List Cell :=
  (lexemes bs).flatMap Lexeme.cells

/-- As written, the cells of a lexeme are its bytes. -/
theorem raw_cells_lexeme (l : Lexeme) : l.cells.map Cell.raw = l.bytes := by
  have h : Cell.raw ∘ Cell.blanked = id := rfl
  cases l with
  | literal q body closed => cases closed <;> simp [Lexeme.cells, Lexeme.bytes, h, Cell.plain]
  | _ => simp [Lexeme.cells, Lexeme.bytes, h, Cell.plain]

/-- So for several lexemes. -/
theorem raw_flatMap_cells (ls : List Lexeme) :
    (ls.flatMap Lexeme.cells).map Cell.raw = ls.flatMap Lexeme.bytes := by
  have h : (fun l : Lexeme => l.cells.map Cell.raw) = Lexeme.bytes := funext raw_cells_lexeme
  rw [List.map_flatMap, h]

/-- As written, the cells of a text are the text. -/
theorem raw_cells (bs : List UInt8) : (cells bs).map Cell.raw = bs := by
  rw [cells, raw_flatMap_cells, flatMap_bytes_lexemes]

/-- Every byte has one cell. -/
theorem length_cells (bs : List UInt8) : (cells bs).length = bs.length := by
  rw [← List.length_map (f := Cell.raw), raw_cells]

end TestBench.Source
