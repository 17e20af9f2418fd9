import TestBench.Source.Extract
import TestBench.Source.Offset.Basic

/-!
# Masking by offsets

The bytes of a text that are no code are blanked in a copy of it, from the start to the end, and the
directives are noted on the way. A round passes what starts at one offset: a byte of code, or all of
a comment, a literal or a directive, whose end is searched for.

* `mask`: the copy, and the directives.
-/

namespace TestBench.Source.Offset

/-! ### Where things end -/

/-- Whether the last byte of a line that is no blank is a backslash. -/
def isContinued (line : List UInt8) : Bool :=
  line.reverse.find? (fun b => !Text.isBlankByte b) == some backslash

/-- The end of the directive at an offset: the first end of a line that is not continued. -/
def directiveEnd (bytes : List UInt8) (start : Nat) : Checked Nat :=
  loop (bytes.length - ·) (fun pos => do
    let stop ← find (· == newline) bytes pos
    let line ← slice bytes pos stop
    if isContinued line && decide (stop < bytes.length) then return .inl (stop + 1)
    else return .inr stop) start

/-- The end of the block comment at an offset: behind the first closing mark, or the end. -/
def commentEnd (bytes : List UInt8) (start : Nat) : Checked Nat := do
  let inside ← sliceFrom bytes (start + 2)
  match (inside.zip inside.tail).findIdx? (· == (star, slash)) with
  | some offset => return start + 2 + offset + 2
  | none => return bytes.length

/-- Where a literal ends whose inside starts at an offset: at its quote, at a newline, or behind the
    text. A backslash takes the next byte with it, whether or not there is one. -/
def literalEnd (bytes : List UInt8) (quote : UInt8) (start : Nat) : Checked Nat :=
  loop (bytes.length - ·) (fun pos => do
    if pos < bytes.length then
      let b ← elementAt bytes pos
      if b = quote ∨ b = newline then return .inr pos
      else if b = backslash then return .inl (pos + 2)
      else return .inl (pos + 1)
    else return .inr pos) start

/-! ### Rounds -/

/-- How far masking has come: the offset of the next byte, that of its line, whether only blanks
    are between the two, the copy in which everything before is masked, and the directives. -/
structure Masking where
  place : Nat
  lineStart : Nat
  atLineStart : Bool
  masked : List UInt8
  directives : List Declaration

/-- The bytes with those from one offset up to another blanked. -/
def blank (bytes : List UInt8) (start stop : Nat) : Checked (List UInt8) := do
  let part ← slice bytes start stop
  return bytes.take start ++ part.map (fun b => (Cell.blanked b).code) ++ bytes.drop stop

namespace Masking

variable (m : Masking) (bytes : List UInt8)

/-- Goes to the next line. -/
def passNewline : Masking :=
  { m with place := m.place + 1, lineStart := m.place + 1, atLineStart := true }

/-- Notes the directive of this line, and goes to its end. -/
def passDirective : Checked Masking := do
  let stop ← directiveEnd bytes m.place
  let line ← slice bytes m.lineStart stop
  let text := String.ofList (Text.dropTail (· == '\r') (Utf8.lossy line).toList)
  let masked ← blank m.masked m.lineStart stop
  return { m with
    place := stop
    masked
    directives := m.directives ++ [⟨.directive, text, m.lineStart⟩] }

/-- Passes a comment up to its end. -/
def passComment (stop : Nat) : Checked Masking := do
  let masked ← blank m.masked m.place stop
  return { m with place := stop, atLineStart := false, masked }

/-- Passes a literal, with the quote at its end if there is one. -/
def passLiteral (quote : UInt8) : Checked Masking := do
  let stop := min (← literalEnd bytes quote (m.place + 1)) bytes.length
  let masked ← blank m.masked (m.place + 1) stop
  let next ← peek bytes stop
  return { m with
    place := if next = some quote then stop + 1 else stop
    atLineStart := false
    masked }

/-- Passes a byte of code. -/
def passCode (b : UInt8) : Masking :=
  { m with place := m.place + 1, atLineStart := m.atLineStart && Text.isBlankByte b }

/-- Passes what starts with the next byte. -/
def pass : Checked Masking := do
  let b ← elementAt bytes m.place
  let next := bytes[m.place + 1]?
  if b = newline then return m.passNewline
  else if m.atLineStart ∧ b = hash then m.passDirective bytes
  else if b = slash ∧ next = some slash then
    m.passComment (← find (· == newline) bytes m.place)
  else if b = slash ∧ next = some star then m.passComment (← commentEnd bytes m.place)
  else if b = doubleQuote ∨ b = singleQuote then m.passLiteral bytes b
  else return m.passCode b

end Masking

/-- The text with all that is no code masked, and its directives. -/
def mask (bytes : List UInt8) : Checked (List UInt8 × List Declaration) :=
  loop (bytes.length - Masking.place ·) (fun m => do
    if m.place < bytes.length then return .inl (← m.pass bytes)
    else return .inr (m.masked, m.directives)) ⟨0, 0, true, bytes, []⟩

end TestBench.Source.Offset
