import TestBench.Text.Pieces

/-!
# Patterns

A pattern is a text in which a star stands for any text, a question mark for any character, and
brackets for any of the characters in them. Only characters that are not quoted have a meaning
of their own, so a pattern is a list of characters each with a mark.

* `fits_quoted`: where everything is quoted, a pattern fits itself only.
-/

namespace TestBench.Shell

/-- A character, and whether it is quoted. -/
structure Marked where
  char : Char
  quoted : Bool
deriving Repr, DecidableEq

/-- A text with marks. -/
abbrev Pattern := List Marked

namespace Pattern

/-- A text as a pattern, all of it quoted or not. -/
def ofText (quoted : Bool) (cs : List Char) : Pattern :=
  cs.map fun c => ⟨c, quoted⟩

/-- The characters of a pattern. -/
def chars (p : Pattern) : List Char :=
  p.map Marked.char

/-- Whether a character has a meaning of its own in patterns. -/
def isActive (m : Marked) : Bool :=
  !m.quoted && (m.char = '*' || m.char = '?' || m.char = '[')

/-- Whether a character is among those that brackets hold, where a dash stands for a range. -/
def holds (c : Char) : List Char → Bool
  | a :: '-' :: b :: rest => (a ≤ c && c ≤ b) || holds c rest
  | a :: rest => a = c || holds c rest
  | [] => false

/-- What brackets hold, and the pattern behind them. A closing bracket in front is one of the
    characters. -/
def splitBrackets (p : Pattern) : Option (List Char × Pattern) :=
  match p with
  | [] => none
  | m :: rest =>
    match rest.dropWhile (·.char ≠ ']') with
    | [] => none
    | _ :: after => some (m.char :: chars (rest.takeWhile (·.char ≠ ']')), after)

/-- Whether a character is one of those that brackets stand for. -/
def accepts (inside : List Char) (c : Char) : Bool :=
  match inside with
  | '!' :: rest => !holds c rest
  | inside => holds c inside

/-- Whether a pattern fits a text. The number bounds the steps. -/
def fitsWithin : Nat → Pattern → List Char → Bool
  | 0, _, _ => false
  | _ + 1, [], cs => cs.isEmpty
  | bound + 1, m :: p, cs =>
    if m.quoted then fitsOne bound (m.char = ·) p cs
    else if m.char = '*' then
      fitsWithin bound p cs ||
        match cs with
        | [] => false
        | _ :: cs => fitsWithin bound (m :: p) cs
    else if m.char = '?' then fitsOne bound (fun _ => true) p cs
    else if m.char = '[' then
      match splitBrackets p with
      | some (inside, p) => fitsOne bound (accepts inside) p cs
      | none => fitsOne bound (m.char = ·) p cs
    else fitsOne bound (m.char = ·) p cs
where
  /-- Whether a text has a character of a kind, and a pattern fits the rest. -/
  fitsOne (bound : Nat) (kind : Char → Bool) (p : Pattern) : List Char → Bool
    | [] => false
    | c :: cs => kind c && fitsWithin bound p cs

/-- Whether a pattern fits a text. -/
def fits (p : Pattern) (cs : List Char) : Bool :=
  fitsWithin (p.length + cs.length + 1) p cs

/-- A text without a start that a pattern fits: the shortest one, or the longest. -/
def withoutStart (p : Pattern) (longest : Bool) (cs : List Char) : List Char :=
  let candidates := if longest then (Text.cuts cs).reverse else Text.cuts cs
  match candidates.find? fun cut => p.fits cut.1 with
  | some (_, rest) => rest
  | none => cs

/-- A text without an end that a pattern fits: the shortest one, or the longest. -/
def withoutEnd (p : Pattern) (longest : Bool) (cs : List Char) : List Char :=
  let candidates := if longest then Text.cuts cs else (Text.cuts cs).reverse
  match candidates.find? fun cut => p.fits cut.2 with
  | some (front, _) => front
  | none => cs

theorem fitsWithin_quoted (cs ds : List Char) (bound : Nat) (h : cs.length < bound) :
    fitsWithin bound (ofText true cs) ds = decide (cs = ds) := by
  induction cs generalizing ds bound with
  | nil =>
    obtain ⟨bound, rfl⟩ := Nat.exists_eq_add_one.2 h
    cases ds <;> simp [ofText, fitsWithin]
  | cons c cs ih =>
    obtain ⟨bound, rfl⟩ := Nat.exists_eq_add_one.2 (Nat.zero_lt_of_lt h)
    have hb : cs.length < bound := by simpa using h
    cases ds with
    | nil => simp [ofText, fitsWithin, fitsWithin.fitsOne]
    | cons d ds =>
      have := ih ds bound hb
      simp only [ofText] at this
      simp [ofText, fitsWithin, fitsWithin.fitsOne, this]

/-- Where everything is quoted, a pattern fits itself only. -/
theorem fits_quoted (cs ds : List Char) : fits (ofText true cs) ds = decide (cs = ds) :=
  fitsWithin_quoted cs ds _ (by rw [ofText, List.length_map]; omega)

end Pattern

end TestBench.Shell
