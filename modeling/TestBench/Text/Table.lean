import TestBench.Text.Digits
import TestBench.Text.Pieces

/-!
# Tables of characters

What a standard says about characters is written down as a text of rows with a blank between
them. A row starts with a number, or with two and a dash between them: the first and the last
code point that it is about. Then there may be a sign, and after it lists of numbers, with
commas between the lists and plus signs between the numbers. All numbers are hexadecimal.

* `number_length_le`: reading a number consumes what it reads.
-/

namespace TestBench.Text.Table

/-- What is said about the code points from `first` to `last`. -/
structure Row where
  first : Nat
  last : Nat
  sign : Char
  values : List (List Nat)
deriving Repr, DecidableEq

/-- The number that a text starts with, after `n`, and what follows it. -/
def numberFrom (n : Nat) : List Char → Nat × List Char
  | [] => (n, [])
  | c :: cs =>
    match digit? 16 c with
    | some d => numberFrom (16 * n + d) cs
    | none => (n, c :: cs)

/-- The number that a text starts with, and what follows it. -/
def number (cs : List Char) : Nat × List Char :=
  numberFrom 0 cs

/-- Reading a number leaves no more than there was. -/
theorem number_length_le (n : Nat) (cs : List Char) :
    (numberFrom n cs).2.length ≤ cs.length := by
  induction cs generalizing n with
  | nil => simp [numberFrom]
  | cons c cs ih =>
    rw [numberFrom]
    split
    · exact Nat.le_succ_of_le (ih _)
    · exact Nat.le_refl _

/-- The lists of numbers of a row. -/
def values (cs : List Char) : List (List Nat) :=
  (pieces ',' cs).map fun l => (pieces '+' l).map fun n => (number n).1

/-- A row about several code points has either its last one or a list of numbers for each. -/
def row (cs : List Char) : Row :=
  let (first, rest) := number cs
  let (last?, rest) : Option Nat × List Char := match rest with
    | '-' :: rest => let (last, rest) := number rest; (some last, rest)
    | _ => (none, rest)
  match rest with
  | [] => ⟨first, last?.getD first, ' ', []⟩
  | '=' :: rest => ⟨first, first + (values rest).length - 1, '=', values rest⟩
  | sign :: rest => ⟨first, last?.getD first, sign, values rest⟩

/-- The rows of a table that is written in several lines. -/
def rows (lines : List String) : List Row :=
  lines.flatMap fun line => (pieces ' ' line.toList).map row

/-- The row about a code point. -/
def find? (rows : List Row) (code : Nat) : Option Row :=
  rows.find? fun r => r.first ≤ code && code ≤ r.last

/-- Whether a table has a row about a code point. -/
def covers (rows : List Row) (code : Nat) : Bool :=
  (find? rows code).isSome

/-- The list of numbers that a row has for a code point. -/
def Row.valueAt (r : Row) (code : Nat) : List Nat :=
  (r.values[code - r.first]?).getD []

end TestBench.Text.Table
