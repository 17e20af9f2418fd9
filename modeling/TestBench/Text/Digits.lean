/-!
# Digits

The value of digits in a base up to 36, with letters of either case after the ten figures.

* `numberFrom?_append`: digits add to the value of those before them.
-/

namespace TestBench.Text

/-- The value of a digit in a base. -/
def digit? (base : Nat) (c : Char) : Option Nat :=
  let value :=
    if '0' ≤ c && c ≤ '9' then c.toNat - '0'.toNat
    else if 'a' ≤ c && c ≤ 'z' then c.toNat - 'a'.toNat + 10
    else if 'A' ≤ c && c ≤ 'Z' then c.toNat - 'A'.toNat + 10
    else base
  if value < base then some value else none

/-- The value of a text of digits, after digits of value `n`. -/
def numberFrom? (base n : Nat) : List Char → Option Nat
  | [] => some n
  | c :: cs =>
    match digit? base c with
    | some d => numberFrom? base (n * base + d) cs
    | none => none

/-- The value of a text of digits; without digits it is zero. -/
def number? (base : Nat) (cs : List Char) : Option Nat :=
  numberFrom? base 0 cs

/-- Digits add to the value of those before them. -/
theorem numberFrom?_append (base n : Nat) (cs ds : List Char) :
    numberFrom? base n (cs ++ ds) =
      (numberFrom? base n cs).bind fun m => numberFrom? base m ds := by
  induction cs generalizing n with
  | nil => rfl
  | cons c cs ih =>
    rw [List.cons_append, numberFrom?, numberFrom?]
    split
    · exact ih _
    · rfl

end TestBench.Text
