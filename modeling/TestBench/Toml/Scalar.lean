import TestBench.Text.Digits
import TestBench.Text.Pieces
import TestBench.Toml.Value

/-!
# Numbers, dates and truth values

What is written without quotes and brackets: integers in four bases, floating numbers, dates and
times, and the two truth values. Underscores may stand between digits.

* `scalar?`: the value that is written without quotes and brackets.
-/

namespace TestBench.Toml

/-- The digits of a text, in which single underscores may stand between them. -/
def plainDigits (base : Nat) (cs : List Char) : Option (List Char) :=
  let ps := Text.pieces '_' cs
  if ps.all fun p => !p.isEmpty && p.all fun c => (Text.digit? base c).isSome then
    some ps.flatten
  else none

/-- A sign and what follows it. -/
def splitSign : List Char → Bool × List Char
  | '-' :: cs => (true, cs)
  | '+' :: cs => (false, cs)
  | cs => (false, cs)

/-- The digits of a decimal number, of which only zero starts with a zero. -/
def decimalDigits (cs : List Char) : Option (List Char) :=
  match plainDigits 10 cs with
  | some ('0' :: _ :: _) => none
  | ds => ds

/-- The integers that a value can be. -/
def fits (n : Int) : Bool :=
  -(Nat.pow 2 127 : Int) ≤ n && n < Nat.pow 2 128

/-- The natural number that digits in a base are. -/
def digitsValue (base : Nat) (cs : List Char) : Option Nat :=
  (plainDigits base cs).bind (Text.number? base)

/-- The integer that a text is. -/
def integer? (cs : List Char) : Option Int :=
  match cs with
  | '0' :: 'x' :: cs => (digitsValue 16 cs).map Int.ofNat
  | '0' :: 'o' :: cs => (digitsValue 8 cs).map Int.ofNat
  | '0' :: 'b' :: cs => (digitsValue 2 cs).map Int.ofNat
  | cs =>
    let (negative, cs) := splitSign cs
    match (decimalDigits cs).bind (Text.number? 10) with
    | some n => some (if negative then -(n : Int) else n)
    | none => none

/-! ### Floating numbers -/

/-- The least number that is too large for a floating number. -/
def tooLarge : Nat := (Nat.pow 2 54 - 1) * Nat.pow 2 970

/-- Whether digits, with a power of ten, are too large for a floating number. -/
def overflows (digits : List Char) (power : Int) : Bool :=
  let digits := digits.dropWhile (· == '0')
  let size := power + digits.length
  if digits.isEmpty || size < 0 then false
  else if 400 < size then true
  else
    match Text.number? 10 digits, power with
    | some n, .ofNat e => tooLarge ≤ n * Nat.pow 10 e
    | some n, .negSucc e => tooLarge * Nat.pow 10 (e + 1) ≤ n
    | none, _ => false

/-- Whether a character belongs to digits with underscores. -/
def inDigits (c : Char) : Bool :=
  c.isDigit || c == '_'

/-- The exponent that a text is, which may be missing. -/
def exponent? : List Char → Option Int
  | [] => some 0
  | c :: cs =>
    if c = 'e' || c = 'E' then
      let (negative, cs) := splitSign cs
      match (plainDigits 10 cs).bind (Text.number? 10) with
      | some n => some (if negative then -(n : Int) else n)
      | none => none
    else none

/-- Whether a text without a sign is a floating number. -/
def isUnsignedFloat (cs : List Char) : Bool :=
  let whole := cs.takeWhile inDigits
  let rest := cs.dropWhile inDigits
  let (fraction?, power) : Option (List Char) × List Char := match rest with
    | '.' :: rest => (plainDigits 10 (rest.takeWhile inDigits), rest.dropWhile inDigits)
    | rest => (some [], rest)
  match decimalDigits whole, fraction?, exponent? power with
  | some whole, some fraction, some exponent =>
    !rest.isEmpty && !overflows (whole ++ fraction) (exponent - fraction.length)
  | _, _, _ => false

/-- Whether a text is a floating number. -/
def isFloat (cs : List Char) : Bool :=
  let cs := (splitSign cs).2
  cs == "inf".toList || cs == "nan".toList || isUnsignedFloat cs

/-! ### Dates and times -/

/-- The number of two digits at the start of a text, and what follows. -/
def twoDigits : List Char → Option (Nat × List Char)
  | a :: b :: cs => (Text.number? 10 [a, b]).map (·, cs)
  | _ => none

/-- The number of days of a month. -/
def daysOf (year month : Nat) : Nat :=
  if month = 2 then
    if year % 4 = 0 && (year % 100 ≠ 0 || year % 400 = 0) then 29 else 28
  else if [4, 6, 9, 11].contains month then 30
  else 31

/-- The number of two digits behind a dash, and what follows. -/
def dashed : List Char → Option (Nat × List Char)
  | '-' :: cs => twoDigits cs
  | _ => none

/-- What follows a date. -/
def afterDate (cs : List Char) : Option (List Char) := do
  let (century, cs) ← twoDigits cs
  let (year, cs) ← twoDigits cs
  let (month, cs) ← dashed cs
  let (day, cs) ← dashed cs
  if 1 ≤ month && month ≤ 12 && 1 ≤ day && day ≤ daysOf (century * 100 + year) month then some cs
  else none

/-- What follows the seconds of a time, which may be missing, and their fraction. -/
def afterSeconds : List Char → Option (List Char)
  | ':' :: cs =>
    match twoDigits cs with
    | some (second, '.' :: cs) =>
      if second ≤ 60 && !(cs.takeWhile Char.isDigit).isEmpty then some (cs.dropWhile Char.isDigit)
      else none
    | some (second, cs) => if second ≤ 60 then some cs else none
    | none => none
  | cs => some cs

/-- What follows hours and minutes. -/
def afterMinutes (cs : List Char) : Option (List Char) :=
  match twoDigits cs with
  | some (hour, ':' :: cs) =>
    match twoDigits cs with
    | some (minute, cs) => if hour ≤ 23 && minute ≤ 59 then some cs else none
    | none => none
  | _ => none

/-- What follows a time. -/
def afterTime (cs : List Char) : Option (List Char) :=
  (afterMinutes cs).bind afterSeconds

/-- Whether a text is the distance of a time from the universal one, or nothing. -/
def isOffset : List Char → Bool
  | [] => true
  | c :: cs =>
    if c = 'Z' || c = 'z' then cs.isEmpty
    else (c = '+' || c = '-') && afterMinutes cs == some []

/-- Whether a text is a date, a time, or both. -/
def isMoment (cs : List Char) : Bool :=
  match afterDate cs with
  | some [] => true
  | some (c :: rest) =>
    (c == 'T' || c == 't' || c == ' ') &&
      match afterTime rest with
      | some rest => isOffset rest
      | none => false
  | none => afterTime cs == some []

/-! ### All of them -/

/-- The value that a text without quotes and brackets is. -/
def scalar? (cs : List Char) : Option Value :=
  if cs = "true".toList then some (.boolean true)
  else if cs = "false".toList then some (.boolean false)
  else
    match integer? cs with
    | some n => if fits n then some (.integer n) else none
    | none =>
      if isFloat cs then some .float
      else if isMoment cs then some .moment
      else none

end TestBench.Toml
