import TestBench.Shell.Word
import TestBench.Text.Digits
import TestBench.Text.Pieces

/-!
# Sums

The value of an arithmetic expression in a script: whole numbers of 64 bits, names of variables,
and the operations on them, which bind as in C. An expression may set variables.

* `wrap_wrap`: a number of 64 bits stays what it is.
-/

namespace TestBench.Shell

/-- Variables with numbers. -/
abbrev Numbers := List (List Char × Int)

/-- Why an expression has no value. -/
inductive SumFault where
  | noPrimary
  | leftOver
  | divisionByZero
  | noNumber (text : List Char)
deriving Repr, DecidableEq

namespace Sum

/-- A number as one of 64 bits. -/
def wrap (n : Int) : Int :=
  n.bmod (Nat.pow 2 64)

/-- A number of 64 bits stays what it is. -/
theorem wrap_wrap (n : Int) : wrap (wrap n) = wrap n := by
  simp [wrap]

/-- The bits of a number. -/
def bits (n : Int) : Nat :=
  (n % Nat.pow 2 64).toNat

/-- The number with the given bits. -/
def ofBits (n : Nat) : Int :=
  wrap n

/-- One for what holds and zero for what does not. -/
def truth (b : Bool) : Int :=
  if b then 1 else 0

/-- The value of an operation, before it is made one of 64 bits. -/
def operation (sign : String) (a b : Int) : Except SumFault Int :=
  match sign with
  | "*" => .ok (a * b)
  | "/" => if b = 0 then .error .divisionByZero else .ok (a.tdiv b)
  | "%" => if b = 0 then .error .divisionByZero else .ok (a.tmod b)
  | "+" => .ok (a + b)
  | "-" => .ok (a - b)
  | "<<" => .ok (ofBits (bits a <<< (bits b % 64)))
  | ">>" => .ok (a >>> (bits b % 64))
  | "<" => .ok (truth (a < b))
  | "<=" => .ok (truth (a ≤ b))
  | ">" => .ok (truth (a > b))
  | ">=" => .ok (truth (a ≥ b))
  | "==" => .ok (truth (a = b))
  | "!=" => .ok (truth (a ≠ b))
  | "&" => .ok (ofBits (bits a &&& bits b))
  | "^" => .ok (ofBits (bits a ^^^ bits b))
  | "|" => .ok (ofBits (bits a ||| bits b))
  | "&&" => .ok (truth (a ≠ 0 && b ≠ 0))
  | "||" => .ok (truth (a ≠ 0 || b ≠ 0))
  | _ => .ok b

/-- The signs of operations on two numbers, from those that bind least on. -/
def levels : List (List String) :=
  [["||"], ["&&"], ["|"], ["^"], ["&"], ["==", "!="], ["<", "<=", ">", ">="], ["<<", ">>"],
   ["+", "-"], ["*", "/", "%"]]

/-- The signs that set a variable, each with the operation that it goes through. -/
def assignments : List (String × String) :=
  [("<<=", "<<"), (">>=", ">>"), ("=", "="), ("+=", "+"), ("-=", "-"), ("*=", "*"), ("/=", "/"),
   ("%=", "%"), ("&=", "&"), ("|=", "|"), ("^=", "^")]

/-- All signs, a longer one before those that it starts with. -/
def allSigns : List String :=
  ["<<=", ">>=", "&&", "||", "<<", ">>", "<=", ">=", "==", "!=", "+=", "-=", "*=", "/=", "%=",
   "&=", "|=", "^=", "<", ">", "+", "-", "*", "/", "%", "&", "|", "^", "="]

/-- A text without blanks at its start. -/
def skipBlanks (cs : List Char) : List Char :=
  cs.dropWhile fun c => c = ' ' || c = '\t' || c = '\n'

/-- The sign at the start of a text, and what follows it. -/
def sign? (cs : List Char) : Option (String × List Char) :=
  let cs := skipBlanks cs
  (allSigns.find? fun s => s.toList.isPrefixOf cs).map fun s => (s, cs.drop s.length)

/-- The number that a text is, in base ten, or with a zero in front in base eight or sixteen. -/
def number? (cs : List Char) : Option Int :=
  match cs with
  | '0' :: 'x' :: d :: ds => (Text.number? 16 (d :: ds)).map fun n => wrap n
  | '0' :: 'X' :: d :: ds => (Text.number? 16 (d :: ds)).map fun n => wrap n
  | '0' :: ds => (Text.number? 8 ds).map fun n => wrap n
  | '-' :: ds => (number? ds).map fun n => -n
  | [] => none
  | ds => (Text.number? 10 ds).map fun n => wrap n

/-- The number that the start of a text is, as long as there is one, and what follows it. -/
def leadingNumber? (cs : List Char) : Option (Int × List Char) :=
  let digits := cs.takeWhile Word.continuesName
  let rest := cs.dropWhile Word.continuesName
  (Text.cuts digits).reverse.findSome? fun (front, back) =>
    (number? front).map fun n => (n, back ++ rest)

/-- Where the reading of an expression stands: the variables that are set, and the text that is
    left. -/
structure Place where
  numbers : Numbers
  rest : List Char

/-- The result of reading a part of an expression. -/
abbrev Reading := Except SumFault (Int × Place)

variable (outside : List Char → Except SumFault Int)

/-- The value of a variable, as it was set or as it is outside. -/
def known (p : Place) (name : List Char) : Except SumFault Int :=
  match p.numbers.find? (·.1 == name) with
  | some (_, n) => .ok n
  | none => outside name

mutual

/-- Reads an expression that may set a variable. The number bounds the steps, as for all readers
    of expressions. -/
def assignmentFrom : Nat → Place → Reading
  | 0, _ => .error .noPrimary
  | bound + 1, p =>
    let cs := skipBlanks p.rest
    match Word.splitName cs with
    | ([], _) => choiceFrom bound { p with rest := cs }
    | (name, rest) =>
      match sign? rest with
      | none => choiceFrom bound { p with rest := cs }
      | some (sign, after) =>
        match assignments.find? (·.1 == sign) with
        | none => choiceFrom bound { p with rest := cs }
        | some (_, through) => do
          let (b, p) ← assignmentFrom bound { p with rest := after }
          let a ← if through = "=" then .ok 0 else known outside p name
          let n := wrap (← operation through a b)
          return (n, { p with numbers := (name, n) :: p.numbers })

/-- Reads an expression that may choose between two. -/
def choiceFrom : Nat → Place → Reading
  | 0, _ => .error .noPrimary
  | bound + 1, p => do
    let (condition, p) ← levelFrom bound levels p
    match skipBlanks p.rest with
    | '?' :: rest =>
      let (yes, q) ← assignmentFrom bound { p with rest }
      match skipBlanks q.rest with
      | ':' :: rest =>
        let (no, q) ← choiceFrom bound { q with rest }
        return (if condition ≠ 0 then yes else no, q)
      | _ => .error .leftOver
    | _ => return (condition, p)

/-- Reads operations of the first of some levels, on what binds more. -/
def levelFrom : Nat → List (List String) → Place → Reading
  | 0, _, _ => .error .noPrimary
  | bound + 1, [], p => primaryFrom bound p
  | bound + 1, level :: more, p => do
    let (a, p) ← levelFrom bound more p
    continueLevel bound level more a p

/-- Reads the operations of a level that follow a number. -/
def continueLevel : Nat → List String → List (List String) → Int → Place → Reading
  | 0, _, _, _, _ => .error .noPrimary
  | bound + 1, level, more, a, p =>
    match sign? p.rest with
    | none => .ok (a, p)
    | some (sign, rest) =>
      if level.contains sign then do
        let (b, p) ← levelFrom bound more { p with rest }
        continueLevel bound level more (wrap (← operation sign a b)) p
      else .ok (a, p)

/-- Reads a number, a variable or an expression in brackets, with signs before it. -/
def primaryFrom : Nat → Place → Reading
  | 0, _ => .error .noPrimary
  | bound + 1, p =>
    match skipBlanks p.rest with
    | [] => .error .noPrimary
    | '-' :: rest => (primaryFrom bound { p with rest }).map fun (n, p) => (wrap (-n), p)
    | '+' :: rest => primaryFrom bound { p with rest }
    | '!' :: rest => (primaryFrom bound { p with rest }).map fun (n, p) => (truth (n = 0), p)
    | '~' :: rest => (primaryFrom bound { p with rest }).map fun (n, p) => (wrap (-n - 1), p)
    | '(' :: rest => do
      let (n, p) ← assignmentFrom bound { p with rest }
      match skipBlanks p.rest with
      | ')' :: rest => return (n, { p with rest })
      | _ => .error .leftOver
    | cs =>
      match Word.splitName cs with
      | ([], _) =>
        match leadingNumber? cs with
        | some (n, rest) => .ok (n, { p with rest })
        | none => .error .noPrimary
      | (name, rest) => (known outside p name).map fun n => (n, { p with rest })

end

/-- The value of an expression, and the variables that it sets, the latest first. An empty
    expression is zero. -/
def value (cs : List Char) : Except SumFault (Int × Numbers) :=
  if (skipBlanks cs).isEmpty then .ok (0, [])
  else
    match assignmentFrom outside (16 * (cs.length + 1)) ⟨[], cs⟩ with
    | .error fault => .error fault
    | .ok (n, p) => if (skipBlanks p.rest).isEmpty then .ok (n, p.numbers) else .error .leftOver

end Sum

end TestBench.Shell
