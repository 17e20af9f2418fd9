import TestBench.Shell.Arithmetic
import TestBench.ByteString

/-!
# Formatted output

What a script writes goes through backslashes, which stand for characters that are hard to type,
and through formats, in which percent signs stand for arguments. A format is used again as long
as there are arguments left.

* `echo_plain`: a text without a backslash is written as it is.
-/

namespace TestBench.Shell

/-- What comes out of a format: the bytes, whether the rest is to be left out, and what is wrong
    with the arguments. -/
structure Formatted where
  bytes : List UInt8
  stopped : Bool
  faults : List String
deriving Repr, DecidableEq

namespace Formatted

/-- Bytes and nothing else. -/
def ofBytes (bytes : List UInt8) : Formatted := ⟨bytes, false, []⟩

/-- One output and then another, unless the first one stops. -/
def append (a : Formatted) (b : Formatted) : Formatted :=
  if a.stopped then a else ⟨a.bytes ++ b.bytes, b.stopped, a.faults ++ b.faults⟩

end Formatted

namespace Format

/-- The characters that a letter behind a backslash stands for. -/
def letters : List (Char × UInt8) :=
  [('\\', 92), ('a', 7), ('b', 8), ('e', 27), ('f', 12), ('n', 10), ('r', 13), ('t', 9), ('v', 11)]

/-- Whether a character is a digit in base eight. -/
def isOctal (c : Char) : Bool :=
  '0' ≤ c && c ≤ '7'

/-- What a backslash stands for, from what follows it: a byte, and the text behind. A backslash
    before anything else stands for itself. -/
def escape (cs : List Char) : UInt8 × List Char :=
  match (cs.take 3).takeWhile isOctal with
  | [] =>
    match cs with
    | c :: rest =>
      match letters.find? (·.1 == c) with
      | some (_, b) => (b, rest)
      | none => (92, cs)
    | [] => (92, [])
  | digits => (UInt8.ofNat ((Text.number? 8 digits).getD 0), cs.drop digits.length)

/-- The text that the octal digits behind a backslash start with, where a zero comes before
    them. -/
def withoutZero : List Char → List Char
  | '0' :: c :: cs => if isOctal c then c :: cs else '0' :: c :: cs
  | cs => cs

/-- A text with its backslashes resolved. The number bounds the characters. -/
def echoWithin : Nat → List Char → Formatted
  | 0, _ => .ofBytes []
  | _ + 1, [] => .ofBytes []
  | _ + 1, '\\' :: 'c' :: _ => ⟨[], true, []⟩
  | bound + 1, '\\' :: cs =>
    let (b, rest) := escape (withoutZero cs)
    (Formatted.ofBytes [b]).append (echoWithin bound rest)
  | bound + 1, c :: cs =>
    (Formatted.ofBytes [ByteString.byte c]).append (echoWithin bound cs)

/-- A text with its backslashes resolved. -/
def echo (cs : List Char) : Formatted :=
  echoWithin (cs.length + 1) cs

/-- How an argument is to be written. -/
structure Directive where
  left : Bool
  zeros : Bool
  plus : Bool
  width : Nat
  precision : Option Nat
  letter : Char
deriving Repr, DecidableEq

/-- The directive behind a percent sign, and the text behind it. -/
def directive? (cs : List Char) : Option (Directive × List Char) :=
  let isFlag := "-+ 0#".toList.contains
  let flags := cs.takeWhile isFlag
  let cs := cs.dropWhile isFlag
  let width := (Text.number? 10 (cs.takeWhile Text.isDigit)).getD 0
  let (precision, cs) := match cs.dropWhile Text.isDigit with
    | '.' :: cs => (Text.number? 10 (cs.takeWhile Text.isDigit), cs.dropWhile Text.isDigit)
    | cs => (none, cs)
  match cs with
  | [] => none
  | letter :: rest =>
    some (⟨flags.contains '-', flags.contains '0', flags.contains '+', width, precision, letter⟩,
      rest)

/-- Bytes filled up to the width of a directive. -/
def pad (d : Directive) (filler : UInt8) (bytes : List UInt8) : List UInt8 :=
  let fill := List.replicate (d.width - bytes.length) filler
  if d.left then bytes ++ List.replicate (d.width - bytes.length) 32 else fill ++ bytes

/-- A number with its sign, filled up. -/
def padNumber (d : Directive) (negative : Bool) (digits : List Char) : List UInt8 :=
  let digits := List.replicate (d.precision.getD 1 - digits.length) '0' ++ digits
  let sign := if negative then ['-'] else if d.plus then ['+'] else []
  let zeros := d.zeros && !d.left && d.precision.isNone
  let fill := if zeros then d.width - sign.length - digits.length else 0
  pad d 32 (ByteString.bytes (String.ofList (sign ++ List.replicate fill '0' ++ digits)))

/-- The number that an argument is, and what is wrong with it. -/
def numberOf (arg : String) : Int × List String :=
  match arg.toList with
  | [] => (0, [])
  | '\'' :: c :: _ => (c.toNat, [])
  | '"' :: c :: _ => (c.toNat, [])
  | '+' :: cs => valueOf cs
  | '-' :: cs => (-(valueOf cs).1, (valueOf cs).2)
  | cs => valueOf cs
where
  /-- So for a text without a sign. -/
  valueOf (cs : List Char) : Int × List String :=
    match Sum.leadingNumber? cs with
    | some (n, []) => (n, [])
    | some (n, _) => (n, [s!"{arg}: not completely converted"])
    | none => (0, [s!"{arg}: expected numeric value"])

/-- The digits of a number in a base. -/
def digits (base n : Nat) : List Char :=
  Nat.toDigits base n

/-- An argument as a directive writes it. -/
def write (d : Directive) (arg : String) : Formatted :=
  let cut := fun bytes : List UInt8 => match d.precision with
    | some n => bytes.take n
    | none => bytes
  let (n, faults) := numberOf arg
  match d.letter with
  | 's' => .ofBytes (pad d 32 (cut (ByteString.bytes arg)))
  | 'b' =>
    let r := echo arg.toList
    { r with bytes := pad d 32 (cut r.bytes) }
  | 'c' => .ofBytes (pad d 32 ((ByteString.bytes arg).take 1))
  | 'd' => ⟨padNumber d (n < 0) (digits 10 n.natAbs), false, faults⟩
  | 'i' => ⟨padNumber d (n < 0) (digits 10 n.natAbs), false, faults⟩
  | 'u' => ⟨padNumber d false (digits 10 (Sum.bits n)), false, faults⟩
  | 'o' => ⟨padNumber d false (digits 8 (Sum.bits n)), false, faults⟩
  | 'x' => ⟨padNumber d false (digits 16 (Sum.bits n)), false, faults⟩
  | 'X' => ⟨padNumber d false ((digits 16 (Sum.bits n)).map Char.toUpper), false, faults⟩
  | letter => ⟨[], true, [s!"%{letter}: invalid directive"]⟩

/-- A format used once, and the arguments that are left. The number bounds the characters. -/
def onceWithin : Nat → List Char → List String → Formatted × List String
  | 0, _, args => (.ofBytes [], args)
  | _ + 1, [], args => (.ofBytes [], args)
  | bound + 1, '\\' :: cs, args =>
    let (b, rest) := escape cs
    let (r, args) := onceWithin bound rest args
    ((Formatted.ofBytes [b]).append r, args)
  | bound + 1, '%' :: '%' :: cs, args =>
    let (r, args) := onceWithin bound cs args
    ((Formatted.ofBytes [37]).append r, args)
  | bound + 1, '%' :: cs, args =>
    match directive? cs with
    | none => (⟨[], true, ["%: invalid directive"]⟩, args)
    | some (d, rest) =>
      let first := write d (args.headD "")
      let (r, args) := onceWithin bound rest args.tail
      (first.append r, args)
  | bound + 1, c :: cs, args =>
    let (r, args) := onceWithin bound cs args
    ((Formatted.ofBytes [ByteString.byte c]).append r, args)

/-- A format used as long as there are arguments. The number bounds the uses. -/
def allWithin : Nat → List Char → List String → Formatted
  | 0, _, _ => .ofBytes []
  | bound + 1, format, args =>
    let (r, rest) := onceWithin (format.length + 1) format args
    if rest.isEmpty || rest.length = args.length then r
    else r.append (allWithin bound format rest)

/-- Arguments as a format writes them. -/
def print (format : String) (args : List String) : Formatted :=
  allWithin (args.length + 1) format.toList args

theorem echoWithin_plain (cs : List Char) (h : '\\' ∉ cs) (bound : Nat) (hb : cs.length < bound) :
    echoWithin bound cs = .ofBytes (cs.map ByteString.byte) := by
  induction cs generalizing bound with
  | nil =>
    obtain ⟨bound, rfl⟩ := Nat.exists_eq_add_one.2 hb
    rfl
  | cons c cs ih =>
    obtain ⟨bound, rfl⟩ := Nat.exists_eq_add_one.2 (Nat.zero_lt_of_lt hb)
    have hc : c ≠ '\\' := fun he => h (he ▸ List.mem_cons_self)
    rw [echoWithin, ih (fun hm => h (List.mem_cons_of_mem _ hm)) bound (by simpa using hb)]
    · simp [Formatted.append, Formatted.ofBytes]
    all_goals simp_all

/-- A text without a backslash is written as it is. -/
theorem echo_plain (cs : List Char) (h : '\\' ∉ cs) :
    echo cs = .ofBytes (cs.map ByteString.byte) :=
  echoWithin_plain cs h _ (by omega)

end Format

end TestBench.Shell
