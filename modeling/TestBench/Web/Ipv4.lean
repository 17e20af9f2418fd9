import TestBench.Text.Digits
import TestBench.Text.Pieces

/-!
# Addresses of version 4

A host whose last part is a number is an address, in one to four parts. Each part is decimal,
octal after a zero or hexadecimal after `0x`; the last one fills all bytes that the others
leave.

* `parse?`: the number of the machine that a host is.
-/

namespace TestBench.Web.Ipv4

/-- The number that a part is. A base without digits is zero. -/
def number? (part : List Char) : Option Nat :=
  match part with
  | [] => none
  | '0' :: 'x' :: cs => Text.number? 16 cs
  | '0' :: 'X' :: cs => Text.number? 16 cs
  | '0' :: c :: cs => Text.number? 8 (c :: cs)
  | cs => Text.number? 10 cs

/-- The parts of a host, without an empty one at the end. -/
def partsOf (host : List Char) : List (List Char) :=
  let parts := Text.pieces '.' host
  if parts.getLast? = some [] then parts.dropLast else parts

/-- Whether a host is to be read as an address. -/
def endsInNumber (host : List Char) : Bool :=
  match (partsOf host).getLast? with
  | some part => (!part.isEmpty && part.all Char.isDigit) || (number? part).isSome
  | none => false

/-- The value of an address with the given parts: all but the last are bytes, and the last one
    fills the rest. -/
def valueOf (numbers : List Nat) : Option Nat :=
  match numbers.getLast? with
  | none => none
  | some last =>
    let bytes := numbers.dropLast
    if 3 < bytes.length || bytes.any (255 < ·) || Nat.pow 256 (4 - bytes.length) ≤ last then none
    else some (bytes.foldl (fun n b => n * 256 + b) 0 * Nat.pow 256 (4 - bytes.length) + last)

/-- The address that a host is. -/
def parse? (host : List Char) : Option Nat :=
  match (partsOf host).mapM number? with
  | some numbers => valueOf numbers
  | none => none

/-- An address in four decimal parts. -/
def display (address : Nat) : String :=
  s!"{address >>> 24}.{address >>> 16 % 256}.{address >>> 8 % 256}.{address % 256}"

end TestBench.Web.Ipv4
