import TestBench.Text.Digits
import TestBench.Text.Pieces

/-!
# Addresses of version 6

Eight groups of up to four hexadecimal digits with colons between them. Two colons, at one
place, stand for as many zero groups as are missing, at least one, and the last two groups may
be written as an address of version 4.

* `length_expand`: the groups that are missing are filled in.
-/

namespace TestBench.Web.Ipv6

/-- The number of groups. -/
def groupCount : Nat := 8

/-- One to four hexadecimal digits. -/
def group? (cs : List Char) : Option Nat :=
  if cs.isEmpty || 4 < cs.length then none else Text.number? 16 cs

/-- A byte in decimal, without zeros in front. -/
def byte? (cs : List Char) : Option Nat :=
  match cs with
  | [] => none
  | '0' :: _ :: _ => none
  | cs =>
    match Text.number? 10 cs with
    | some n => if n < 256 then some n else none
    | none => none

/-- The two groups that are written as four bytes. -/
def bytePairs? (cs : List Char) : Option (List Nat) :=
  match (Text.pieces '.' cs).mapM byte? with
  | some [a, b, c, d] => some [a * 256 + b, c * 256 + d]
  | _ => none

/-- The groups that are written one after the other, the last ones maybe as bytes. -/
def groups? : List (List Char) → Option (List Nat)
  | [] => some []
  | [last] => if last.contains '.' then bytePairs? last else (group? last).map ([·])
  | g :: gs =>
    match group? g, groups? gs with
    | some n, some ns => some (n :: ns)
    | _, _ => none

/-- The groups between single colons; an empty text has none. -/
def side? (cs : List Char) : Option (List Nat) :=
  if cs.isEmpty then some [] else groups? (Text.pieces ':' cs)

/-- A text cut at its first two colons. -/
def splitDoubleColon : List Char → Option (List Char × List Char)
  | ':' :: ':' :: cs => some ([], cs)
  | c :: cs => (splitDoubleColon cs).map fun (before, after) => (c :: before, after)
  | [] => none

/-- Groups with zeros in the middle, as many as are missing. -/
def expand (before after : List Nat) : List Nat :=
  before ++ List.replicate (groupCount - (before.length + after.length)) 0 ++ after

/-- The groups of an address. Bytes can only stand at its end. -/
def parse? (cs : List Char) : Option (List Nat) :=
  match splitDoubleColon cs with
  | none =>
    match side? cs with
    | some groups => if groups.length = groupCount then some groups else none
    | none => none
  | some (before, after) =>
    if before.contains '.' then none
    else
      match side? before, side? after with
      | some left, some right =>
        if left.length + right.length < groupCount then some (expand left right) else none
      | _, _ => none

/-- An expanded address is as long as it has to be. -/
theorem length_expand {before after : List Nat}
    (h : before.length + after.length ≤ groupCount) :
    (expand before after).length = groupCount := by
  simp only [expand, List.length_append, List.length_replicate]
  omega

/-! ### Writing -/

/-- A number in hexadecimal. -/
def hex (n : Nat) : String :=
  String.ofList (Nat.toDigits 16 n)

/-- The length of the zeros that groups start with. -/
def zerosAt (groups : List Nat) : Nat :=
  (groups.takeWhile (· == 0)).length

/-- The first of the longest stretches of zeros, as its place and its length. -/
def longestZeros (groups : List Nat) : Nat × Nat :=
  (List.range groups.length).foldl
    (fun best i =>
      let n := zerosAt (groups.drop i)
      if best.2 < n then (i, n) else best)
    (0, 0)

/-- An address, with two colons for its longest stretch of two or more zeros. -/
def display (groups : List Nat) : String :=
  let (start, length) := longestZeros groups
  let text := fun (gs : List Nat) => ":".intercalate (gs.map hex)
  if length < 2 then text groups
  else text (groups.take start) ++ "::" ++ text (groups.drop (start + length))

end TestBench.Web.Ipv6
