/-!
# Punycode

The spelling of a text in letters, digits and dashes (RFC 3492). The plain characters come
first, and after a dash the others in the order of their code points: each is given by the
distance from the one before, counted over the code points and the positions in the text. A
distance is a number with digits of growing weight, of which the last one is below a threshold,
and the thresholds adapt to the sizes of the distances.

* `digit?_digitChar`: digits are read as they are written;
* `splitLastDash_append`: the plain characters are found again.
-/

namespace TestBench.Web.Punycode

/-- The number of digits. -/
def base : Nat := 36

/-- A digit: 26 letters, then 10 figures. -/
def digitChar (d : Nat) : Char :=
  if d < 26 then Char.ofNat ('a'.toNat + d) else Char.ofNat ('0'.toNat + (d - 26))

/-- The value of a digit. -/
def digit? (c : Char) : Option Nat :=
  if 'a' ≤ c && c ≤ 'z' then some (c.toNat - 'a'.toNat)
  else if '0' ≤ c && c ≤ '9' then some (c.toNat - '0'.toNat + 26)
  else none

/-- The threshold for the digit at a position, which counts in steps of `base`. -/
def threshold (bias position : Nat) : Nat :=
  min 26 (max 1 (position - bias))

/-- How often a distance is divided before it is small, and what is left of it. -/
def shrink (delta : Nat) : Nat × Nat :=
  if 455 < delta then
    let (n, rest) := shrink (delta / 35)
    (n + 1, rest)
  else (0, delta)
termination_by delta
decreasing_by omega

/-- The thresholds after a distance, which is the first or a later one, with `count` characters
    in place. -/
def adapt (delta count : Nat) (first : Bool) : Nat :=
  let damped := if first then delta / 700 else delta / 2
  let (n, rest) := shrink (damped + damped / count)
  base * n + base * rest / (rest + 38)

/-! ### Writing -/

/-- The digits of a distance, from a position on. -/
def digitsFrom (bias position q : Nat) : List Char :=
  let t := threshold bias position
  if q < t then [digitChar q]
  else
    digitChar (t + (q - t) % (base - t)) ::
      digitsFrom bias (position + base) ((q - t) / (base - t))
termination_by q
decreasing_by
  have h₁ : 1 ≤ threshold bias position := by unfold threshold; omega
  have h₂ : threshold bias position ≤ 26 := by unfold threshold; omega
  have h₃ : (q - threshold bias position) / (base - threshold bias position) ≤
      q - threshold bias position := Nat.div_le_self ..
  omega

/-- What the writing of a text has come to: the distance counted so far, the thresholds, the
    number of characters in place, and the digits written. -/
structure Writing where
  delta : Nat
  bias : Nat
  count : Nat
  written : List Char

/-- Goes over a text for the sake of one code point: lower ones are counted, and where it
    stands the distance is written. -/
def writeCode (plain code : Nat) (w : Writing) : List Nat → Writing
  | [] => w
  | c :: cs =>
    if c < code then writeCode plain code { w with delta := w.delta + 1 } cs
    else if c = code then
      let bias := adapt w.delta (w.count + 1) (w.count == plain)
      writeCode plain code
        ⟨0, bias, w.count + 1, w.written ++ digitsFrom w.bias base w.delta⟩ cs
    else writeCode plain code w cs

/-- Writes the code points `todo` of a text, in ascending order and each once, after all below
    `next` are written. -/
def writeFrom (plain : Nat) (text : List Nat) (next : Nat) (w : Writing) : List Nat → List Char
  | [] => w.written
  | code :: todo =>
    let w := writeCode plain code
      { w with delta := w.delta + (code - next) * (w.count + 1) } text
    writeFrom plain text (code + 1) { w with delta := w.delta + 1 } todo

/-- The first code point that is not plain. -/
def firstCode : Nat := 0x80

/-- The spelling of a text. -/
def encode (cs : List Char) : List Char :=
  let plain := cs.filter (·.toNat < firstCode)
  let codes := cs.map Char.toNat
  let todo := ((codes.filter (firstCode ≤ ·)).mergeSort (· ≤ ·)).eraseDups
  (if plain.isEmpty then [] else plain ++ ['-']) ++
    writeFrom plain.length codes firstCode ⟨0, 72, plain.length, []⟩ todo

/-! ### Reading -/

/-- What the reading of a spelling has come to: the text so far, the next code point and place
    to count from, and the thresholds. -/
structure Reading where
  text : List Nat
  code : Nat
  place : Nat
  bias : Nat
  first : Bool

/-- The text with the character that lies a distance ahead, if there is such a character. -/
def Reading.advance (r : Reading) (delta : Nat) : Option Reading :=
  let count := r.text.length + 1
  let code := r.code + (r.place + delta) / count
  let place := (r.place + delta) % count
  if 0x10FFFF < code || (0xD800 ≤ code && code ≤ 0xDFFF) then none
  else some ⟨r.text.insertIdx place code, code, place + 1, adapt delta count r.first, false⟩

/-- Reads digits, in the middle of a distance if `pending` has its value so far, the weight of
    the next digit and its position. -/
def readFrom (r : Reading) (pending : Option (Nat × Nat × Nat)) : List Char → Option (List Nat)
  | [] => if pending.isSome then none else some r.text
  | c :: cs =>
    match digit? c with
    | none => none
    | some d =>
      let (value, weight, position) := pending.getD (0, 1, base)
      let value := value + d * weight
      let t := threshold r.bias position
      if d < t then
        match r.advance value with
        | some r => readFrom r none cs
        | none => none
      else readFrom r (some (value, weight * (base - t), position + base)) cs

/-- A spelling cut at its last dash. A dash that nothing stands before is none. -/
def splitLastDash (cs : List Char) : List Char × List Char :=
  match cs.reverse.dropWhile (· != '-') with
  | _ :: before =>
    if before.isEmpty then ([], cs)
    else (before.reverse, (cs.reverse.takeWhile (· != '-')).reverse)
  | [] => ([], cs)

/-- The text of a spelling, if it is one. -/
def decode (cs : List Char) : Option (List Char) :=
  let (plain, digits) := splitLastDash cs
  (readFrom ⟨plain.map Char.toNat, firstCode, 0, 72, true⟩ none digits).map (·.map Char.ofNat)

/-- Digits are read as they are written. -/
theorem digit?_digitChar {d : Nat} (h : d < base) : digit? (digitChar d) = some d := by
  have all : ∀ d ∈ List.range 36, digit? (digitChar d) = some d := by decide
  exact all d (List.mem_range.2 h)

/-- The plain characters are found again before digits, which hold no dash. -/
theorem splitLastDash_append {plain digits : List Char} (hp : plain ≠ []) (hd : '-' ∉ digits) :
    splitLastDash (plain ++ '-' :: digits) = (plain, digits) := by
  have hall : ∀ c ∈ digits.reverse, (c != '-') = true := by
    intro c hc
    have : c ≠ '-' := fun h => hd (h ▸ List.mem_reverse.1 hc)
    simpa using this
  have hr : (plain ++ '-' :: digits).reverse = digits.reverse ++ '-' :: plain.reverse := by
    simp
  unfold splitLastDash
  rw [hr, List.dropWhile_append_of_pos hall, List.takeWhile_append_of_pos hall]
  simp [hp]

end TestBench.Web.Punycode
