import TestBench.Text.Normal.Table

/-!
# Composed form

Some characters can be spelled in several ways, as one character or as a letter followed by
marks. The composed form picks one spelling: all characters are taken apart, the marks of a
letter are put in the order of their classes, and what can be put together again is.

* `compose_of_plain`: a text of plain characters is in composed form.
-/

namespace TestBench.Text.Normal

/-- The class of a mark; letters have class 0. Within one class, the order of marks counts. -/
def markClass (code : Nat) : Nat :=
  if code < 0x300 then 0
  else
    match Table.find? classRows code with
    | some r => (r.valueAt r.first).headD 0
    | none => 0

/-! ### Taking apart -/

/-- The first syllable of Hangul, and the numbers of its last vowel and closing consonant. A
    syllable is an opening consonant, a vowel, and maybe a closing consonant. -/
def firstSyllable : Nat := 0xAC00
def firstOpening : Nat := 0x1100
def firstVowel : Nat := 0x1161
def noClosing : Nat := 0x11A7
def openings : Nat := 19
def vowels : Nat := 21
def closings : Nat := 28

/-- The parts of a syllable of Hangul. -/
def syllableParts (code : Nat) : List Nat :=
  let n := code - firstSyllable
  let opening := firstOpening + n / (vowels * closings)
  let vowel := firstVowel + n % (vowels * closings) / closings
  if n % closings = 0 then [opening, vowel] else [opening, vowel, noClosing + n % closings]

/-- Whether a code point is a syllable of Hangul. -/
def isSyllable (code : Nat) : Bool :=
  firstSyllable ≤ code && code < firstSyllable + openings * vowels * closings

/-- What a character is composed of, by one step. -/
def parts (code : Nat) : Option (List Nat) :=
  (Table.find? partRows code).map (·.valueAt code)

/-- A character taken apart, by at most the given number of steps. -/
def apart : Nat → Nat → List Nat
  | 0, code => [code]
  | depth + 1, code =>
    if code < 0xC0 then [code]
    else if isSyllable code then syllableParts code
    else
      match parts code with
      | some codes => codes.flatMap (apart depth)
      | none => [code]

/-- No character takes more steps to be taken apart. -/
def depth : Nat := 4

/-! ### Ordering marks -/

/-- A character put before a text with ordered marks, behind the marks of lower classes. -/
def place (code : Nat) : List Nat → List Nat
  | [] => [code]
  | d :: ds =>
    if markClass d ≠ 0 ∧ markClass d < markClass code then d :: place code ds
    else code :: d :: ds

/-- A text with the marks behind each letter ordered. -/
def order (codes : List Nat) : List Nat :=
  codes.foldr place []

/-! ### Putting together -/

/-- The character that two of Hangul make. -/
def joinHangul (a b : Nat) : Option Nat :=
  if firstOpening ≤ a && a < firstOpening + openings && firstVowel ≤ b &&
      b < firstVowel + vowels then
    some (firstSyllable + ((a - firstOpening) * vowels + (b - firstVowel)) * closings)
  else if isSyllable a && (a - firstSyllable) % closings == 0 && noClosing < b &&
      b < noClosing + closings then
    some (a + (b - noClosing))
  else none

/-- The code point of a row that is composed of two others. -/
def joinIn (a b : Nat) (r : Table.Row) : Option Nat :=
  match r.values.findIdx? (· == [a, b]) with
  | some i =>
    let code := r.first + i
    if Table.covers apartRows code then none else some code
  | none => none

/-- The character that two others make. -/
def join (a b : Nat) : Option Nat :=
  match joinHangul a b with
  | some code => some code
  | none => partRows.findSome? (joinIn a b)

/-- Whether a mark or letter cannot reach the letter before the marks `passed`. -/
def isBlocked (passed : List Nat) (code : Nat) : Bool :=
  match passed.getLast? with
  | some d => markClass code ≤ markClass d
  | none => false

/-- What follows a letter, put together with it where that is possible. The marks `passed`
    stand between the letter and the rest. -/
def joinFrom (letter : Nat) (passed : List Nat) : List Nat → List Nat
  | [] => letter :: passed
  | c :: cs =>
    match if isBlocked passed c then none else join letter c with
    | some joined => joinFrom joined passed cs
    | none =>
      if markClass c = 0 then letter :: passed ++ joinFrom c [] cs
      else joinFrom letter (passed ++ [c]) cs

/-- A text put together. Marks at its start have no letter to be put together with. -/
def joinAll : List Nat → List Nat
  | [] => []
  | c :: cs => if markClass c = 0 then joinFrom c [] cs else c :: joinAll cs

/-- Whether a character stays as it is, whatever its neighbours are. -/
def isPlain (c : Char) : Bool := c.toNat < 0xC0

/-- A text in composed form. -/
def compose (cs : List Char) : List Char :=
  if cs.all isPlain then cs
  else (joinAll (order (cs.flatMap fun c => apart depth c.toNat))).map Char.ofNat

/-- A text of plain characters is in composed form. -/
theorem compose_of_plain {cs : List Char} (h : cs.all isPlain) : compose cs = cs :=
  if_pos h

end TestBench.Text.Normal
