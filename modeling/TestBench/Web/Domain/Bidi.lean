import TestBench.Web.Domain.Table

/-!
# Directions in domain names

Letters of some scripts are written from right to left. As soon as a domain name holds one of
them, each of its labels has to keep to one direction (RFC 5893), so that it is shown in the
order in which it is spelled.

* `directionsFit_of_plain`: a plain domain name may hold what it likes.
-/

namespace TestBench.Web.Domain

/-- How the direction of a character counts in a domain name. -/
inductive Direction where
  | leftToRight
  | rightToLeft
  | arabicLetter
  | arabicNumber
  | europeanNumber
  | separator
  | nonspacing
  | neutral
  | other
deriving Repr, DecidableEq

/-- The direction of a character of ASCII. -/
def asciiDirection (c : Char) : Direction :=
  if c.isAlpha then .leftToRight
  else if c.isDigit then .europeanNumber
  else if ['+', '-', ',', '.', '/', ':', '#', '$', '%'].contains c then .separator
  else if c.toNat ≤ 0x20 then .other
  else .neutral

/-- The directions of the characters beyond ASCII that are not written from left to right. -/
def directionRows : List (Direction × List Text.Table.Row) :=
  [(.rightToLeft, rightToLeftRows), (.arabicLetter, arabicLetterRows),
   (.arabicNumber, arabicNumberRows), (.europeanNumber, europeanNumberRows),
   (.separator, europeanSeparatorRows), (.separator, commonSeparatorRows),
   (.separator, europeanTerminatorRows), (.nonspacing, nonspacingRows),
   (.neutral, neutralBoundaryRows), (.neutral, otherNeutralRows)]

/-- The direction of a character. -/
def direction (c : Char) : Direction :=
  if c.toNat < 0x80 then asciiDirection c
  else
    match directionRows.find? fun p => Text.Table.covers p.2 c.toNat with
    | some p => p.1
    | none => .leftToRight

/-- Whether a direction may only stand in a label from right to left. -/
def Direction.isRight : Direction → Bool
  | .rightToLeft | .arabicLetter | .arabicNumber => true
  | _ => false

/-- Whether a direction may stand in any label. -/
def Direction.isShared : Direction → Bool
  | .europeanNumber | .separator | .nonspacing | .neutral => true
  | _ => false

/-- Directions without the marks at their end. -/
def withoutMarks (ds : List Direction) : List Direction :=
  (ds.reverse.dropWhile (· = .nonspacing)).reverse

/-- Whether a label from left to right keeps to its direction. -/
def leftFits (ds : List Direction) : Bool :=
  ds.all (fun d => d = .leftToRight || d.isShared) &&
    match (withoutMarks ds).getLast? with
    | some d => d = .leftToRight || d = .europeanNumber
    | none => false

/-- Whether a label from right to left keeps to its direction. Its digits are of one kind. -/
def rightFits (ds : List Direction) : Bool :=
  ds.all (fun d => d.isRight || d.isShared) &&
    !(ds.contains .europeanNumber && ds.contains .arabicNumber) &&
    match (withoutMarks ds).getLast? with
    | some d => d.isRight || d = .europeanNumber
    | none => false

/-- Whether a label keeps to the direction of its first character, which has to be a letter. -/
def labelFits (ds : List Direction) : Bool :=
  match ds with
  | [] => true
  | .leftToRight :: _ => leftFits ds
  | .rightToLeft :: _ | .arabicLetter :: _ => rightFits ds
  | _ :: _ => false

/-- Whether the labels of a domain name keep to their directions. They need not if none of them
    holds a letter or a digit that is written from right to left. -/
def directionsFit (labels : List (List Char)) : Bool :=
  let ds := labels.map (·.map direction)
  !ds.any (·.any Direction.isRight) || ds.all labelFits

/-- A plain domain name may hold what it likes. -/
theorem directionsFit_of_plain {labels : List (List Char)}
    (h : ∀ l ∈ labels, ∀ c ∈ l, c.toNat < 0x80) : directionsFit labels := by
  have hd : ∀ l ∈ labels, ∀ c ∈ l, (direction c).isRight = false := by
    intro l hl c hc
    rw [direction, if_pos (h l hl c hc), asciiDirection]
    split
    · rfl
    · split
      · rfl
      · split
        · rfl
        · split <;> rfl
  have hany : (labels.map (·.map direction)).any (·.any Direction.isRight) = false := by
    simpa using hd
  simp only [directionsFit, hany, Bool.not_false, Bool.true_or]

end TestBench.Web.Domain
