import TestBench.Text.Digits

/-!
# Quoted texts

A text between quotes, on one line or, between three quotes each, on several. Between single
quotes it is taken as it stands; between double quotes, a backslash starts an escape. Each
reading starts behind the opening quotes and leaves what follows the closing ones.

* `length_readBasic_lt` and its like: what a reading leaves is shorter than what it was given.
-/

namespace TestBench.Toml

/-- Whether a character may not stand in a configuration, but for the ends of lines. -/
def isControl (c : Char) : Bool :=
  (c.toNat < 0x20 && c != '\t') || c.toNat == 0x7F

/-- The end of a line that a text starts with, which is kept as it is, and what follows. -/
def lineEnd? : List Char → Option (List Char × List Char)
  | '\n' :: cs => some (['\n'], cs)
  | '\r' :: '\n' :: cs => some (['\r', '\n'], cs)
  | _ => none

/-- The character with a number, if there is one. -/
def character? (n : Nat) : Option Char :=
  if h : n.isValidChar then some (Char.ofNatAux n h) else none

/-- The character whose number a text starts with, in so many hexadecimal digits, after digits
    of value `n`. -/
def hexEscape? (n : Nat) : Nat → List Char → Option (Char × List Char)
  | 0, cs => (character? n).map (·, cs)
  | _ + 1, [] => none
  | digits + 1, c :: cs =>
    match Text.digit? 16 c with
    | some d => hexEscape? (16 * n + d) digits cs
    | none => none

/-- The character that the text behind a backslash stands for, and what follows. -/
def escape? : List Char → Option (Char × List Char)
  | 'b' :: cs => some (Char.ofNat 8, cs)
  | 't' :: cs => some ('\t', cs)
  | 'n' :: cs => some ('\n', cs)
  | 'f' :: cs => some (Char.ofNat 12, cs)
  | 'r' :: cs => some ('\r', cs)
  | 'e' :: cs => some (Char.ofNat 27, cs)
  | '"' :: cs => some ('"', cs)
  | '\\' :: cs => some ('\\', cs)
  | 'x' :: cs => hexEscape? 0 2 cs
  | 'u' :: cs => hexEscape? 0 4 cs
  | 'U' :: cs => hexEscape? 0 8 cs
  | _ => none

theorem length_hexEscape?_le {n digits : Nat} {cs : List Char} {r : Char × List Char}
    (h : hexEscape? n digits cs = some r) : r.2.length ≤ cs.length := by
  induction digits generalizing n cs with
  | zero =>
    rw [hexEscape?] at h
    obtain ⟨c, _, rfl⟩ := Option.map_eq_some_iff.1 h
    exact Nat.le_refl _
  | succ digits ih =>
    cases cs with
    | nil => simp [hexEscape?] at h
    | cons c cs =>
      rw [hexEscape?] at h
      split at h
      · exact Nat.le_succ_of_le (ih h)
      · simp at h

theorem length_escape?_lt {cs : List Char} {r : Char × List Char} (h : escape? cs = some r) :
    r.2.length < cs.length := by
  unfold escape? at h
  split at h
  case h_9 cs => exact Nat.lt_succ_of_le (length_hexEscape?_le h)
  case h_10 cs => exact Nat.lt_succ_of_le (length_hexEscape?_le h)
  case h_11 cs => exact Nat.lt_succ_of_le (length_hexEscape?_le h)
  case h_12 => simp at h
  all_goals
    obtain rfl := Option.some.inj h
    exact Nat.lt_succ_self _

/-- The text up to a double quote on the same line. -/
def readBasic (cs : List Char) : Option (List Char × List Char) :=
  match cs with
  | [] => none
  | '"' :: cs => some ([], cs)
  | '\\' :: cs =>
    match _h : escape? cs with
    | some (c, rest) => (readBasic rest).map fun (text, rest) => (c :: text, rest)
    | none => none
  | c :: cs =>
    if isControl c then none
    else (readBasic cs).map fun (text, rest) => (c :: text, rest)
termination_by cs.length
decreasing_by
  · have := length_escape?_lt _h
    simp_all only [List.length_cons]
    omega
  · simp

/-- The text up to a single quote on the same line. -/
def readLiteral : List Char → Option (List Char × List Char)
  | [] => none
  | '\'' :: cs => some ([], cs)
  | c :: cs =>
    if isControl c then none
    else (readLiteral cs).map fun (text, rest) => (c :: text, rest)

/-- What follows three quotes that close a text. Up to two more quotes still belong to it. -/
def closeBlock (quote : Char) : List Char → List Char × List Char
  | a :: b :: cs =>
    if a = quote then if b = quote then ([a, b], cs) else ([a], b :: cs) else ([], a :: b :: cs)
  | [a] => if a = quote then ([a], []) else ([], [a])
  | [] => ([], [])

/-- Whether a character is a blank or belongs to the end of a line. -/
def isGap (c : Char) : Bool :=
  c == ' ' || c == '\t' || c == '\n' || c == '\r'

/-- Whether a gap that follows a backslash goes beyond the line, and holds no stray carriage
    return. -/
def spansLines : List Char → Bool
  | [] => false
  | '\n' :: _ => true
  | '\r' :: '\n' :: _ => true
  | c :: cs => (c == ' ' || c == '\t') && spansLines cs

/-- What follows a gap, in which carriage returns stand before newlines only. -/
def skipGap : List Char → List Char
  | ' ' :: cs => skipGap cs
  | '\t' :: cs => skipGap cs
  | '\n' :: cs => skipGap cs
  | '\r' :: '\n' :: cs => skipGap cs
  | cs => cs

theorem length_skipGap_le (cs : List Char) : (skipGap cs).length ≤ cs.length := by
  fun_induction skipGap cs <;> simp_all <;> omega

/-- The text up to three double quotes. -/
def readBasicBlock (cs : List Char) : Option (List Char × List Char) :=
  match cs with
  | [] => none
  | '"' :: '"' :: '"' :: cs => some (closeBlock '"' cs)
  | '\\' :: cs =>
    if spansLines cs then readBasicBlock (skipGap cs)
    else
      match _h : escape? cs with
      | some (c, rest) => (readBasicBlock rest).map fun (text, rest) => (c :: text, rest)
      | none => none
  | '\n' :: cs => (readBasicBlock cs).map fun (text, rest) => ('\n' :: text, rest)
  | '\r' :: '\n' :: cs =>
    (readBasicBlock cs).map fun (text, rest) => ('\r' :: '\n' :: text, rest)
  | c :: cs =>
    if isControl c then none
    else (readBasicBlock cs).map fun (text, rest) => (c :: text, rest)
termination_by cs.length
decreasing_by
  · have := length_skipGap_le cs
    simp only [List.length_cons]
    omega
  · have := length_escape?_lt _h
    simp_all only [List.length_cons]
    omega
  all_goals simp only [List.length_cons, Nat.lt_succ_self]
  all_goals omega

/-- The text up to three single quotes. -/
def readLiteralBlock : List Char → Option (List Char × List Char)
  | [] => none
  | '\'' :: '\'' :: '\'' :: cs => some (closeBlock '\'' cs)
  | '\n' :: cs => (readLiteralBlock cs).map fun (text, rest) => ('\n' :: text, rest)
  | '\r' :: '\n' :: cs =>
    (readLiteralBlock cs).map fun (text, rest) => ('\r' :: '\n' :: text, rest)
  | c :: cs =>
    if isControl c then none
    else (readLiteralBlock cs).map fun (text, rest) => (c :: text, rest)

/-- A text without the end of a line at its start. -/
def skipLineEnd (cs : List Char) : List Char :=
  match lineEnd? cs with
  | some (_, rest) => rest
  | none => cs

theorem length_closeBlock_le (quote : Char) (cs : List Char) :
    (closeBlock quote cs).2.length ≤ cs.length := by
  unfold closeBlock
  split
  · split
    · split <;> (simp only [List.length_cons]; omega)
    · exact Nat.le_refl _
  · split <;> simp
  · exact Nat.le_refl _

theorem length_readBasic_lt {cs : List Char} {r : List Char × List Char}
    (h : readBasic cs = some r) : r.2.length < cs.length := by
  fun_induction readBasic cs generalizing r <;>
    grind [Option.map_eq_some_iff, → length_escape?_lt]

theorem length_readLiteral_lt {cs : List Char} {r : List Char × List Char}
    (h : readLiteral cs = some r) : r.2.length < cs.length := by
  fun_induction readLiteral cs generalizing r <;>
    grind [Option.map_eq_some_iff]

theorem length_readBasicBlock_lt {cs : List Char} {r : List Char × List Char}
    (h : readBasicBlock cs = some r) : r.2.length < cs.length := by
  fun_induction readBasicBlock cs generalizing r <;>
    grind [Option.map_eq_some_iff, → length_escape?_lt, length_skipGap_le, length_closeBlock_le]

theorem length_readLiteralBlock_lt {cs : List Char} {r : List Char × List Char}
    (h : readLiteralBlock cs = some r) : r.2.length < cs.length := by
  fun_induction readLiteralBlock cs generalizing r <;>
    grind [Option.map_eq_some_iff, length_closeBlock_le]

theorem length_skipLineEnd_le (cs : List Char) : (skipLineEnd cs).length ≤ cs.length := by
  unfold skipLineEnd lineEnd?
  split
  · next r h =>
    split at h
    · simp_all
    · simp only [Option.some.injEq, Prod.mk.injEq] at h
      simp [← h.2]
      omega
    · simp at h
  · exact Nat.le_refl _

end TestBench.Toml
