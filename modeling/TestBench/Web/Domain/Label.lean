import TestBench.Web.Domain.Table
import TestBench.Text.Normal

/-!
# What a label may hold

Two rules about the characters beyond ASCII in one label of a domain name. A label starts with
no mark. And the two characters that make their neighbours join, or not join, only stand where
they make a difference: after the sign that takes the vowel from a letter, or between letters
that would join.

* `startsWell_of_plain`, `joinersFit_of_plain`: plain labels keep both rules.
-/

namespace TestBench.Web.Domain

/-- Whether a label starts with no mark. -/
def startsWell (label : List Char) : Bool :=
  match label with
  | [] => true
  | c :: _ => c.toNat < 0x300 || !Text.Table.covers markRows c.toNat

/-- The character that keeps its neighbours from joining, and the one that joins them. -/
def nonJoiner : Char := Char.ofNat 0x200C
def joiner : Char := Char.ofNat 0x200D

/-- The class of the marks that take the vowel from a letter. -/
def viramaClass : Nat := 9

/-- Whether a text, read backwards, starts with a sign that takes the vowel from a letter. -/
def endsInVirama (before : List Char) : Bool :=
  match before with
  | [] => false
  | c :: _ => Text.Normal.markClass c.toNat == viramaClass

/-- The first character that joining does not look through. -/
def firstJoining (cs : List Char) : Option Char :=
  (cs.dropWhile fun c => Text.Table.covers transparentRows c.toNat).head?

/-- Whether a text, read backwards, ends in a letter that joins with what follows. -/
def joinsOnward (before : List Char) : Bool :=
  match firstJoining before with
  | some c => Text.Table.covers leftRows c.toNat || Text.Table.covers dualRows c.toNat
  | none => false

/-- Whether a text starts with a letter that joins with what precedes. -/
def joinsBackward (after : List Char) : Bool :=
  match firstJoining after with
  | some c => Text.Table.covers rightRows c.toNat || Text.Table.covers dualRows c.toNat
  | none => false

/-- Whether the joiners in the rest of a label make a difference. What comes before the rest is
    given backwards. -/
def joinersFitFrom (before : List Char) : List Char → Bool
  | [] => true
  | c :: cs =>
    (if c = joiner then endsInVirama before
     else if c = nonJoiner then
      endsInVirama before || (joinsOnward before && joinsBackward cs)
     else true) && joinersFitFrom (c :: before) cs

/-- Whether the joiners in a label make a difference. -/
def joinersFit (label : List Char) : Bool :=
  joinersFitFrom [] label

/-- A plain label starts with no mark. -/
theorem startsWell_of_plain {label : List Char} (h : ∀ c ∈ label, c.toNat < 0x80) :
    startsWell label := by
  cases label with
  | nil => rfl
  | cons c cs =>
    have := h c List.mem_cons_self
    have : c.toNat < 0x300 := by omega
    simp [startsWell, this]

/-- A plain label holds no joiners. -/
theorem joinersFitFrom_of_plain {label : List Char} (h : ∀ c ∈ label, c.toNat < 0x80)
    (before : List Char) : joinersFitFrom before label := by
  induction label generalizing before with
  | nil => rfl
  | cons c cs ih =>
    have hc := h c List.mem_cons_self
    have h₁ : c ≠ joiner := fun e => absurd (e ▸ hc) (by decide)
    have h₂ : c ≠ nonJoiner := fun e => absurd (e ▸ hc) (by decide)
    simp [joinersFitFrom, h₁, h₂, ih fun d hd => h d (List.mem_cons_of_mem _ hd)]

/-- A plain label holds no joiners. -/
theorem joinersFit_of_plain {label : List Char} (h : ∀ c ∈ label, c.toNat < 0x80) :
    joinersFit label :=
  joinersFitFrom_of_plain h []

end TestBench.Web.Domain
