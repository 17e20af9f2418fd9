import TestBench.Web.Domain.Table

/-!
# The mapping of domain names

Every character of a domain name is either forbidden or stands for a text: most stand for
themselves, capital letters for small ones, some for nothing at all.

* `mapped_lower`: the small letters of ASCII stand for themselves.
-/

namespace TestBench.Web.Domain

/-- The text that a row of the mapping has for a code point. -/
def rowText (r : Text.Table.Row) (code : Nat) : List Nat :=
  match r.sign with
  | '!' => []
  | '/' => if (code - r.first) % 2 = 0 then [code + 1] else [code]
  | ':' => [(r.valueAt r.first).headD code + (code - r.first)]
  | '=' => r.valueAt code
  | _ => [code]

/-- The text that a character of a domain name stands for, unless it is forbidden. -/
def mapped (c : Char) : Option (List Char) :=
  if c.toNat < 0x80 then some [c.toLower]
  else
    match Text.Table.find? mappingRows c.toNat with
    | some r => some ((rowText r c.toNat).map Char.ofNat)
    | none => none

/-- The text that a text stands for, unless one of its characters is forbidden. -/
def mapAll (cs : List Char) : Option (List Char) :=
  (cs.mapM mapped).map List.flatten

/-- Whether a character of ASCII may not stand in a domain name. -/
def isForbidden (c : Char) : Bool :=
  c.toNat ≤ 0x20 || c.toNat == 0x7F ||
    ['%', '#', '/', ':', '<', '>', '?', '@', '[', '\\', ']', '^', '|'].contains c

/-- The small letters of ASCII stand for themselves. -/
theorem mapped_lower {c : Char} (h₁ : 'a' ≤ c) (h₂ : c ≤ 'z') : mapped c = some [c] := by
  have hz : c.toNat ≤ 'z'.toNat := h₂
  have ha : 'a'.toNat ≤ c.toNat := h₁
  have hl : c.toLower = c := by
    unfold Char.toLower
    rw [dif_neg]
    rintro ⟨_, h⟩
    exact absurd (Nat.le_trans ha h) (by decide)
  rw [mapped, if_pos (Nat.lt_of_le_of_lt hz (by decide)), hl]

end TestBench.Web.Domain
