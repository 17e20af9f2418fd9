import TestBench.Proofs.Text.Encoding
import TestBench.Source.Declaration

/-!
# Slices

A declaration is a *slice* of a text if the text has, from the offset of the declaration on, just
the bytes of its text, and if no character of the text spans either end.
-/

namespace TestBench

open Utf8

namespace Declaration

/-- The offset behind a declaration. -/
def stop (d : Declaration) : Nat :=
  d.order + (encode d.text).length

/-- The same declaration further on. -/
def shift (n : Nat) (d : Declaration) : Declaration :=
  { d with order := d.order + n }

/-- Whether a text has a declaration where the declaration says. -/
structure IsSliceOf (d : Declaration) (t : String) : Prop where
  bytes : (encode t).extract d.order d.stop = encode d.text
  between : ∃ a b : String, a ++ d.text ++ b = t ∧ (encode a).length = d.order

/-- Two declarations without a byte in common. -/
def Apart (d e : Declaration) : Prop :=
  d.stop ≤ e.order ∨ e.stop ≤ d.order

end Declaration

/-- Declarations each of which starts before the next one, and ends there at the latest. -/
def Follow (ds : List Declaration) : Prop :=
  ds.Pairwise fun d e => d.order < e.order ∧ d.stop ≤ e.order

/-- Declarations each of which starts before the next one. -/
def InOrder (ds : List Declaration) : Prop :=
  ds.Pairwise fun d e => d.order < e.order

theorem Follow.inOrder {ds : List Declaration} (h : Follow ds) : InOrder ds :=
  h.imp And.left

theorem Follow.apart {ds : List Declaration} (h : Follow ds) : ds.Pairwise Declaration.Apart :=
  h.imp fun h => .inl h.2

/-- The middle of three parts is what lies between the ends of the others. -/
theorem extract_middle {α : Type} (l₁ l₂ l₃ : List α) :
    (l₁ ++ (l₂ ++ l₃)).extract l₁.length (l₁ ++ l₂).length = l₂ := by
  simp [List.extract_eq_take_drop]

theorem extract_map_middle {α β : Type} (f : α → β) (l₁ l₂ l₃ : List α) :
    ((l₁ ++ (l₂ ++ l₃)).map f).extract l₁.length (l₁ ++ l₂).length = l₂.map f := by
  have h := extract_middle (l₁.map f) (l₂.map f) (l₃.map f)
  rwa [← List.map_append, ← List.map_append, ← List.map_append, List.length_map,
    List.length_map] at h

/-- Where bytes are those of a text, a declaration between two parts that are texts themselves is
    a slice. -/
theorem Declaration.isSliceOf_of_append {d : Declaration} {t : String} {p q : List UInt8}
    (h : p ++ encode d.text ++ q = encode t) (hp : IsText p) (hq : IsText q)
    (hd : p.length = d.order) : d.IsSliceOf t := by
  constructor
  · rw [← h, Declaration.stop, ← hd, List.append_assoc, ← List.length_append]
    exact extract_middle p (encode d.text) q
  · obtain ⟨ps, rfl⟩ := hp
    obtain ⟨qs, rfl⟩ := hq
    refine ⟨String.ofList ps, String.ofList qs, ?_, by rw [encode_ofList, hd]⟩
    have := congrArg lossy h
    rw [lossy_encode] at this
    rw [← this, ← lossy_encode (String.ofList ps ++ d.text ++ String.ofList qs)]
    simp

end TestBench
