import TestBench.Proofs.Source.Lexing
import TestBench.Proofs.Source.Slice
import TestBench.Source.Extract

/-!
# Where directives stand

A directive starts with the blanks of its line or with its `#`, and behind it there is a newline
or nothing at all (`AllFit`). So no character spans either end of it, and the directives of a
text are slices of the text that lie apart and in order.

* `isSliceOf_directive`: every directive is a slice;
* `follow_directivesFrom`: each ends before the next starts;
* `blank_at_directive`: where one starts, the code is blank.
-/

namespace TestBench.Source

open Utf8

/-! ### The ends of a directive -/

/-- What a lexeme has to do with the bytes behind it: a directive starts with a blank or a hash,
    and at most a newline follows it. -/
def Lexeme.Fits (l : Lexeme) (after : List UInt8) : Prop :=
  match l with
  | .directive bs =>
    (∃ b ∈ bs.head?, isLineBlank b ∨ b = hash) ∧ ∀ b ∈ after.head?, b = Source.newline
  | _ => True

/-- So for every lexeme of a list. -/
def AllFit : List Lexeme → Prop
  | [] => True
  | l :: ls => l.Fits (ls.flatMap Lexeme.bytes) ∧ AllFit ls

theorem AllFit.of_append {ls₁ ls₂ : List Lexeme} (h : AllFit (ls₁ ++ ls₂)) : AllFit ls₂ := by
  induction ls₁ with
  | nil => exact h
  | cons l ls ih => exact ih h.2

theorem AllFit.code_append (bs : List UInt8) {ls : List Lexeme} (h : AllFit ls) :
    AllFit (bs.map .code ++ ls) := by
  induction bs with
  | nil => exact h
  | cons b bs ih => exact ⟨trivial, ih⟩

theorem allFit_lexemesFrom (lineStart : Bool) (bs : List UInt8) :
    AllFit (lexemesFrom lineStart bs) := by
  fun_induction lexemesFrom lineStart bs with
  | case1 bs blanks hh cut ih =>
    refine ⟨⟨?_, ?_⟩, ih⟩
    · obtain ⟨rest, hr⟩ := List.head?_eq_some_iff.1 hh
      obtain ⟨d, hd⟩ := splitDirective_hash rest
      have hc : cut.1 = hash :: d := by rw [← hd, ← hr]
      cases hb : blanks.1 with
      | nil => exact ⟨hash, by simp [hc], .inr rfl⟩
      | cons b bl =>
        refine ⟨b, by simp, .inl ?_⟩
        exact List.mem_takeWhile_imp (l := bs) (show b ∈ blanks.1 by simp [hb])
    · rw [flatMap_bytes_lexemesFrom]
      exact head_splitDirective false blanks.2
  | case2 bs blanks _ ih => exact ih.code_append _
  | case3 => trivial
  | _ => exact ⟨trivial, by assumption⟩

theorem startsFresh_of_newline {bs : List UInt8} (h : ∀ b ∈ bs.head?, b = newline) :
    StartsFresh bs := by
  intro b hb
  rw [h b hb]
  decide

theorem Lexeme.Fits.startsFresh {bs after : List UInt8} (h : Lexeme.Fits (.directive bs) after) :
    StartsFresh bs := by
  obtain ⟨⟨b, hb, hh⟩, _⟩ := h
  intro x hx
  obtain rfl := Option.mem_unique hb hx
  rcases hh with hh | rfl
  · simp only [isLineBlank, Text.isBlankByte, Bool.and_eq_true, Bool.or_eq_true, beq_iff_eq] at hh
    rcases hh.1 with (((rfl | rfl) | rfl) | rfl) | rfl <;> rfl
  · rfl

/-! ### The directives among the lexemes -/

/-- The text of a directive: its bytes without the carriage returns at the end. -/
def directiveText (bs : List UInt8) : String :=
  String.ofList (Text.dropTail (· == '\r') (lossy bs).toList)

/-- The number of bytes of lexemes. -/
def size (ls : List Lexeme) : Nat :=
  (ls.flatMap Lexeme.bytes).length

theorem size_cons (l : Lexeme) (ls : List Lexeme) : size (l :: ls) = l.bytes.length + size ls := by
  simp [size]

theorem length_flatMap_cells (ls : List Lexeme) : (ls.flatMap Lexeme.cells).length = size ls := by
  rw [size, ← raw_flatMap_cells, List.length_map]

theorem mem_directivesFrom {n : Nat} {ls : List Lexeme} {d : Declaration} :
    d ∈ directivesFrom n ls ↔ ∃ ls₁ bs ls₂, ls = ls₁ ++ .directive bs :: ls₂ ∧
      d = ⟨.directive, directiveText bs, n + size ls₁⟩ := by
  induction ls generalizing n with
  | nil => simp [directivesFrom]
  | cons l ls ih =>
    have hl : d ∈ directivesFrom n (l :: ls) ↔
        (∃ bs, l = .directive bs ∧ d = ⟨.directive, directiveText bs, n⟩) ∨
          d ∈ directivesFrom (n + l.bytes.length) ls := by
      cases l <;> simp [directivesFrom, directiveText, Lexeme.bytes]
    rw [hl, ih]
    constructor
    · rintro (⟨bs, rfl, rfl⟩ | ⟨ls₁, bs, ls₂, rfl, rfl⟩)
      · exact ⟨[], bs, ls, rfl, by simp [size]⟩
      · exact ⟨l :: ls₁, bs, ls₂, rfl, by rw [size_cons, Nat.add_assoc]⟩
    · rintro ⟨ls₁, bs, ls₂, h, rfl⟩
      rcases List.cons_eq_append_iff.1 h with ⟨rfl, h⟩ | ⟨ls₁', rfl, rfl⟩
      · obtain ⟨rfl, rfl⟩ := List.cons.inj h
        exact .inl ⟨bs, rfl, by simp [size]⟩
      · exact .inr ⟨ls₁', bs, ls₂, rfl, by rw [size_cons, Nat.add_assoc]⟩

theorem directivesFrom_append (n : Nat) (ls₁ ls₂ : List Lexeme) :
    directivesFrom n (ls₁ ++ ls₂) =
      directivesFrom n ls₁ ++ directivesFrom (n + size ls₁) ls₂ := by
  induction ls₁ generalizing n with
  | nil => rfl
  | cons l ls ih =>
    rw [size_cons, ← Nat.add_assoc]
    cases l <;> simp [directivesFrom, ih, Lexeme.bytes]

theorem directivesFrom_add (m n : Nat) (ls : List Lexeme) :
    directivesFrom (m + n) ls = (directivesFrom m ls).map (·.shift n) := by
  induction ls generalizing m with
  | nil => rfl
  | cons l ls ih =>
    have hplace : ∀ k, m + n + k = m + k + n := fun k => by omega
    cases l <;> simp [directivesFrom, Declaration.shift, hplace, ih]

/-- Without a directive among the lexemes there are none. -/
theorem directivesFrom_eq_nil {ls : List Lexeme} (h : ∀ bs, .directive bs ∉ ls) (n : Nat) :
    directivesFrom n ls = [] := by
  refine List.eq_nil_iff_forall_not_mem.2 fun d hd => ?_
  obtain ⟨ls₁, bs, ls₂, rfl, _⟩ := mem_directivesFrom.1 hd
  exact h bs (by simp)

theorem le_order_of_mem_directivesFrom {n : Nat} {ls : List Lexeme} {d : Declaration}
    (h : d ∈ directivesFrom n ls) : n ≤ d.order := by
  obtain ⟨_, _, _, _, rfl⟩ := mem_directivesFrom.1 h
  exact Nat.le_add_right _ _

theorem ne_nil_of_directive {lineStart : Bool} {bs ds : List UInt8}
    (h : .directive ds ∈ lexemesFrom lineStart bs) : ds ≠ [] := by
  obtain ⟨ls₁, ls₂, hls⟩ := List.append_of_mem h
  have hfit : AllFit (ls₁ ++ .directive ds :: ls₂) := hls ▸ allFit_lexemesFrom lineStart bs
  obtain ⟨⟨b, hb, -⟩, -⟩ := hfit.of_append.1
  rintro rfl
  exact absurd hb (by simp)

section Order

variable {n : Nat} {ls : List Lexeme} (hls : ∀ ds, .directive ds ∈ ls → ds ≠ [])

include hls in
/-- A directive starts among the bytes of the lexemes. -/
theorem order_lt_of_mem_directivesFrom {d : Declaration} (h : d ∈ directivesFrom n ls) :
    d.order < n + size ls := by
  obtain ⟨ls₁, ds, ls₂, rfl, rfl⟩ := mem_directivesFrom.1 h
  have := List.length_pos_iff.2 (hls ds (by simp))
  simp only [size, List.flatMap_append, List.flatMap_cons, List.length_append, Lexeme.bytes]
  omega

include hls in
theorem inOrder_directivesFrom : InOrder (directivesFrom n ls) := by
  induction ls generalizing n with
  | nil => exact List.Pairwise.nil
  | cons l ls ih =>
    have hrest : ∀ m, InOrder (directivesFrom m ls) :=
      fun m => ih fun ds hds => hls ds (List.mem_cons_of_mem _ hds)
    cases l with
    | directive ds =>
      refine List.Pairwise.cons (fun e he => ?_) (hrest _)
      have := List.length_pos_iff.2 (hls ds List.mem_cons_self)
      have := le_order_of_mem_directivesFrom he
      simp only
      omega
    | _ => exact hrest _

end Order

/-! ### Directives are slices -/

/-- No character spans either end of a directive. -/
theorem isText_of_directive {ls₁ ls₂ : List Lexeme} {bs : List UInt8}
    (hf : AllFit (ls₁ ++ .directive bs :: ls₂))
    (ht : IsText ((ls₁ ++ .directive bs :: ls₂).flatMap Lexeme.bytes)) :
    IsText (ls₁.flatMap Lexeme.bytes) ∧ IsText bs ∧ IsText (ls₂.flatMap Lexeme.bytes) := by
  rw [List.flatMap_append, List.flatMap_cons, Lexeme.bytes] at ht
  have hfit := hf.of_append.1
  -- It starts with an ASCII byte, and what follows it with a newline, if anything does.
  have hs : StartsFresh (bs ++ ls₂.flatMap Lexeme.bytes) := by
    obtain ⟨⟨b, hb, _⟩, _⟩ := id hfit
    obtain ⟨rest, rfl⟩ := List.head?_eq_some_iff.1 hb
    exact hfit.startsFresh
  obtain ⟨h₁, h⟩ := ht.split hs
  exact ⟨h₁, h.split (startsFresh_of_newline hfit.2)⟩

/-- What a list starts with, and the tail that is cut off. -/
theorem exists_of_dropTail {α : Type} (p : α → Bool) (l : List α) :
    ∃ tail, l = Text.dropTail p l ++ tail ∧ ∀ x ∈ tail, p x := by
  refine ⟨(l.reverse.takeWhile p).reverse, ?_, fun x hx => ?_⟩
  · rw [Text.dropTail, ← List.reverse_append, List.takeWhile_append_dropWhile, List.reverse_reverse]
  · exact List.mem_takeWhile_imp (List.mem_reverse.1 hx)

/-- The text of a directive is what it starts with; blanks are cut off. -/
theorem encode_directiveText {bs : List UInt8} (h : IsText bs) :
    ∃ q, IsText q ∧ (∀ b ∈ q, isLineBlank b) ∧ encode (directiveText bs) ++ q = bs := by
  obtain ⟨cs, rfl⟩ := h
  obtain ⟨tail, ht, htail⟩ := exists_of_dropTail (· == '\r') cs
  refine ⟨encodeChars tail, ⟨tail, rfl⟩, fun b hb => ?_, ?_⟩
  · obtain ⟨c, hc, hb⟩ := List.mem_flatMap.1 hb
    obtain rfl := beq_iff_eq.1 (htail c hc)
    obtain rfl : b = 0x0D := List.mem_singleton.1 hb
    decide
  · rw [directiveText, lossy_encodeChars, String.toList_ofList, encode_ofList, ← encodeChars_append,
      ← ht]

/-- Every directive is a slice of the text. -/
theorem isSliceOf_directive {t : String} {d : Declaration}
    (h : d ∈ directivesFrom 0 (lexemes (encode t))) : d.IsSliceOf t := by
  obtain ⟨ls₁, bs, ls₂, hls, rfl⟩ := mem_directivesFrom.1 h
  have ht : (lexemes (encode t)).flatMap Lexeme.bytes = encode t := flatMap_bytes_lexemes _
  rw [hls] at ht
  obtain ⟨h₁, hbs, h₂⟩ := isText_of_directive (hls ▸ allFit_lexemesFrom true _)
    (ht ▸ isText_encode t)
  obtain ⟨q, hq, -, hbq⟩ := encode_directiveText hbs
  refine Declaration.isSliceOf_of_append ?_ h₁ (hq.append h₂) (by simp [size])
  have hb : encode (directiveText bs) ++ (q ++ ls₂.flatMap Lexeme.bytes) =
      bs ++ ls₂.flatMap Lexeme.bytes := by
    rw [← List.append_assoc, hbq]
  rw [← ht, List.flatMap_append, List.flatMap_cons, Lexeme.bytes, List.append_assoc, hb]

/-- A directive starts before the next one, and ends there at the latest. -/
theorem follow_directivesFrom {n : Nat} {ls : List Lexeme} (hf : AllFit ls)
    (ht : ∀ bs, .directive bs ∈ ls → IsText bs) :
    Follow (directivesFrom n ls) := by
  induction ls generalizing n with
  | nil => exact List.Pairwise.nil
  | cons l ls ih =>
    have hrest : ∀ m, Follow (directivesFrom m ls) :=
      fun m => ih hf.2 fun bs hbs => ht bs (List.mem_cons_of_mem _ hbs)
    cases l with
    | directive bs =>
      refine List.Pairwise.cons (fun e he => ?_) (hrest _)
      -- The next one starts behind all bytes of this one, of which the text is a part.
      have hle := le_order_of_mem_directivesFrom he
      obtain ⟨⟨b, hb, _⟩, _⟩ := hf.1
      obtain ⟨rest, rfl⟩ := List.head?_eq_some_iff.1 hb
      obtain ⟨q, -, -, hq⟩ := encode_directiveText (ht _ List.mem_cons_self)
      have hl := congrArg List.length hq
      rw [List.length_append] at hl
      simp only [directiveText, List.length_cons] at hl hle
      simp only [Declaration.stop]
      omega
    | _ => exact hrest _

/-- Where a directive starts, there is no code. -/
theorem blank_at_directive {ls : List Lexeme} {d : Declaration} (hf : AllFit ls)
    (h : d ∈ directivesFrom 0 ls) :
    ∃ c ∈ (ls.flatMap Lexeme.cells)[d.order]?, c.isBlank := by
  obtain ⟨ls₁, bs, ls₂, rfl, rfl⟩ := mem_directivesFrom.1 h
  obtain ⟨⟨b, hb, _⟩, _⟩ := hf.of_append.1
  obtain ⟨rest, rfl⟩ := List.head?_eq_some_iff.1 hb
  refine ⟨.blanked b, ?_, ?_⟩
  · rw [Nat.zero_add, ← length_flatMap_cells]
    simp [Lexeme.cells]
  · simp only [Cell.isBlank, Cell.blanked]
    split <;> rfl

end TestBench.Source
