import TestBench.Proofs.Source.Extraction
import TestBench.Proofs.Source.FileScope
import TestBench.Proofs.Source.Header.Lexing

/-!
# The cells of a header

What the code of a header looks like: its own characters where there is code, blanks where there
is a comment. A body is never entered, since whatever stands in it leaves the end of the group
around it where it is.

* `isNeutral_body`: a body is neutral in the group around it;
* `raw_item`: as written, the cells of an item are the item.
-/

namespace TestBench.Source.Header

open Utf8

/-! ### Cells of code -/

/-- The cells of code. -/
def plainCells (cs : List Char) : List Cell :=
  (encodeChars cs).map .plain

@[simp]
theorem plainCells_nil : plainCells [] = [] :=
  rfl

@[simp]
theorem plainCells_append (cs ds : List Char) :
    plainCells (cs ++ ds) = plainCells cs ++ plainCells ds := by
  simp [plainCells]

theorem raw_plainCells (cs : List Char) : (plainCells cs).map Cell.raw = encodeChars cs := by
  simp [plainCells, Function.comp_def, Cell.plain]

theorem code_plainCells (cs : List Char) : (plainCells cs).map Cell.code = encodeChars cs := by
  simp [plainCells, Function.comp_def, Cell.plain]

@[simp]
theorem rawText_plainCells (cs : List Char) : rawText (plainCells cs) = String.ofList cs := by
  rw [rawText, raw_plainCells, lossy_encodeChars]

@[simp]
theorem codeText_plainCells (cs : List Char) : codeText (plainCells cs) = String.ofList cs := by
  rw [codeText, code_plainCells, lossy_encodeChars]

@[simp]
theorem cells_codeLexemes (cs : List Char) :
    (codeLexemes cs).flatMap Lexeme.cells = plainCells cs := by
  rw [codeLexemes, plainCells, List.flatMap_map, List.map_eq_flatMap]
  simp only [cells_codeLexeme]

/-- A cell of code is an ASCII byte only if this is a character of the code. -/
theorem mem_of_mem_plainCells {cs : List Char} {x : Cell} (h : x ∈ plainCells cs)
    (hx : x.code < 0x80) : Char.ofNat x.code.toNat ∈ cs := by
  obtain ⟨b, hb, rfl⟩ := List.mem_map.1 h
  exact mem_of_mem_encodeChars hb hx

theorem isFlat_of_mem_plainCells {cs : List Char} (h : ∀ c ∈ cs, isFlat c) :
    ∀ x ∈ plainCells cs, x.IsFlat := by
  intro x hx
  have hmem := mem_of_mem_plainCells hx
  refine ⟨?_, ?_, ?_⟩ <;> rintro he <;> rw [he] at hmem <;>
    exact absurd (h _ (hmem (by decide))) (by decide)

theorem isBlank_of_mem_plainCells {cs : List Char} (h : ∀ c ∈ cs, isSpace c) :
    ∀ x ∈ plainCells cs, x.isBlank := by
  intro x hx
  obtain ⟨b, hb, rfl⟩ := List.mem_map.1 hx
  obtain ⟨c, hc, hb⟩ := List.mem_flatMap.1 hb
  obtain ⟨y, hy, hblank, _⟩ := utf8EncodeChar_of_isSpace (h c hc)
  rw [hy, List.mem_singleton] at hb
  rw [hb]
  exact hblank

/-- Blanks in front of code are characters in front of it. -/
theorem dropWhile_plainCells (cs : List Char) :
    (plainCells cs).dropWhile Cell.isBlank = plainCells (cs.dropWhile isSpace) := by
  induction cs with
  | nil => rfl
  | cons c cs ih =>
    have hcons : plainCells (c :: cs) = plainCells [c] ++ plainCells cs := by
      rw [← plainCells_append]
      rfl
    by_cases hc : isSpace c
    · rw [hcons, List.dropWhile_append_of_pos, ih, List.dropWhile_cons_of_pos hc]
      exact isBlank_of_mem_plainCells (List.forall_mem_singleton.2 hc)
    · obtain ⟨b, bs, hb, _⟩ := utf8EncodeChar_eq_cons c
      have hblank : ¬(Cell.plain b).isBlank :=
        fun hblank => hc (isSpace_of_isBlankByte (b := b) (by simp [hb]) hblank)
      rw [List.dropWhile_cons_of_neg hc]
      simp only [plainCells, encodeChars_cons, hb, List.cons_append, List.map_cons]
      exact List.dropWhile_cons_of_neg hblank

/-- The characters of a tag are bytes of a word. -/
theorem utf8EncodeChar_of_isTagChar {c : Char} (h : isTagChar c) :
    ∃ b, String.utf8EncodeChar c = [b] ∧ isWordByte b ∧ (isTagStart c → Source.isTagStart b) := by
  have hc : 0x30 ≤ c.toNat ∧ c.toNat ≤ 0x39 ∨ 0x41 ≤ c.toNat ∧ c.toNat ≤ 0x5A ∨
      c.toNat = 0x5F ∨ 0x61 ≤ c.toNat ∧ c.toNat ≤ 0x7A := by
    simp only [isTagChar, Text.isLetter, Text.isDigit, Bool.or_eq_true, Bool.and_eq_true,
      decide_eq_true_eq, beq_iff_eq, Char.le_def, UInt32.le_iff_toNat_le] at h
    rcases h with ((h | h) | h) | rfl
    · exact .inr (.inr (.inr h))
    · exact .inr (.inl h)
    · exact .inl h
    · exact .inr (.inr (.inl rfl))
  have hn : c.toNat < 0x80 := by omega
  have hb : (UInt8.ofNat c.toNat).toNat = c.toNat := by
    rw [UInt8.toNat_ofNat', Nat.mod_eq_of_lt (by omega)]
  refine ⟨UInt8.ofNat c.toNat, ?_, ?_, fun hs => ?_⟩
  · unfold String.utf8EncodeChar
    simp only []
    exact if_pos (Nat.le_of_lt_succ hn)
  · simp only [isWordByte, Bool.or_eq_true, Bool.and_eq_true, decide_eq_true_eq, beq_iff_eq,
      UInt8.le_iff_toNat_le, ← UInt8.toNat_inj, hb]
    simp
    omega
  · have hd : ¬(0x30 ≤ c.toNat ∧ c.toNat ≤ 0x39) := by
      simp only [isTagStart, Text.isLetter, Bool.or_eq_true, Bool.and_eq_true,
        decide_eq_true_eq, beq_iff_eq, Char.le_def, UInt32.le_iff_toNat_le] at hs
      rintro ⟨h₁, h₂⟩
      rcases hs with (hs | hs) | rfl
      · exact absurd (Nat.le_trans hs.1 h₂) (by decide)
      · exact absurd (Nat.le_trans hs.1 h₂) (by decide)
      · exact absurd h₂ (by decide)
    simp only [Source.isTagStart, Bool.or_eq_true, Bool.and_eq_true, decide_eq_true_eq, beq_iff_eq,
      UInt8.le_iff_toNat_le, ← UInt8.toNat_inj, hb]
    simp
    omega

theorem isWordByte_of_mem_plainCells {cs : List Char} (h : ∀ c ∈ cs, isTagChar c) :
    ∀ x ∈ plainCells cs, isWordByte x.code := by
  intro x hx
  obtain ⟨b, hb, rfl⟩ := List.mem_map.1 hx
  obtain ⟨c, hc, hb⟩ := List.mem_flatMap.1 hb
  obtain ⟨y, hy, hw, _⟩ := utf8EncodeChar_of_isTagChar (h c hc)
  rw [hy, List.mem_singleton] at hb
  rw [hb]
  exact hw

theorem isTag_plainCells (t : Tag) : IsTag (plainCells t.1) := by
  obtain ⟨t, ⟨c, hc, hs⟩, ht⟩ := t
  refine ⟨?_, isWordByte_of_mem_plainCells ht⟩
  obtain ⟨t, rfl⟩ := List.head?_eq_some_iff.1 hc
  obtain ⟨b, hb, _, hstart⟩ := utf8EncodeChar_of_isTagChar (ht c List.mem_cons_self)
  exact ⟨.plain b, by simp [plainCells, hb], hstart hs⟩

/-- Behind a word, blanks that are not missing end it. -/
theorem not_startsWord_gap (g : WideGap) (rest : List Cell) :
    ¬StartsWord (plainCells g.1 ++ rest) := by
  obtain ⟨g, hg, hne⟩ := g
  obtain ⟨c, cs, rfl⟩ := List.exists_cons_of_ne_nil hne
  obtain ⟨b, hb, hblank, _⟩ := utf8EncodeChar_of_isSpace (hg c List.mem_cons_self)
  rw [plainCells, encodeChars_cons, hb]
  exact not_startsWord_cons (@not_word_of_isBlank (.plain b) hblank) _

/-! ### Bodies -/

/-- The cells of a body. -/
def Body.cells (b : Body) : List Cell :=
  b.lexemes.flatMap Lexeme.cells

theorem isNeutral_of_isBlank {cs : List Cell} (h : ∀ c ∈ cs, c.isBlank) : IsNeutral cs :=
  isNeutral_of_code fun c hc => (isFlat_of_isBlank (h c hc)).2

theorem isBlank_comment (c : Comment) : ∀ x ∈ c.lexeme.cells, x.isBlank := by
  intro x hx
  cases c with
  | line =>
    obtain ⟨b, _, rfl⟩ := List.mem_map.1 hx
    exact isBlank_blanked b
  | block =>
    obtain ⟨b, _, rfl⟩ := List.mem_map.1 hx
    exact isBlank_blanked b

theorem isNeutral_literal (l : Literal) : IsNeutral l.lexeme.cells := by
  have hq : ∀ x ∈ [Cell.plain l.byte], x.code ≠ openBrace ∧ x.code ≠ closeBrace := by
    rw [List.forall_mem_singleton, Literal.byte]
    rcases l.isQuote with h | h <;> rw [h] <;> decide
  have hbody : IsNeutral ((encodeChars (l.parts.flatMap LiteralPart.text)).map Cell.blanked) := by
    refine isNeutral_of_isBlank fun x hx => ?_
    obtain ⟨b, _, rfl⟩ := List.mem_map.1 hx
    exact isBlank_blanked b
  have := ((isNeutral_of_code hq).append hbody).append (isNeutral_of_code hq)
  simpa [Literal.lexeme, Lexeme.cells] using this

/-- Whatever stands in a body, a group around it ends where one without it would. -/
theorem isNeutral_body (b : Body) : IsNeutral b.cells := by
  induction b with
  | nil => exact isNeutral_nil
  | plain c hc rest ih =>
    have hcode : IsNeutral (plainCells [c]) := by
      refine isNeutral_of_code fun x hx => ?_
      have hmem := mem_of_mem_plainCells hx
      constructor <;> rintro he <;> rw [he] at hmem <;>
        exact absurd hc (by rw [← List.mem_singleton.1 (hmem (by decide))]; decide)
    rw [Body.cells, Body.lexemes, List.flatMap_append, cells_codeLexemes]
    exact hcode.append ih
  | comment c rest ih =>
    cases c with
    | line t h =>
      rw [Body.cells, Body.lexemes, List.flatMap_cons, List.flatMap_cons]
      have hnl : IsNeutral (Lexeme.cells .newline) := isNeutral_of_isBlank (by decide)
      exact (isNeutral_of_isBlank (isBlank_comment _)).append (hnl.append ih)
    | block t h =>
      rw [Body.cells, Body.lexemes, List.flatMap_cons]
      exact (isNeutral_of_isBlank (isBlank_comment _)).append ih
  | literal l rest ih =>
    rw [Body.cells, Body.lexemes, List.flatMap_cons]
    exact (isNeutral_literal l).append ih
  | group inner rest ih₁ ih₂ =>
    have hgroup := ih₁.group (o := .plain openBrace) (c := .plain closeBrace) rfl rfl
    have hopen : plainCells ['{'] = [.plain openBrace] := rfl
    have hclose : plainCells ['}'] = [.plain closeBrace] := rfl
    have hcells : (Body.group inner rest).cells =
        (.plain openBrace :: inner.cells ++ [.plain closeBrace]) ++ rest.cells := by
      simp [Body.cells, Body.lexemes, hopen, hclose]
    rw [hcells]
    exact hgroup.append ih₂

/-! ### Items -/

/-- The cells of an item. -/
def Item.cells (i : Item) : List Cell :=
  i.lexemes.flatMap Lexeme.cells

/-- As written, the cells of an item are the item. -/
theorem raw_item (i : Item) : i.cells.map Cell.raw = encodeChars i.text := by
  have h := @lexemesFrom_item i [] (by simp)
  rw [lexemesFrom_nil, List.append_nil, List.append_nil] at h
  rw [Item.cells, raw_flatMap_cells, ← h, flatMap_bytes_lexemesFrom]

theorem length_item (i : Item) : i.cells.length = (encodeChars i.text).length := by
  rw [← raw_item, List.length_map]

theorem rawText_item (i : Item) : rawText i.cells = String.ofList i.text := by
  rw [rawText, raw_item, lossy_encodeChars]

/-- A body in braces between code. -/
theorem cells_bracedLexemes (front : List Char) (b : Body) (back : List Char) :
    (bracedLexemes front b back).flatMap Lexeme.cells =
      plainCells front ++
        .plain openBrace :: (b.cells ++ .plain closeBrace :: plainCells back) := by
  have hopen : plainCells ['{'] = [.plain openBrace] := rfl
  have hclose : plainCells ('}' :: back) = .plain closeBrace :: plainCells back := rfl
  simp [bracedLexemes, hopen, hclose, Body.cells]

end TestBench.Source.Header
