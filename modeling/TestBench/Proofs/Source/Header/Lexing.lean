import Mathlib.Data.List.Induction
import TestBench.Proofs.Source.Directive
import TestBench.Proofs.Source.Header
import TestBench.Proofs.Source.Lexing

/-!
# The lexemes of a header

Headers are cut into lexemes item by item. Whether a line starts matters only where a `#` comes
next (`NoDirective`): everywhere else blanks at the start of a line are code like any other. So
the lexemes of an item, and of a body, do not depend on what surrounds them.

* `lexemesFrom_body`: the lexemes of a body;
* `lexemesFrom_item`: those of an item on lines of its own;
* `lexemes_text`: the lexemes of a header are those of its items, with newlines between them.
-/

namespace TestBench.Source.Header

open Utf8

/-! ### Lexemes of bodies -/

/-- The lexemes of code that starts nothing. -/
def codeLexemes (cs : List Char) : List Lexeme :=
  (encodeChars cs).map codeLexeme

def Comment.lexeme (c : Comment) : Lexeme :=
  match c with
  | .line .. => .lineComment (encodeChars c.text)
  | .block .. => .blockComment (encodeChars c.text)

/-- The quote of a literal as a byte. -/
def Literal.byte (l : Literal) : UInt8 :=
  l.quote.toUInt8

def Literal.lexeme (l : Literal) : Lexeme :=
  .literal l.byte (encodeChars (l.parts.flatMap LiteralPart.text)) true

def Body.lexemes : Body → List Lexeme
  | .nil => []
  | .plain c _ rest => codeLexemes [c] ++ rest.lexemes
  | .comment c rest =>
    match c with
    | .line t h => (Comment.line t h).lexeme :: .newline :: rest.lexemes
    | .block t h => (Comment.block t h).lexeme :: rest.lexemes
  | .literal l rest => l.lexeme :: rest.lexemes
  | .group inner rest =>
    codeLexemes ['{'] ++ inner.lexemes ++ codeLexemes ['}'] ++ rest.lexemes

/-- Whether a character is code that starts nothing. -/
def isInert (c : Char) : Bool :=
  c != '/' && c != '"' && c != '\'' && c != '#'

theorem isInert_of_isPlain {c : Char} (h : isPlain c) : isInert c := by
  simp_all [isPlain, isInert]

theorem isInert_of_isFlat {c : Char} (h : isFlat c) : isInert c := by
  rw [isFlat, Bool.and_eq_true] at h
  exact isInert_of_isPlain h.1

theorem isInert_of_isSpace {c : Char} (h : isSpace c) : isInert c := by
  simp only [isSpace, Bool.or_eq_true, beq_iff_eq] at h
  rcases h with (((rfl | rfl) | rfl) | rfl) | rfl <;> decide

/-- The bytes of a code text start nothing. -/
theorem isInert_of_mem_encodeChars {cs : List Char} (h : ∀ c ∈ cs, isInert c) :
    ∀ b ∈ encodeChars cs, IsInert b := by
  intro b hb
  refine ⟨?_, ?_, ?_, ?_⟩ <;> rintro rfl <;>
    exact absurd (h _ (mem_of_mem_encodeChars hb (by decide))) (by decide)

theorem hash_notMem_encodeChars {cs : List Char} (h : ∀ c ∈ cs, isInert c) :
    hash ∉ encodeChars cs :=
  fun hm => (isInert_of_mem_encodeChars h hash hm).2.2.2 rfl

theorem lexemesFrom_codeChars {cs : List Char} (h : ∀ c ∈ cs, isInert c) {rest : List UInt8}
    (hr : NoDirective rest) :
    lexemesFrom false (encodeChars cs ++ rest) = codeLexemes cs ++ lexemesFrom false rest :=
  lexemesFrom_inert (isInert_of_mem_encodeChars h) hr

theorem lexemesFrom_line {t : List Char} (h : '\n' ∉ t) {rest : List UInt8}
    (hr : ∀ b ∈ rest.head?, b = newline) :
    lexemesFrom false (encodeChars (Comment.line t h).text ++ rest) =
      (Comment.line t h).lexeme :: lexemesFrom false rest :=
  lexemesFrom_lineComment (fun hm => h (mem_of_mem_encodeChars hm (by decide))) hr

theorem lexemesFrom_block {t : List Char} (h : ¬['*', '/'] <:+: t) (rest : List UInt8) :
    lexemesFrom false (encodeChars (Comment.block t h).text ++ rest) =
      (Comment.block t h).lexeme :: lexemesFrom false rest := by
  have hopen : ¬[star, slash] <:+: encodeChars t := fun hi =>
    h (infix_of_infix_encodeChars rfl rfl (by decide) (by decide) hi)
  have htext : encodeChars (Comment.block t h).text =
      slash :: star :: (encodeChars t ++ [star, slash]) := by
    rw [Comment.text, List.cons_append, List.cons_append, encodeChars_cons, encodeChars_cons,
      encodeChars_append]
    rfl
  rw [Comment.lexeme, htext, ← lexemesFrom_blockComment hopen]
  simp

/-- The parts of a literal are read up to its quote. -/
theorem splitLiteral_parts {quote : Char} (hq : quote = '"' ∨ quote = '\'')
    (parts : List (LiteralPart quote)) (rest : List UInt8) :
    splitLiteral quote.toUInt8 (encodeChars (parts.flatMap LiteralPart.text) ++
      quote.toUInt8 :: rest) = (encodeChars (parts.flatMap LiteralPart.text), true, rest) := by
  have hbyte : quote.toUInt8 < 0x80 ∧ Char.ofNat quote.toUInt8.toNat = quote ∧
      quote.toUInt8 ≠ backslash := by
    rcases hq with rfl | rfl <;> exact ⟨by decide, by decide, by decide⟩
  induction parts with
  | nil =>
    rw [List.flatMap_nil, encodeChars_nil, List.nil_append, splitLiteral.eq_def]
    simp
  | cons p parts ih =>
    rw [List.flatMap_cons, encodeChars_append, List.append_assoc]
    cases p with
    | char c inside =>
      have hc : ∀ b ∈ encodeChars (LiteralPart.char c inside).text, b < 0x80 →
          Char.ofNat b.toNat = c := fun b hb hlt =>
        List.mem_singleton.1 (mem_of_mem_encodeChars hb hlt)
      refine splitLiteral_append (fun b hb => ⟨?_, ?_, ?_⟩) ih <;> rintro rfl
      · exact inside.1 (hbyte.2.1 ▸ (hc _ hb hbyte.1).symm)
      · exact inside.2.2 (hc _ hb (by decide)).symm
      · exact inside.2.1 (hc _ hb (by decide)).symm
    | escape c =>
      -- Of the escaped character the first byte is taken; those behind it end nothing.
      obtain ⟨b, bs, hc, _, hbs⟩ := utf8EncodeChar_eq_cons c
      have htext : encodeChars (LiteralPart.text (.escape c : LiteralPart quote)) =
          backslash :: b :: bs := by
        simp [LiteralPart.text, hc]
        rfl
      rw [htext]
      refine splitLiteral_escape hbyte.2.2 (splitLiteral_append (fun x hx => ?_) ih)
      have hx := hbs x hx
      refine ⟨?_, ?_, ?_⟩ <;> rintro rfl
      · rw [not_continues_of_ascii hbyte.1] at hx
        exact absurd hx (by decide)
      · exact absurd hx (by decide)
      · exact absurd hx (by decide)

theorem lexemesFrom_literalText (l : Literal) (rest : List UInt8) :
    lexemesFrom false (encodeChars l.text ++ rest) = l.lexeme :: lexemesFrom false rest := by
  have hq : String.utf8EncodeChar l.quote = [l.byte] ∧
      (l.byte = doubleQuote ∨ l.byte = singleQuote) := by
    rcases l.isQuote with h | h <;> simp only [Literal.byte, h]
    · exact ⟨rfl, .inl rfl⟩
    · exact ⟨rfl, .inr rfl⟩
  rw [Literal.lexeme, ← lexemesFrom_literal hq.2 (splitLiteral_parts l.isQuote l.parts rest)]
  simp [Literal.text, hq.1, Literal.byte]

/-! ### Bodies -/

theorem noDirective_body (b : Body) {rest : List UInt8} (hr : NoDirective rest) :
    NoDirective (encodeChars b.text ++ rest) := by
  induction b with
  | nil => exact hr
  | plain c hc rest' ih =>
    have hcode : ∀ x ∈ [c], isInert x := List.forall_mem_singleton.2 (isInert_of_isPlain hc)
    have := noDirective_append (hash_notMem_encodeChars hcode) ih
    simpa [Body.text] using this
  | comment c rest' _ =>
    cases c <;> exact noDirective_of_not_blank (b := slash) (by decide) (by decide) _
  | literal l rest' _ =>
    rcases l with ⟨q, rfl | rfl, parts⟩
    · exact noDirective_of_not_blank (b := doubleQuote) (by decide) (by decide) _
    · exact noDirective_of_not_blank (b := singleQuote) (by decide) (by decide) _
  | group inner rest' _ _ => exact noDirective_of_not_blank (b := 0x7B) (by decide) (by decide) _

theorem lexemesFrom_body (b : Body) {rest : List UInt8} (hr : NoDirective rest) :
    lexemesFrom false (encodeChars b.text ++ rest) = b.lexemes ++ lexemesFrom false rest := by
  induction b generalizing rest with
  | nil => rfl
  | plain c hc rest' ih =>
    have hinert : ∀ x ∈ [c], isInert x := List.forall_mem_singleton.2 (isInert_of_isPlain hc)
    have hcode := lexemesFrom_codeChars hinert (noDirective_body rest' hr)
    rw [Body.text, encodeChars_cons, Body.lexemes, List.append_assoc, List.append_assoc, ← ih hr,
      ← hcode]
    simp
  | comment c rest' ih =>
    cases c with
    | line t h =>
      have hnl : encodeChars ('\n' :: rest'.text) = newline :: encodeChars rest'.text := rfl
      rw [Body.text, encodeChars_append, List.append_assoc, hnl, List.cons_append,
        lexemesFrom_line h (by simp), lexemesFrom_newline,
        lexemesFrom_true (noDirective_body rest' hr), ih hr]
      rfl
    | block t h =>
      rw [Body.text, encodeChars_append, List.append_assoc, lexemesFrom_block, ih hr]
      rfl
  | literal l rest' ih =>
    rw [Body.text, encodeChars_append, List.append_assoc, lexemesFrom_literalText, ih hr]
    rfl
  | group inner rest' ih₁ ih₂ =>
    have hopen : ∀ c ∈ ['{'], isInert c := List.all_eq_true.1 rfl
    have hend : ∀ c ∈ ['}'], isInert c := List.all_eq_true.1 rfl
    have hclose : NoDirective (encodeChars ['}'] ++ (encodeChars rest'.text ++ rest)) :=
      noDirective_of_not_blank (b := 0x7D) (by decide) (by decide) _
    have htext : encodeChars (Body.group inner rest').text ++ rest =
        encodeChars ['{'] ++ (encodeChars inner.text ++ (encodeChars ['}'] ++
          (encodeChars rest'.text ++ rest))) := by
      simp [Body.text]
    rw [htext, lexemesFrom_codeChars hopen (noDirective_body inner hclose), ih₁ hclose,
      lexemesFrom_codeChars hend (noDirective_body rest' hr), ih₂ hr]
    simp [Body.lexemes]

/-! ### Directives -/

/-- Whether a line goes on behind its last byte, given whether it would behind the one before. -/
def continuedBy (continued : Bool) (b : UInt8) : Bool :=
  if Text.isBlankByte b then continued else b == backslash

theorem splitDirective_line {bs rest : List UInt8} {continued : Bool} (hbs : newline ∉ bs)
    (hr : ∀ b ∈ rest.head?, b = newline) (h : bs.foldl continuedBy continued = false) :
    splitDirective continued (bs ++ rest) = (bs, rest) := by
  induction bs generalizing continued with
  | nil =>
    obtain rfl : continued = false := h
    cases rest with
    | nil => rfl
    | cons b rest =>
      rw [hr b rfl]
      simp [splitDirective]
  | cons b bs ih =>
    rw [List.mem_cons, not_or] at hbs
    rw [List.foldl_cons, continuedBy] at h
    rw [List.cons_append, splitDirective, if_neg (Ne.symm hbs.1), ih hbs.2 h]

theorem isSpace_of_isBlankByte {c : Char} {b : UInt8} (h : b ∈ String.utf8EncodeChar c)
    (hb : Text.isBlankByte b) : isSpace c := by
  simp only [Text.isBlankByte, Bool.or_eq_true, beq_iff_eq] at hb
  rcases hb with (((rfl | rfl) | rfl) | rfl) | rfl <;>
    · rw [eq_of_mem_ascii h (by decide)]
      decide

theorem utf8EncodeChar_of_isSpace {c : Char} (h : isSpace c) :
    ∃ b, String.utf8EncodeChar c = [b] ∧ Text.isBlankByte b ∧ (c ≠ '\n' → isLineBlank b) := by
  simp only [isSpace, Bool.or_eq_true, beq_iff_eq] at h
  rcases h with (((rfl | rfl) | rfl) | rfl) | rfl <;> exact ⟨_, rfl, by decide, by decide⟩

/-- A line whose last character that is no blank is no backslash ends. -/
theorem not_continued {cs : List Char}
    (h : (Text.dropTail isSpace cs).getLast? ≠ some '\\') :
    (encodeChars cs).foldl continuedBy false = false := by
  induction cs using List.reverseRecOn with
  | nil => rfl
  | append_singleton cs c ih =>
    rw [encodeChars_append, List.foldl_append, encodeChars_cons, encodeChars_nil, List.append_nil]
    by_cases hc : isSpace c
    · obtain ⟨b, hb, hblank, _⟩ := utf8EncodeChar_of_isSpace hc
      rw [hb, List.foldl_cons, List.foldl_nil, continuedBy, if_pos hblank]
      refine ih ?_
      simpa [Text.dropTail, hc] using h
    · have hslash : c ≠ '\\' := by simpa [Text.dropTail, hc] using h
      obtain ⟨b, bs, hb, _⟩ := utf8EncodeChar_eq_cons c
      -- It is the last byte of the character that decides.
      obtain ⟨front, last, hlast⟩ := (List.eq_nil_or_concat' (b :: bs)).resolve_left (by simp)
      have hmem : last ∈ String.utf8EncodeChar c := by simp [hb, hlast]
      rw [hb, hlast, List.foldl_append, List.foldl_cons, List.foldl_nil, continuedBy, if_neg,
        beq_eq_false_iff_ne]
      · rintro rfl
        exact hslash (eq_of_mem_ascii hmem (by decide))
      · exact fun hblank => hc (isSpace_of_isBlankByte hmem hblank)

theorem isLineBlank_of_mem_encodeChars {cs : List Char} (h : ∀ c ∈ cs, isSpace c ∧ c ≠ '\n') :
    ∀ b ∈ encodeChars cs, isLineBlank b := by
  intro b hb
  obtain ⟨c, hc, hb⟩ := List.mem_flatMap.1 hb
  obtain ⟨x, hx, _, hline⟩ := utf8EncodeChar_of_isSpace (h c hc).1
  rw [hx] at hb
  rw [List.mem_singleton.1 hb]
  exact hline (h c hc).2

theorem lexemesFrom_directive (d : DirectiveLine) {rest : List UInt8}
    (hr : ∀ b ∈ rest.head?, b = newline) :
    lexemesFrom true (encodeChars d.text ++ rest) =
      .directive (encodeChars d.text) :: lexemesFrom false rest := by
  have htext : encodeChars d.text = encodeChars d.indent ++ hash :: encodeChars d.content := by
    rw [DirectiveLine.text, encodeChars_append]
    rfl
  have hblanks : splitBlanks (encodeChars d.text ++ rest) =
      (encodeChars d.indent, hash :: (encodeChars d.content ++ rest)) := by
    have hi := isLineBlank_of_mem_encodeChars d.isIndent
    rw [htext, List.append_assoc, splitBlanks, List.takeWhile_append_of_pos hi,
      List.dropWhile_append_of_pos hi]
    simp [show isLineBlank hash = false by decide]
  have hnl : newline ∉ hash :: encodeChars d.content := by
    refine List.not_mem_cons_of_ne_of_not_mem (by decide) fun hm => ?_
    exact (d.onLine _ (mem_of_mem_encodeChars hm (by decide))).1 rfl
  have hline : splitDirective false ((hash :: encodeChars d.content) ++ rest) =
      (hash :: encodeChars d.content, rest) :=
    splitDirective_line hnl hr (not_continued d.notContinued)
  rw [lexemesFrom.eq_def, if_pos rfl]
  simp only [hblanks]
  rw [List.head?_cons, if_pos rfl, ← List.cons_append, hline, ← htext]

/-! ### Items -/

/-- What stands in front of the opening brace of a definition. -/
def DefinitionItem.heading (d : DefinitionItem) : List Char :=
  d.lead ++ (d.keyword.text ++ d.middle)

/-- What stands in front of the opening brace of a function. -/
def FunctionItem.heading (f : FunctionItem) : List Char :=
  f.head ++ ')' :: f.gap.1

/-- The lexemes of a body in braces between code. -/
def bracedLexemes (front : List Char) (b : Body) (back : List Char) : List Lexeme :=
  codeLexemes (front ++ ['{']) ++ (b.lexemes ++ codeLexemes ('}' :: back))

def Item.lexemes : Item → List Lexeme
  | .directive d => [.directive (encodeChars d.text)]
  | .definition d => bracedLexemes d.heading d.body (d.declarators ++ [';'])
  | .prototype p => codeLexemes p.text
  | .function f => bracedLexemes f.heading f.body []
  | .comment c => [c.lexeme]
  | .blank g => codeLexemes g.1

theorem isInert_of_mem_heading (d : DefinitionItem) : ∀ c ∈ d.heading, isInert c := by
  have hlead : ∀ c ∈ d.lead, isInert c := by
    rw [DefinitionItem.lead]
    split
    next gap _ =>
      intro c hc
      rcases List.mem_append.1 hc with hc | hc
      · exact List.all_eq_true.1 (show "typedef".toList.all isInert = true by decide) c hc
      · exact isInert_of_isSpace (gap.2.1 c hc)
    next => simp
  have hkeyword : ∀ c ∈ d.keyword.text, isInert c := by
    cases d.keyword <;> exact List.all_eq_true.1 (by decide)
  have hgap : ∀ c ∈ d.gap.1, isInert c := fun c hc => isInert_of_isSpace (d.gap.2 c hc)
  have htag : ∀ {c}, isTagChar c → isInert c := by
    intro c hc
    simp only [isInert, Bool.and_eq_true, bne_iff_ne]
    refine ⟨⟨⟨?_, ?_⟩, ?_⟩, ?_⟩ <;> rintro rfl <;> exact absurd hc (by decide)
  have hmiddle : ∀ c ∈ d.middle, isInert c := by
    rw [DefinitionItem.middle]
    split
    next gap tag _ =>
      intro c hc
      rcases List.mem_append.1 hc with hc | hc
      · exact isInert_of_isSpace (gap.2.1 c hc)
      · rcases List.mem_append.1 hc with hc | hc
        · exact htag (tag.2.2 c hc)
        · exact hgap c hc
    next => exact hgap
  intro c hc
  rcases List.mem_append.1 hc with hc | hc
  · exact hlead c hc
  · rcases List.mem_append.1 hc with hc | hc
    · exact hkeyword c hc
    · exact hmiddle c hc

theorem isInert_of_mem_functionHeading (f : FunctionItem) : ∀ c ∈ f.heading, isInert c := by
  intro c hc
  rcases List.mem_append.1 hc with hc | hc
  · exact isInert_of_isFlat (f.isFlat c hc)
  · rcases List.mem_cons.1 hc with rfl | hc
    · decide
    · exact isInert_of_isSpace (f.gap.2 c hc)

theorem noDirective_code {cs : List Char} (h : ∀ c ∈ cs, isInert c) {rest : List UInt8}
    (hr : NoDirective rest) : NoDirective (encodeChars cs ++ rest) :=
  noDirective_append (hash_notMem_encodeChars h) hr

/-- A body in braces between code, on lines of its own. -/
theorem lexemesFrom_braced {front back : List Char} (hf : ∀ c ∈ front, isInert c)
    (hb : ∀ c ∈ back, isInert c) (b : Body) {rest : List UInt8} (hr : NoDirective rest) :
    lexemesFrom true (encodeChars (front ++ '{' :: b.text ++ '}' :: back) ++ rest) =
      bracedLexemes front b back ++ lexemesFrom false rest := by
  have hclose : ∀ c ∈ '}' :: back, isInert c := List.forall_mem_cons.2 ⟨by decide, hb⟩
  have hopen : ∀ c ∈ front ++ ['{'], isInert c := by
    simp only [List.forall_mem_append]
    exact ⟨hf, List.all_eq_true.1 rfl⟩
  have hback := noDirective_code hclose hr
  have hbody := noDirective_body b hback
  have htext : encodeChars (front ++ '{' :: b.text ++ '}' :: back) ++ rest =
      encodeChars (front ++ ['{']) ++
        (encodeChars b.text ++ (encodeChars ('}' :: back) ++ rest)) := by
    simp
  rw [htext, lexemesFrom_true (noDirective_code hopen hbody), lexemesFrom_codeChars hopen hbody,
    lexemesFrom_body b hback, lexemesFrom_codeChars hclose hr]
  simp [bracedLexemes]

/-- The lexemes of an item on lines of its own. -/
theorem lexemesFrom_item (i : Item) {rest : List UInt8} (hr : ∀ b ∈ rest.head?, b = newline) :
    lexemesFrom true (encodeChars i.text ++ rest) = i.lexemes ++ lexemesFrom false rest := by
  have hno := noDirective_of_newline hr
  have hcode : ∀ cs : List Char, (∀ c ∈ cs, isInert c) →
      lexemesFrom true (encodeChars cs ++ rest) = codeLexemes cs ++ lexemesFrom false rest :=
    fun cs h => by rw [lexemesFrom_true (noDirective_code h hno), lexemesFrom_codeChars h hno]
  cases i with
  | directive d => exact lexemesFrom_directive d hr
  | definition d =>
    have hback : ∀ c ∈ d.declarators ++ [';'], isInert c := by
      simp only [List.forall_mem_append]
      exact ⟨fun c hc => isInert_of_isFlat (d.areFlat c hc), List.all_eq_true.1 rfl⟩
    have := lexemesFrom_braced (isInert_of_mem_heading d) hback d.body hno
    simpa [Item.text, DefinitionItem.text, DefinitionItem.heading, Item.lexemes] using this
  | prototype p =>
    have hp : ∀ c ∈ p.text, isInert c := by
      simp only [PrototypeItem.text, List.forall_mem_append]
      exact ⟨fun c hc => isInert_of_isFlat (p.isFlat c hc), List.all_eq_true.1 rfl⟩
    exact hcode _ hp
  | function f =>
    have hback : ∀ c ∈ ([] : List Char), isInert c := by simp
    have := lexemesFrom_braced (isInert_of_mem_functionHeading f) hback f.body hno
    simpa [Item.text, FunctionItem.text, FunctionItem.heading, Item.lexemes] using this
  | comment c =>
    have hslash : NoDirective (encodeChars c.text ++ rest) := by
      cases c <;> exact noDirective_of_not_blank (b := slash) (by decide) (by decide) _
    rw [Item.text, lexemesFrom_true hslash]
    cases c with
    | line t h => exact lexemesFrom_line h hr
    | block t h => exact lexemesFrom_block h rest
  | blank g => exact hcode _ fun c hc => isInert_of_isSpace (g.2 c hc)

/-! ### Headers -/

/-- The lexemes of a header: those of its items, with newlines between them. -/
def lexemes (items : List Item) : List Lexeme :=
  [Lexeme.newline].intercalate (items.map Item.lexemes)

theorem lexemesFrom_items (items : List Item) :
    lexemesFrom true (encodeChars (['\n'].intercalate (items.map Item.text))) = lexemes items := by
  induction items with
  | nil =>
    rw [lexemesFrom_true (noDirective_of_newline (by simp))]
    exact lexemesFrom_nil
  | cons i is ih =>
    cases is with
    | nil =>
      have := @lexemesFrom_item i [] (by simp)
      rw [List.append_nil, lexemesFrom_nil, List.append_nil] at this
      simpa [lexemes] using this
    | cons j is =>
      have htext : encodeChars (['\n'].intercalate ((i :: j :: is).map Item.text)) =
          encodeChars i.text ++ newline ::
            encodeChars (['\n'].intercalate ((j :: is).map Item.text)) := by
        rw [List.map_cons, List.map_cons, List.intercalate_cons_cons, encodeChars_append,
          encodeChars_append, List.append_assoc]
        rfl
      rw [htext, lexemesFrom_item i (by simp), lexemesFrom_newline, ih]
      simp [lexemes, List.intercalate_cons_cons]

/-- The lexemes of a header are those of its items. -/
theorem lexemes_text (items : List Item) :
    Source.lexemes (encode (text items)) = lexemes items := by
  rw [text, encode_ofList]
  exact lexemesFrom_items items

end TestBench.Source.Header
