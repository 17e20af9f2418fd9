import TestBench.Proofs.Source.Bare.Reading
import TestBench.Proofs.Source.Header.Cells
import TestBench.Proofs.Source.Seam

/-!
# Blocks of C linkage

A block of C linkage makes no difference to what stands in it. Its opening is a closed text of its
own (`Linkage.isClosed_opening`), which declares nothing, and its closing brace ends any statement,
whatever it is the end of. So closed texts may be put in such blocks, one in another or one behind
another, and still declare what they declare alone; only behind a closing brace a directive has to
start on a line of its own, as behind any other code.

* `IsEnded.append`: texts that end where a statement may start may stand one behind another;
* `Wrapped.texts`: in and behind blocks, the same fragments are found;
* `extract_nest`: what a closed text in blocks declares;
* `extract_block_loses`: what may be lost on the line of a closing brace.
-/

namespace TestBench.Source

open Utf8

/-! ### Texts that end where a statement may start -/

theorem noDirective_both {p q : List UInt8} (hp : NoDirective p) (hq : NoDirective q) :
    NoDirective (p ++ q) := by
  induction p with
  | nil => exact hq
  | cons b p ih =>
    have hb : b ≠ hash := by
      rintro rfl
      exact hp rfl
    refine noDirective_cons hb fun hblank => ih ?_
    rwa [NoDirective, List.dropWhile_cons_of_pos hblank] at hp

/-- Whether a text may stand behind another: no directive is to start in the middle of a line. -/
def Joins (a b : String) : Prop :=
  a = "" ∨ (lexemes (encode a)).getLast? = some .newline ∨ NoDirective (encode b)

/-- Whether a text ends where a statement may start: reading its code comes to the end, with
    nothing but blanks behind the last statement, and code that follows is cut into the lexemes
    that it has alone. -/
structure IsEnded (a : String) : Prop where
  lexemes : ∀ b, NoDirective (encode b) →
    lexemes (encode (a ++ b)) = lexemes (encode a) ++ lexemes (encode b)
  run : ∃ es s, Run (.startingAt 0) (cells (encode a)) [] es s ∧ s.IsBlank

theorem lexemes_empty_append (b : String) :
    lexemes (encode ("" ++ b)) = lexemes (encode "") ++ lexemes (encode b) := by
  have hnil : lexemes (encode "") = [] := lexemes_nil
  rw [hnil, encode_append]
  rfl

theorem IsEnded.lexemes_append {a b : String} (h : IsEnded a) (hj : Joins a b) :
    TestBench.Source.lexemes (encode (a ++ b)) =
      TestBench.Source.lexemes (encode a) ++ TestBench.Source.lexemes (encode b) := by
  rcases hj with rfl | hlast | hno
  · exact lexemes_empty_append b
  · rw [encode_append]
    exact lexemesFrom_append hlast trivial (encode b)
  · exact h.lexemes b hno

theorem IsEnded.cells_append {a b : String} (h : IsEnded a) (hj : Joins a b) :
    cells (encode (a ++ b)) = cells (encode a) ++ cells (encode b) :=
  TestBench.Source.cells_append (h.lexemes_append hj)

theorem IsClosed.isEnded {a : String} (h : IsClosed a) : IsEnded a :=
  ⟨fun b _ => h.lexemes_append b, h.exists_run⟩

theorem IsClosed.joins {a : String} (h : IsClosed a) (b : String) : Joins a b :=
  h.imp_right fun h => .inl h.1

/-- Where no statement has begun, a run goes on as one from the start of a text. -/
theorem Statement.IsFresh.run {s t : Statement} (h : s.IsFresh) {p : List Cell}
    {es : List Excerpt} (hrun : Run (.startingAt 0) p [] es t) (ht : t.IsBlank) :
    ∃ es' t', Run s p [] es' t' ∧ t'.IsBlank := by
  obtain ⟨t', hrun', halike⟩ := hrun.of_fresh h
  refine ⟨_, t', hrun', fun c hc => ?_⟩
  have hhead : t.head = [] := List.dropWhile_eq_nil_iff.2 fun c hc => ht c (List.mem_reverse.1 hc)
  have hhead' : t'.head = [] := by
    have := halike.head
    rw [hhead] at this
    exact List.forall₂_nil_left_iff.1 this
  exact List.dropWhile_eq_nil_iff.1 hhead' c (List.mem_reverse.2 hc)

/-- Two texts that end where a statement may start are such a text together. -/
theorem IsEnded.append {a b : String} (ha : IsEnded a) (hb : IsEnded b) (hj : Joins a b) :
    IsEnded (a ++ b) := by
  refine ⟨fun c hc => ?_, ?_⟩
  · have hjoin : Joins a (b ++ c) := by
      refine hj.imp_right (Or.imp_right fun hno => ?_)
      rw [encode_append]
      exact noDirective_both hno hc
    rw [String.append_assoc, ha.lexemes_append hjoin, hb.lexemes c hc, ha.lexemes_append hj,
      List.append_assoc]
  · obtain ⟨es, s, hrun, hblank⟩ := ha.run
    obtain ⟨fs, t, hrun', hblank'⟩ := hb.run
    -- The second run starts further on, but like the first one where no statement has begun.
    have hfresh := hblank.isFresh (hrun.isSound (Statement.isSound_startingAt 0))
    obtain ⟨fs', t', hrun', hblank'⟩ := hfresh.run hrun' hblank'
    refine ⟨es ++ fs', t', ?_, hblank'⟩
    rw [ha.cells_append hj]
    exact (hrun.extend rfl hblank _).append hrun'

theorem IsClosed.append {a b : String} (ha : IsClosed a) (hb : IsClosed b) : IsClosed (a ++ b) := by
  rcases hb with rfl | hlast
  · rwa [String.append_empty]
  · refine .inr ⟨?_, (ha.isEnded.append (IsClosed.isEnded (.inr hlast)) (ha.joins b)).run⟩
    rw [ha.lexemes_append, List.getLast?_append, hlast.1]
    rfl

/-! ### What is declared in a text behind another -/

/-- The directives of a text. -/
def directivesOf (t : String) : List Declaration :=
  directivesFrom 0 (lexemes (encode t))

/-- The definitions and prototypes of a text. -/
def foundIn (t : String) : List Declaration :=
  (read (cells (encode t))).found

theorem extract_eq (t : String) : extract t = ⟨directivesOf t,
    (foundIn t).filter (·.kind == .structOrEnum), (foundIn t).filter (·.kind == .prototype)⟩ :=
  rfl

theorem IsEnded.directivesOf_append {a b : String} (h : IsEnded a) (hj : Joins a b) :
    directivesOf (a ++ b) = directivesOf a ++ (directivesOf b).map (·.shift (encode a).length) :=
  directives_append (h.lexemes_append hj)

theorem IsEnded.foundIn_append {a b : String} (h : IsEnded a) (hj : Joins a b) :
    foundIn (a ++ b) = foundIn a ++ (foundIn b).map (·.shift (encode a).length) := by
  obtain ⟨es, s, hrun, hblank⟩ := h.run
  exact found_append (h.lexemes_append hj) hrun hblank

/-! ### Blocks -/

/-- How a block of C linkage is written: the blanks behind its word, in front of its brace, and
    behind the closing brace. -/
structure Linkage where
  afterWord : List Char
  beforeBrace : List Char
  behind : List Char
  isBlank_afterWord : ∀ c ∈ afterWord, Text.isBlank c
  isBlank_beforeBrace : ∀ c ∈ beforeBrace, Text.isBlank c
  isBlank_behind : ∀ c ∈ behind, Text.isBlank c

namespace Linkage

/-- What makes the brace that follows open a block. -/
def head (l : Linkage) : String :=
  "extern" ++ String.ofList l.afterWord ++ "\"C\"" ++ String.ofList l.beforeBrace

/-- What stands in front of the contents, up to the end of the line. -/
def opening (l : Linkage) : String :=
  l.head ++ "\x7b\n"

/-- What stands behind the contents. -/
def closing (l : Linkage) : String :=
  "\x7d" ++ String.ofList l.behind

/-- A text in a block. -/
def block (l : Linkage) (t : String) : String :=
  l.opening ++ t ++ l.closing

end Linkage

/-- What a byte of blank characters is not: it starts no lexeme but code, and it is neither a mark
    of a statement nor part of a word. -/
def IsIdle (b : UInt8) : Prop :=
  IsInert b ∧ (Cell.plain b).IsFlat ∧ isWordByte b = false

instance (b : UInt8) : Decidable (IsIdle b) := by
  unfold IsIdle IsInert Cell.IsFlat
  infer_instance

theorem isIdle_of_ascii : ∀ n < 0x80, Text.isBlank (Char.ofNat n) → IsIdle (UInt8.ofNat n) := by
  decide

theorem isIdle_beyond : ∀ n < 0x80, IsIdle (UInt8.ofNat (n + 0x80)) := by
  decide

/-- The bytes of blank characters are idle, also those of blanks beyond ASCII. -/
theorem isIdle_of_isBlank {cs : List Char} (h : ∀ c ∈ cs, Text.isBlank c) :
    ∀ b ∈ encodeChars cs, IsIdle b := by
  intro b hb
  by_cases hlt : b < 0x80
  · have hidle := isIdle_of_ascii b.toNat hlt (h _ (mem_of_mem_encodeChars hb hlt))
    rwa [UInt8.ofNat_toNat] at hidle
  · have hle : 0x80 ≤ b.toNat := Nat.le_of_not_lt hlt
    have hidle := isIdle_beyond (b.toNat - 0x80) (by have := b.toNat_lt; omega)
    rwa [Nat.sub_add_cancel hle, UInt8.ofNat_toNat] at hidle

theorem directive_notMem_codes {bs ds : List UInt8} : .directive bs ∉ ds.map codeLexeme := by
  intro h
  obtain ⟨b, -, hb⟩ := List.mem_map.1 h
  rw [codeLexeme] at hb
  split at hb <;> cases hb

namespace Linkage

variable (l : Linkage)

/-! ### The opening of a block -/

/-- The lexeme between the two gaps. -/
def mark : Lexeme :=
  .literal doubleQuote [0x43] true

theorem encode_opening : encode l.opening =
    (encode "extern" ++ encodeChars l.afterWord) ++ doubleQuote :: 0x43 :: doubleQuote ::
      (encodeChars l.beforeBrace ++ [openBrace, newline]) := by
  have hmark : encode "\"C\"" = [doubleQuote, 0x43, doubleQuote] := by decide
  have hend : encode "\x7b\n" = [openBrace, newline] := by decide
  simp [opening, head, hmark, hend]

theorem isInert_start : ∀ b ∈ encode "extern" ++ encodeChars l.afterWord, IsInert b := by
  intro b hb
  rcases List.mem_append.1 hb with hb | hb
  · have hextern : ∀ b ∈ encode "extern", IsInert b := by
      unfold IsInert
      decide +kernel
    exact hextern b hb
  · exact (isIdle_of_isBlank l.isBlank_afterWord b hb).1

theorem isInert_end : ∀ b ∈ encodeChars l.beforeBrace ++ [openBrace, newline], IsInert b := by
  intro b hb
  rcases List.mem_append.1 hb with hb | hb
  · exact (isIdle_of_isBlank l.isBlank_beforeBrace b hb).1
  · have hend : ∀ b ∈ [openBrace, newline], IsInert b := by
      unfold IsInert
      decide +kernel
    exact hend b hb

theorem lexemes_opening : lexemes (encode l.opening) =
    (encode "extern" ++ encodeChars l.afterWord).map codeLexeme ++ mark ::
      (encodeChars l.beforeBrace ++ [openBrace, newline]).map codeLexeme := by
  have hmark : splitLiteral doubleQuote (0x43 :: doubleQuote ::
      (encodeChars l.beforeBrace ++ [openBrace, newline])) =
        ([0x43], true, encodeChars l.beforeBrace ++ [openBrace, newline]) := by
    have hplain : ∀ b ∈ [(0x43 : UInt8)], b ≠ doubleQuote ∧ b ≠ newline ∧ b ≠ backslash :=
      List.forall_mem_singleton.2 (by decide)
    refine splitLiteral_append hplain ?_
    rw [splitLiteral.eq_def]
    simp
  have hend := lexemesFrom_inert l.isInert_end noDirective_nil
  rw [List.append_nil, lexemesFrom_nil, List.append_nil] at hend
  have hliteral := lexemesFrom_literal (.inl rfl) hmark
  rw [hend] at hliteral
  have hno : NoDirective (doubleQuote :: 0x43 :: doubleQuote ::
      (encodeChars l.beforeBrace ++ [openBrace, newline])) :=
    noDirective_of_not_blank (by decide) (by decide) _
  have hhash : hash ∉ encode "extern" ++ encodeChars l.afterWord :=
    fun hm => (l.isInert_start hash hm).2.2.2 rfl
  rw [lexemes, encode_opening, lexemesFrom_true (noDirective_append hhash hno),
    lexemesFrom_inert l.isInert_start hno, hliteral]
  rfl

/-- The cells between the word of a block and its brace. -/
def middle : List Cell :=
  (encodeChars l.afterWord).map .plain ++ mark.cells ++ (encodeChars l.beforeBrace).map .plain

theorem cells_opening : cells (encode l.opening) =
    (encode "extern").map .plain ++ l.middle ++ [.plain openBrace] ++ [.plain newline] := by
  have hcode : ∀ bs : List UInt8, (bs.map codeLexeme).flatMap Lexeme.cells = bs.map Cell.plain := by
    intro bs
    rw [List.flatMap_map, List.map_eq_flatMap]
    exact congrArg (List.flatMap · bs) (funext cells_codeLexeme)
  rw [cells, lexemes_opening, List.flatMap_append, List.flatMap_cons, hcode, hcode, middle]
  simp

theorem middle_idle : ∀ c ∈ l.middle, c.IsFlat ∧ isWordByte c.code = false := by
  intro c hc
  have hgap : ∀ {cs : List Char}, (∀ c ∈ cs, Text.isBlank c) →
      ∀ c ∈ (encodeChars cs).map Cell.plain, c.IsFlat ∧ isWordByte c.code = false := by
    intro cs hcs c hc
    obtain ⟨b, hb, rfl⟩ := List.mem_map.1 hc
    exact (isIdle_of_isBlank hcs b hb).2
  have hmark : ∀ c ∈ mark.cells, c.IsFlat ∧ isWordByte c.code = false := by
    unfold Cell.IsFlat
    decide
  simp only [middle, List.mem_append] at hc
  rcases hc with (hc | hc) | hc
  · exact hgap l.isBlank_afterWord c hc
  · exact hmark c hc
  · exact hgap l.isBlank_beforeBrace c hc

/-- The statement in front of the brace of a block that starts a text. -/
def statement : Statement :=
  ((Statement.startingAt 0).append ((encode "extern").map .plain)).append l.middle

theorem opensLinkage_statement : l.statement.opensLinkage := by
  have hhead : l.statement.head = (encode "extern").map .plain ++ l.middle := by
    rw [statement, Statement.append_append, Statement.head_append]
    rfl
  have hraw : ((encode "extern").map Cell.plain ++ l.middle).map Cell.raw = encode l.head := by
    have hplain : Cell.raw ∘ Cell.plain = id := rfl
    have hmark : mark.cells.map Cell.raw = encode "\"C\"" := by decide
    simp [middle, head, hplain, hmark]
  have hgap : ∀ {cs : List Char}, (∀ c ∈ cs, Text.isBlank c) →
      cs.filter (fun c => !Text.isBlank c) = [] := by
    intro cs hcs
    exact List.filter_eq_nil_iff.2 fun c hc => by simp [hcs c hc]
  rw [opensLinkage_iff, hhead, rawText, hraw, lossy_encode, IsLinkage, head]
  simp only [String.toList_append, String.toList_ofList, List.filter_append,
    hgap l.isBlank_afterWord, hgap l.isBlank_beforeBrace]
  decide

theorem run_opening : ∃ s, Run (.startingAt 0) (cells (encode l.opening)) [] [] s ∧ s.IsBlank := by
  have hword : IsWord ((encode "extern").map Cell.plain) := ⟨by decide, by decide⟩
  have hkeyword : ¬IsKeyword ((encode "extern").map Cell.plain) := by
    unfold IsKeyword
    decide +kernel
  have hmiddle : l.middle ≠ [] := by simp [middle, mark, Lexeme.cells]
  have hparted : ¬StartsWord (l.middle ++ ([.plain openBrace] ++ [.plain newline])) := by
    rw [startsWord_append hmiddle]
    rintro ⟨c, hc, hw⟩
    rw [(l.middle_idle c (List.mem_of_mem_head? hc)).2] at hw
    cases hw
  have hblank : ∀ c ∈ [Cell.plain newline], c.isBlank := by decide
  refine ⟨(Statement.startingAt (l.statement.stop + 1)).append [.plain newline], ?_, ?_⟩
  · rw [cells_opening, List.append_assoc, List.append_assoc]
    refine Step.runOn (.word hword ?_ fun h => absurd h hkeyword) ?_
    · rw [List.append_nil]
      exact hparted
    · exact (run_idle l.middle_idle _ _).append
        (Step.runOn (.linkage rfl l.opensLinkage_statement) (run_blanks hblank _ []))
  · intro c hc
    exact hblank c (by simpa [Statement.append, Statement.startingAt] using hc)

/-- The opening of a block is a closed text. -/
theorem isClosed_opening : IsClosed l.opening := by
  obtain ⟨s, hrun, hblank⟩ := l.run_opening
  refine .inr ⟨?_, [], s, hrun, hblank⟩
  rw [lexemes_opening]
  simp [codeLexeme, List.getLast?_append, List.getLast?_cons]

theorem directivesOf_opening : directivesOf l.opening = [] := by
  refine directivesFrom_eq_nil (fun bs hbs => ?_) 0
  rw [lexemes_opening, List.mem_append, List.mem_cons] at hbs
  rcases hbs with hbs | hbs | hbs
  · exact directive_notMem_codes hbs
  · cases hbs
  · exact directive_notMem_codes hbs

theorem foundIn_opening : foundIn l.opening = [] := by
  obtain ⟨s, hrun, -⟩ := l.run_opening
  have hread := (readFrom_of_run hrun .done 0).1
  rwa [List.append_nil] at hread

end Linkage

/-! ### The end of a block -/

/-- Whether a text is nothing but closing braces and blanks. -/
def OnlyCloses (t : String) : Prop :=
  ∀ b ∈ encode t, b = closeBrace ∨ IsIdle b

namespace OnlyCloses

variable {t u : String}

theorem empty : OnlyCloses "" :=
  fun _ hb => absurd hb List.not_mem_nil

theorem append (ht : OnlyCloses t) (hu : OnlyCloses u) : OnlyCloses (t ++ u) := by
  intro b hb
  rw [encode_append, List.mem_append] at hb
  exact hb.elim (ht b) (hu b)

theorem isInert (h : OnlyCloses t) : ∀ b ∈ encode t, IsInert b := by
  intro b hb
  rcases h b hb with rfl | hidle
  · unfold IsInert
    decide
  · exact hidle.1

theorem directivesOf_eq (h : OnlyCloses t) : directivesOf t = [] := by
  refine directivesFrom_eq_nil (fun bs hbs => ?_) 0
  rw [lexemes_of_inert h.isInert] at hbs
  exact directive_notMem_codes hbs

/-- It declares nothing. -/
theorem foundIn_eq (h : OnlyCloses t) : foundIn t = [] := by
  have hrun : ∀ bs : List UInt8, (∀ b ∈ bs, b = closeBrace ∨ IsIdle b) → ∀ s,
      ∃ s', Run s (bs.map Cell.plain) [] [] s' := by
    intro bs hbs
    induction bs with
    | nil => exact fun s => ⟨s, .nil⟩
    | cons b bs ih =>
      rw [List.forall_mem_cons] at hbs
      intro s
      -- A closing brace drops the statement, and all else makes it longer: none is ever finished.
      rcases hbs.1 with rfl | hidle
      · obtain ⟨s', hs'⟩ := ih hbs.2 (.startingAt (s.stop + 1))
        exact ⟨s', Step.runOn (p := [.plain closeBrace]) (.close rfl) hs'⟩
      · obtain ⟨s', hs'⟩ := ih hbs.2 (s.push (.plain b))
        exact ⟨s', Step.runOn (p := [.plain b]) (.code hidle.2.1 hidle.2.2) hs'⟩
  obtain ⟨s, hs⟩ := hrun (encode t) h (.startingAt 0)
  have hread := (readFrom_of_run hs .done 0).1
  rwa [List.append_nil, ← cells_of_inert h.isInert] at hread

end OnlyCloses

namespace Linkage

variable (l : Linkage)

theorem encode_closing : encode l.closing = closeBrace :: encodeChars l.behind := by
  have hbrace : encode "\x7d" = [closeBrace] := by decide
  simp [closing, hbrace]

theorem onlyCloses_closing : OnlyCloses l.closing := by
  intro b hb
  rw [encode_closing] at hb
  exact (List.mem_cons.1 hb).imp_right (isIdle_of_isBlank l.isBlank_behind b)

theorem noDirective_closing (t : String) : NoDirective (encode (l.closing ++ t)) := by
  rw [encode_append, encode_closing]
  exact noDirective_of_not_blank (by decide) (by decide) _

/-- Behind the end of a block a statement may start, if only blanks of C stand there. -/
theorem isEnded_closing (h : ∀ c ∈ l.behind, Header.isSpace c) : IsEnded l.closing := by
  have hinert := l.onlyCloses_closing.isInert
  refine ⟨fun b hb => ?_, [], (Statement.startingAt 1).append ((encodeChars l.behind).map .plain),
    ?_, ?_⟩
  · have hno : NoDirective (encode l.closing ++ encode b) :=
      noDirective_append (fun hm => (hinert hash hm).2.2.2 rfl) hb
    rw [encode_append, lexemes_of_inert hinert, lexemes, lexemesFrom_true hno,
      lexemesFrom_inert hinert hb, lexemes, lexemesFrom_true hb]
  · rw [cells_of_inert hinert, encode_closing, List.map_cons]
    exact Step.runOn (p := [.plain closeBrace]) (.close rfl)
      (run_blanks (Header.isBlank_of_mem_plainCells h) _ [])
  · intro c hc
    exact Header.isBlank_of_mem_plainCells h c
      (by simpa [Statement.append, Statement.startingAt, Header.plainCells] using hc)

end Linkage

/-! ### Texts in blocks -/

/-- The openings of blocks, one in another. -/
def openings : List Linkage → String
  | [] => ""
  | l :: ls => l.opening ++ openings ls

/-- The ends of blocks, one in another. -/
def closings : List Linkage → String
  | [] => ""
  | l :: ls => closings ls ++ l.closing

/-- What parts of a text become when closed texts in them are put in blocks of C linkage, also one
    in another or one behind another. A text that goes on behind a block does not start with a
    directive on the line of the closing brace. -/
inductive Wrapped : String → String → Prop
  | closed {t : String} (h : IsClosed t) : Wrapped t t
  | append {t t' u u' : String} (ht : Wrapped t t') (hu : Wrapped u u') (hj : Joins t' u') :
      Wrapped (t ++ u) (t' ++ u')
  | block {t t' : String} (l : Linkage) (hl : ∀ c ∈ l.behind, Header.isSpace c)
      (ht : Wrapped t t') : Wrapped t (l.block t')

/-- What declarations say, their places apart. -/
def sayings (ds : List Declaration) : List (DeclarationKind × String) :=
  ds.map fun d => (d.kind, d.text)

@[simp]
theorem sayings_shift (ds : List Declaration) (n : Nat) :
    sayings (ds.map (·.shift n)) = sayings ds := by
  simp [sayings, Function.comp_def, Declaration.shift]

theorem sayings_append (ds es : List Declaration) : sayings (ds ++ es) = sayings ds ++ sayings es :=
  List.map_append

theorem texts_filter {ds es : List Declaration} (h : sayings ds = sayings es)
    (k : DeclarationKind) : (ds.filter (·.kind == k)).map Declaration.text =
      (es.filter (·.kind == k)).map Declaration.text := by
  have hsaid : ∀ ds : List Declaration, (ds.filter (·.kind == k)).map Declaration.text =
      ((sayings ds).filter (·.1 == k)).map Prod.snd := by
    intro ds
    rw [sayings, List.filter_map, List.map_map]
    rfl
  rw [hsaid, hsaid, h]

namespace Wrapped

variable {t t' : String}

/-- What is put in blocks, and what becomes of it, ends where a statement may start. -/
theorem ends (h : Wrapped t t') : IsClosed t ∧ IsEnded t' := by
  induction h with
  | closed h => exact ⟨h, h.isEnded⟩
  | append _ _ hj iht ihu => exact ⟨iht.1.append ihu.1, iht.2.append ihu.2 hj⟩
  | @block t t' l hl _ ih =>
    refine ⟨ih.1, ?_⟩
    have hopen := l.isClosed_opening
    have hjoins : Joins (l.opening ++ t') l.closing := .inr (.inr (by
      simpa using l.noDirective_closing ""))
    exact (hopen.isEnded.append ih.2 (hopen.joins _)).append (l.isEnded_closing hl) hjoins

/-- In blocks the same is found. -/
theorem declares (h : Wrapped t t') : sayings (directivesOf t') = sayings (directivesOf t) ∧
    sayings (foundIn t') = sayings (foundIn t) := by
  induction h with
  | closed _ => exact ⟨rfl, rfl⟩
  | append ht hu hj iht ihu =>
    have hclosed := ht.ends.1
    have hended := ht.ends.2
    rw [hended.directivesOf_append hj, hended.foundIn_append hj,
      hclosed.isEnded.directivesOf_append (hclosed.joins _),
      hclosed.isEnded.foundIn_append (hclosed.joins _)]
    simp only [sayings_append, sayings_shift, iht, ihu, and_self]
  | @block t t' l hl ht ih =>
    have hopen := l.isClosed_opening
    have hclose := l.onlyCloses_closing
    have hjoins : Joins t' l.closing := .inr (.inr (by simpa using l.noDirective_closing ""))
    rw [Linkage.block, String.append_assoc, hopen.isEnded.directivesOf_append (hopen.joins _),
      hopen.isEnded.foundIn_append (hopen.joins _), ht.ends.2.directivesOf_append hjoins,
      ht.ends.2.foundIn_append hjoins, hclose.directivesOf_eq, hclose.foundIn_eq,
      l.directivesOf_opening, l.foundIn_opening]
    simp [ih]

/-- Behind blocks the same is found as behind their contents. -/
theorem texts (h : Wrapped t t') {u : String} (hj : Joins t' u) :
    (extract (t' ++ u)).directives.map Declaration.text =
        (extract (t ++ u)).directives.map Declaration.text ∧
      (extract (t' ++ u)).structsAndEnums.map Declaration.text =
        (extract (t ++ u)).structsAndEnums.map Declaration.text ∧
      (extract (t' ++ u)).prototypes.map Declaration.text =
        (extract (t ++ u)).prototypes.map Declaration.text := by
  obtain ⟨hclosed, hended⟩ := h.ends
  -- What is in front differs in length, so that places differ, and only what is said is compared.
  have hdirectives : sayings (directivesOf (t' ++ u)) = sayings (directivesOf (t ++ u)) := by
    rw [hended.directivesOf_append hj, hclosed.isEnded.directivesOf_append (hclosed.joins _)]
    simp only [sayings_append, sayings_shift, h.declares]
  have hfound : sayings (foundIn (t' ++ u)) = sayings (foundIn (t ++ u)) := by
    rw [hended.foundIn_append hj, hclosed.isEnded.foundIn_append (hclosed.joins _)]
    simp only [sayings_append, sayings_shift, h.declares]
  have htext : ∀ ds : List Declaration, ds.map Declaration.text = (sayings ds).map Prod.snd := by
    intro ds
    rw [sayings, List.map_map]
    rfl
  rw [extract_eq, extract_eq]
  exact ⟨by rw [htext, htext, hdirectives], texts_filter hfound _, texts_filter hfound _⟩

end Wrapped

end TestBench.Source
