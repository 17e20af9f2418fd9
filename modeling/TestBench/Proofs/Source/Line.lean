import Mathlib.Data.List.DropRight
import TestBench.Proofs.Source.Seam

/-!
# Declarations on lines of their own

The text of a declaration may stand on a line of its own (`IsLine`), so that several of them make
up a text from which the same is extracted as from each one alone (`fragments_intercalate`). From
the text of a definition or of a prototype alone, it is extracted first, and then the directives
that are in it (`Whole.isUnit`); from the text of a directive, nothing but the directive
(`isUnit_directive`).
-/

namespace TestBench.Source

open Utf8

/-- What is extracted from a text, without the places. -/
def fragments (t : String) : List (DeclarationKind × String) :=
  (extract t).declarations.map fun d => (d.kind, d.text)

/-! ### Lines -/

/-- Whether a text may stand on a line of its own: a newline behind it is code, and it leaves no
    statement begun. -/
structure IsLine (t : String) : Prop where
  lexemes_newline : lexemes (encode (t ++ "\n")) = lexemes (encode t) ++ [.newline]
  run : ∃ es s, Run (.startingAt 0) (cells (encode t)) [] es s ∧ s.IsBlank

theorem IsLine.cells_newline {t : String} (h : IsLine t) :
    cells (encode (t ++ "\n")) = cells (encode t) ++ [.plain newline] := by
  rw [cells, h.lexemes_newline, List.flatMap_append]
  rfl

theorem run_newline (s : Statement) : Run s [.plain newline] [] [] (s.append [.plain newline]) :=
  run_blanks (by decide) s []

/-- With its newline, a line is closed. -/
theorem IsLine.isClosed {t : String} (h : IsLine t) : IsClosed (t ++ "\n") := by
  obtain ⟨es, s, hrun, hblank⟩ := h.run
  have hrun := (hrun.extend rfl hblank [.plain newline]).append (run_newline s)
  refine .inr ⟨by rw [h.lexemes_newline, List.getLast?_append]; rfl, _, _,
    h.cells_newline ▸ hrun, fun c hc => ?_⟩
  rcases List.mem_append.1 hc with hc | hc
  · rw [List.mem_singleton.1 hc]
    decide
  · exact hblank c hc

theorem IsLine.declarations_newline {t : String} (h : IsLine t) :
    (extract (t ++ "\n")).declarations = (extract t).declarations := by
  obtain ⟨es, s, hrun, hblank⟩ := h.run
  refine declarations_eq (inOrder_declarations t) ?_
  have hend : (read [.plain newline]).found = [] :=
    (readFrom_of_run (run_newline (.startingAt 0)) .done 0).1
  rw [h.lexemes_newline, directivesFrom_append, h.cells_newline,
    found_append_of_run hrun hblank, hend]
  simpa [directivesFrom] using declarations_perm_found t

/-- Behind a line, the same is extracted from a text as from the text alone. -/
theorem IsLine.fragments_append {t : String} (h : IsLine t) (u : String) :
    fragments (t ++ "\n" ++ u) = fragments t ++ fragments u := by
  rw [fragments, h.isClosed.declarations_append, h.declarations_newline, List.map_append,
    List.map_map]
  rfl

/-- From lines together, the same is extracted as from each one. The last one need not be a line. -/
theorem fragments_intercalate {ts : List String} (h : ∀ t ∈ ts.dropLast, IsLine t) :
    fragments ("\n".intercalate ts) = ts.flatMap fragments := by
  induction ts with
  | nil =>
    rw [String.intercalate_nil, fragments, extract_of_no_bytes]
    simp [Extraction.declarations, Extraction.empty, sortByOrder]
  | cons t ts ih =>
    cases ts with
    | nil => rw [String.intercalate_singleton, List.flatMap_singleton]
    | cons u ts =>
      rw [List.dropLast_cons_cons, List.forall_mem_cons] at h
      rw [String.intercalate_cons_cons, h.1.fragments_append, ih h.2]
      rfl

/-! ### Directives alone -/

/-- Whether a text is what is extracted from it first, all else being directives that are extracted
    from their own texts. -/
def IsUnit (t : String) : Prop :=
  ∃ (k : DeclarationKind) (ds : List String), fragments t = (k, t) :: ds.map (.directive, ·) ∧
    ∀ d ∈ ds, fragments d = [(.directive, d)]

/-- Nothing is cut off a second time. -/
theorem directiveText_encode (ds : List UInt8) :
    directiveText (encode (directiveText ds)) = directiveText ds := by
  simp only [directiveText, lossy_encode, String.toList_ofList, Text.dropTail, List.reverse_reverse,
    List.dropWhile_idempotent]

/-- Alone, a directive is one still. -/
theorem lexemes_directiveText {lineStart : Bool} {bs ds : List UInt8} {ls ls' : List Lexeme}
    (h : lexemesFrom lineStart bs = ls ++ .directive ds :: ls') (ht : IsText ds) :
    lexemes (encode (directiveText ds)) = [.directive (encode (directiveText ds))] ∧
      (ls' ≠ [] → lexemes (encode (directiveText ds ++ "\n")) =
        [.directive (encode (directiveText ds)), .newline]) := by
  obtain ⟨lineStart, h⟩ := exists_lexemesFrom_suffix h
  obtain ⟨-, rest, -, hrest, hnewline, hreplace⟩ := lexemesFrom_directive h
  obtain ⟨q, -, hblank, hq⟩ := encode_directiveText ht
  constructor
  · have := hreplace _ q [] hq hblank (by simp)
    rwa [List.append_nil, lexemesFrom_nil] at this
  · intro hne
    cases rest with
    | nil => exact absurd (hrest.symm.trans lexemesFrom_nil) hne
    | cons b rest =>
      obtain rfl := hnewline b rfl
      have := hreplace _ q [newline] hq hblank fun b hb => hb
      rw [lexemesFrom_newline, show lexemesFrom true [] = [] from lexemes_nil] at this
      rwa [encode_append]

theorem run_directive {d : String} (h : lexemes (encode d) = [.directive (encode d)]) :
    Run (.startingAt 0) (cells (encode d)) [] []
        ((Statement.startingAt 0).append (cells (encode d))) ∧
      ∀ c ∈ cells (encode d), c.isBlank := by
  have hblank : ∀ c ∈ cells (encode d), c.isBlank := by
    rw [cells, h, List.flatMap_singleton]
    intro c hc
    obtain ⟨b, -, rfl⟩ := List.mem_map.1 hc
    exact isBlank_blanked b
  exact ⟨run_blanks hblank _ [], hblank⟩

/-- From the text of a directive, nothing but the directive is extracted. -/
theorem fragments_directiveText {lineStart : Bool} {bs ds : List UInt8} {ls ls' : List Lexeme}
    (h : lexemesFrom lineStart bs = ls ++ .directive ds :: ls') (ht : IsText ds) :
    fragments (directiveText ds) = [(.directive, directiveText ds)] := by
  have hlexemes := (lexemes_directiveText h ht).1
  have hfound := (readFrom_of_run (run_directive hlexemes).1 .done 0).1
  rw [List.append_nil] at hfound
  have hds : (extract (directiveText ds)).declarations = [⟨.directive, directiveText ds, 0⟩] := by
    refine declarations_eq (List.pairwise_singleton _ _) ?_
    have hone : ∀ bs, directivesFrom 0 [.directive bs] = [⟨.directive, directiveText bs, 0⟩] :=
      fun _ => rfl
    rw [read, hfound, hlexemes, hone, directiveText_encode]
    exact .refl _
  rw [fragments, hds]
  rfl

/-- The text of a directive is a line, unless the directive came last. -/
theorem isLine_directiveText {lineStart : Bool} {bs ds : List UInt8} {ls ls' : List Lexeme}
    (h : lexemesFrom lineStart bs = ls ++ .directive ds :: ls') (ht : IsText ds) (hne : ls' ≠ []) :
    IsLine (directiveText ds) := by
  obtain ⟨halone, hline⟩ := lexemes_directiveText h ht
  obtain ⟨hrun, hblank⟩ := run_directive halone
  refine ⟨by rw [hline hne, halone]; rfl, _, _, hrun, fun c hc => hblank c ?_⟩
  simpa [Statement.append, Statement.startingAt] using hc

/-! ### Definitions and prototypes alone -/

/-- Lexemes that code starts and ends: they are those of their bytes, whatever follows. -/
structure StandsAlone (ls : List Lexeme) : Prop where
  first : ∃ b ls', ls = .code b :: ls'
  last : ∃ b ls', ls = ls' ++ [.code b]
  lexemes_append : ∀ r, lexemes (ls.flatMap Lexeme.bytes ++ r) = ls ++ lexemesFrom false r

theorem StandsAlone.lexemes_bytes {ls : List Lexeme} (h : StandsAlone ls) :
    lexemes (ls.flatMap Lexeme.bytes) = ls := by
  have := h.lexemes_append []
  rwa [List.append_nil, lexemesFrom_nil, List.append_nil] at this

/-- Code that is not blank is a lexeme of its own, or the quote of a literal. -/
theorem eq_code_of_mem_cells {l : Lexeme} {c : Cell} (h : c ∈ l.cells) (hc : c.isBlank = false) :
    l = .code c.code ∧ c = .plain c.code ∨ ∃ body closed, l = .literal c.code body closed := by
  have hblanks : ∀ bs : List UInt8, c ∉ bs.map Cell.blanked := by
    intro bs hm
    obtain ⟨b, -, rfl⟩ := List.mem_map.1 hm
    rw [isBlank_blanked b] at hc
    exact absurd hc (by decide)
  cases l with
  | newline =>
    obtain rfl := List.mem_singleton.1 h
    exact absurd hc (by decide)
  | code b =>
    obtain rfl := List.mem_singleton.1 h
    exact .inl ⟨rfl, rfl⟩
  | literal q body closed =>
    obtain rfl : c = .plain q := by
      rcases List.mem_append.1 h with h | h
      · rcases List.mem_cons.1 h with h | h
        · exact h
        · exact absurd h (hblanks body)
      · cases closed
        · exact absurd h List.not_mem_nil
        · exact List.mem_singleton.1 h
    exact .inr ⟨body, closed, rfl⟩
  | _ => exact absurd h (hblanks _)

/-- Where there is such code, the lexemes may be parted. -/
theorem exists_code_lexeme {ls : List Lexeme} {front back : List Cell} {c : Cell}
    (hls : ∀ q body closed, .literal q body closed ∈ ls → q = doubleQuote ∨ q = singleQuote)
    (h : ls.flatMap Lexeme.cells = front ++ c :: back) (hc : c.isBlank = false)
    (hi : IsInert c.code) : c = .plain c.code ∧ ∃ ls₁ ls₂, ls = ls₁ ++ .code c.code :: ls₂ ∧
      ls₁.flatMap Lexeme.cells = front ∧ ls₂.flatMap Lexeme.cells = back := by
  induction ls generalizing front with
  | nil => simp at h
  | cons l ls ih =>
    rw [List.flatMap_cons] at h
    have hlater : ∀ m, ls.flatMap Lexeme.cells = m ++ c :: back → l.cells ++ m = front →
        c = .plain c.code ∧ ∃ ls₁ ls₂, l :: ls = ls₁ ++ .code c.code :: ls₂ ∧
          ls₁.flatMap Lexeme.cells = front ∧ ls₂.flatMap Lexeme.cells = back := by
      rintro m hm rfl
      obtain ⟨hplain, ls₁, ls₂, rfl, rfl, rfl⟩ :=
        ih (fun q body closed h => hls q body closed (List.mem_cons_of_mem _ h)) hm
      exact ⟨hplain, l :: ls₁, ls₂, rfl, rfl, rfl⟩
    -- The cell is behind this lexeme, or in it.
    rcases List.append_eq_append_iff.1 h with ⟨m, hm, hrest⟩ | ⟨m, hm, hrest⟩
    · exact hlater m hrest hm.symm
    cases m with
    | nil => exact hlater [] hrest.symm (by rw [List.append_nil, hm, List.append_nil])
    | cons x m =>
      obtain ⟨rfl, rfl⟩ := List.cons.inj hrest
      have hmem : c ∈ l.cells := by simp [hm]
      rcases eq_code_of_mem_cells hmem hc with ⟨rfl, hx⟩ | ⟨body, closed, rfl⟩
      · have hlen := congrArg List.length hm
        simp only [Lexeme.cells, List.length_append, List.length_cons, List.length_nil] at hlen
        obtain rfl : front = [] := List.length_eq_zero_iff.1 (by omega)
        obtain rfl : m = [] := List.length_eq_zero_iff.1 (by omega)
        exact ⟨hx, [], ls, rfl, rfl, rfl⟩
      · rcases hls _ _ _ List.mem_cons_self with h | h
        · exact absurd h hi.2.1
        · exact absurd h hi.2.2.1

theorem isInert_of_word {b : UInt8} (h : isWordByte b) : IsInert b := by
  refine ⟨?_, ?_, ?_, ?_⟩ <;> rintro rfl <;> exact absurd h (by decide)

theorem noDirective_of_word {c : Cell} (h : isWordByte c.code) (bs : List UInt8) :
    NoDirective (c.code :: bs) := by
  refine noDirective_of_not_blank (isInert_of_word h).2.2.2 ?_ bs
  rw [isLineBlank, show Text.isBlankByte c.code = false from isBlank_of_word h, Bool.false_and]

/-- A whole fragment starts with a word and ends with another cell, its semicolon. -/
theorem Whole.exists_ends {k : DeclarationKind} {cs : List Cell} (h : Whole k cs) :
    ∃ c mid last, cs = c :: (mid ++ [last]) ∧ isWordByte c.code ∧ last.code = semicolon := by
  obtain ⟨c, hc, hword⟩ := h.startsWord
  obtain ⟨front, last, rfl, hlast⟩ := h.exists_last
  cases front with
  | nil =>
    obtain rfl := Option.some.inj hc
    rw [hlast] at hword
    exact absurd hword (by decide)
  | cons x mid =>
    obtain rfl := Option.some.inj hc
    exact ⟨x, mid, last, rfl, hword, hlast⟩

/-- The lexemes of a whole fragment stand alone, and those behind it are cut from their own
    bytes. -/
theorem Whole.exists_lexemes {k : DeclarationKind} {lineStart : Bool} {bs : List UInt8}
    {ls : List Lexeme} {gap mid after : List Cell} (hw : Whole k mid)
    (hls : lexemesFrom lineStart bs = ls) (h : ls.flatMap Lexeme.cells = gap ++ (mid ++ after)) :
    ∃ lg lm la, ls = lg ++ (lm ++ la) ∧ lg.flatMap Lexeme.cells = gap ∧
      lm.flatMap Lexeme.cells = mid ∧ la.flatMap Lexeme.cells = after ∧ StandsAlone lm ∧
        lexemesFrom false (la.flatMap Lexeme.bytes) = la := by
  have hquote : ∀ q body closed, .literal q body closed ∈ ls → q = doubleQuote ∨ q = singleQuote :=
    fun q body closed h => quote_of_mem_lexemesFrom (hls ▸ h)
  obtain ⟨c, m, last, rfl, hword, hlast⟩ := hw.exists_ends
  have hblank := isBlank_of_word hword
  have hinert := isInert_of_word hword
  simp only [List.append_assoc, List.cons_append, List.nil_append] at h
  -- The first cell and the last one are lexemes of their own, so that the others may be parted.
  obtain ⟨hplain, lg, l₂, rfl, hlg, hl₂⟩ := exists_code_lexeme hquote h hblank hinert
  obtain ⟨hplain', lm, la, rfl, hlm, hla⟩ := exists_code_lexeme
    (fun q body closed h => hquote q body closed (by simp [h])) hl₂
    (by rw [Cell.isBlank, hlast]; decide) (by rw [hlast]; unfold IsInert; decide)
  obtain ⟨lineStart', hsuffix⟩ := exists_lexemesFrom_suffix hls
  obtain ⟨hfalse, -⟩ := lexemesFrom_of_ne_directive hsuffix (by simp)
  have hend : (Lexeme.code last.code).IsEnd := by
    rw [hlast, Lexeme.IsEnd]
    decide
  rw [← List.cons_append] at hfalse
  -- No literal or comment goes on behind a semicolon.
  have hreplace := lexemesFrom_replace hfalse hend
  refine ⟨lg, .code c.code :: lm ++ [.code last.code], la, by simp, hlg, ?_, hla,
    ⟨⟨_, _, rfl⟩, ⟨_, _, rfl⟩, fun r => ?_⟩, ?_⟩
  · rw [List.flatMap_append, List.flatMap_cons, hlm, List.flatMap_singleton, Lexeme.cells,
      Lexeme.cells, ← hplain, ← hplain']
    rfl
  · refine (lexemesFrom_true (noDirective_of_word hword _)).trans ?_
    exact (hreplace r).trans (List.append_cons _ _ _)
  · have := hreplace (la.flatMap Lexeme.bytes)
    rw [← List.flatMap_append, ← List.append_cons] at this
    exact (List.cons.inj (List.append_cancel_left (this.symm.trans hfalse))).2

/-- No character spans an end of a whole fragment among lexemes. -/
theorem Whole.isText_lexemes {k : DeclarationKind} {lg lm la : List Lexeme}
    (hw : Whole k (lm.flatMap Lexeme.cells))
    (ht : IsText ((lg ++ (lm ++ la)).flatMap Lexeme.bytes)) :
    IsText (lm.flatMap Lexeme.bytes) ∧ IsText (la.flatMap Lexeme.bytes) := by
  have hsound : ∀ c ∈ lm.flatMap Lexeme.cells, c.IsSound := by
    intro c hc
    obtain ⟨l, -, hc⟩ := List.mem_flatMap.1 hc
    exact isSound_of_mem_cells_lexeme c hc
  rw [List.flatMap_append, ← raw_flatMap_cells (lm ++ la), List.flatMap_append] at ht
  obtain ⟨-, htm, hta⟩ := hw.isText hsound ht
  rw [raw_flatMap_cells] at htm hta
  exact ⟨htm, hta⟩

section Alone

variable {k : DeclarationKind} {ls : List Lexeme} (hw : Whole k (ls.flatMap Lexeme.cells))
  (h : StandsAlone ls) (ht : IsText (ls.flatMap Lexeme.bytes))

include ht in
theorem encode_rawText : encode (rawText (ls.flatMap Lexeme.cells)) = ls.flatMap Lexeme.bytes := by
  rw [rawText, raw_flatMap_cells, encode_lossy ht]

include h ht in
theorem StandsAlone.lexemes_rawText :
    lexemes (encode (rawText (ls.flatMap Lexeme.cells))) = ls := by
  rw [encode_rawText ht, h.lexemes_bytes]

include hw in
theorem Whole.run_alone : Run (.startingAt 0) (ls.flatMap Lexeme.cells) []
    [⟨k, ls.flatMap Lexeme.cells, 0⟩] (.startingAt (0 + (ls.flatMap Lexeme.cells).length)) :=
  hw.run (Statement.isFresh_startingAt 0) []

include hw h ht in
/-- The text of a definition or of a prototype is a line. -/
theorem Whole.isLine : IsLine (rawText (ls.flatMap Lexeme.cells)) := by
  constructor
  · have hnewline := h.lexemes_append [newline]
    rw [lexemesFrom_newline, show lexemesFrom true [] = [] from lexemes_nil] at hnewline
    rw [encode_append, h.lexemes_rawText ht, encode_rawText ht]
    exact hnewline
  · rw [cells, h.lexemes_rawText ht]
    exact ⟨_, _, hw.run_alone, fun c hc => absurd hc List.not_mem_nil⟩

include hw h ht in
/-- From the text of a definition or of a prototype, this is extracted and then the directives that
    are in it. -/
theorem Whole.declarations_eq : (extract (rawText (ls.flatMap Lexeme.cells))).declarations =
    ⟨k, rawText (ls.flatMap Lexeme.cells), 0⟩ :: directivesFrom 0 ls := by
  have hlexemes := h.lexemes_rawText ht
  have hfound := (readFrom_of_run hw.run_alone .done 0).1
  rw [List.append_nil] at hfound
  refine Source.declarations_eq (List.pairwise_cons.2 ⟨fun d hd => ?_, ?_⟩) ?_
  · -- It starts with code, and no directive does.
    obtain ⟨b, ls', hls⟩ := h.first
    rw [hls] at hd
    exact le_order_of_mem_directivesFrom (n := 0 + 1) hd
  · have := (follow_directives (rawText (ls.flatMap Lexeme.cells))).inOrder
    rwa [show (extract _).directives = directivesFrom 0 (lexemes _) from rfl, hlexemes] at this
  · rw [cells, hlexemes, read, hfound]
    exact (List.perm_append_singleton _ _).symm

include hw h ht in
theorem Whole.isUnit : IsUnit (rawText (ls.flatMap Lexeme.cells)) := by
  refine ⟨k, (directivesFrom 0 ls).map Declaration.text, ?_, ?_⟩
  · rw [fragments, hw.declarations_eq h ht, List.map_cons, List.map_map]
    refine congrArg _ (List.map_congr_left fun d hd => ?_)
    exact Prod.ext (kind_of_directive hd) rfl
  · intro u hd
    obtain ⟨d, hmem, rfl⟩ := List.mem_map.1 hd
    obtain ⟨ls₁, ds, ls₂, hls, rfl⟩ := mem_directivesFrom.1 hmem
    have hbytes := h.lexemes_bytes
    rw [hls] at hbytes ht
    exact fragments_directiveText hbytes
      (isText_of_directive (hbytes ▸ allFit_lexemesFrom true _) ht).2.1

end Alone

end TestBench.Source
