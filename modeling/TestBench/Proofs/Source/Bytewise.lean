import Mathlib.Data.List.Induction
import TestBench.Proofs.Source.Extraction
import TestBench.Proofs.Source.Offset.Masking

/-!
# Reading one byte at a time

The lexer goes from cut to cut and looks ahead for each of them. A reader that sees one byte after
the other, and never one twice, finds the same (`Mode.read`). He holds back the blanks at the start
of a line, since a `#` behind them makes them part of a directive, and a slash, since the next byte
may make it part of a comment. What he has read he marks as code or as what is not code.

What he finds from some place on depends only on what he is in the middle of. So it is enough to
show for each kind of cut that he comes out of it where it ends: `marks_directive`,
`marks_lineComment`, `marks_blockComment`, `marks_literal` and `marks_margin`.

* `marks_eq_lexemes`: reader and lexer find the same;
* `isText_shown`: what he shows of a text is a text again, since a character is marked as a whole;
* `codeBytes_directives_bytewise`: the code and the directives of a text are those that he finds.
-/

namespace TestBench.Source

open Utf8

/-! ### The reader -/

/-- What a byte of C text is. -/
inductive Role where
  | code
  | directive
  | comment
  | interior
deriving Repr, DecidableEq

/-- A byte with what it is. -/
abbrev Marked := UInt8 × Role

/-- What a reader of C text is in the middle of. Where a line starts, he remembers the blanks that
    he has seen; in code, whether the last byte was a slash; in a directive, whether the last byte
    of its line that is no blank was a backslash; in a block comment, whether the last byte was a
    star; in a literal, whether the next byte is taken by a backslash. -/
inductive Mode where
  | margin (blanks : List UInt8)
  | code
  | slash
  | directive (continued : Bool)
  | lineComment
  | blockComment (closing : Bool)
  | literal (quote : UInt8) (escaped : Bool)
deriving Repr, DecidableEq

namespace Mode

/-- The bytes that are not yet marked. -/
def held : Mode → List UInt8
  | margin blanks => blanks
  | slash => [Source.slash]
  | code | directive _ | lineComment | blockComment _ | literal _ _ => []

/-- In code, what is marked at one more byte, and what comes behind it. -/
def readCode (b : UInt8) : List Marked × Mode :=
  if b = newline then ([(b, .code)], margin [])
  else if b = Source.slash then ([], slash)
  else if b = doubleQuote ∨ b = singleQuote then ([(b, .code)], literal b false)
  else ([(b, .code)], code)

/-- What is marked at one more byte, and what comes behind it. -/
def read : Mode → UInt8 → List Marked × Mode
  | margin blanks, b =>
    if b = hash then ((blanks ++ [b]).map (·, .directive), directive false)
    else if isLineBlank b then ([], margin (blanks ++ [b]))
    else (blanks.map (·, .code) ++ (readCode b).1, (readCode b).2)
  | code, b => readCode b
  | slash, b =>
    if b = Source.slash then ([(Source.slash, .comment), (b, .comment)], lineComment)
    else if b = star then ([(Source.slash, .comment), (b, .comment)], blockComment false)
    else ((Source.slash, .code) :: (readCode b).1, (readCode b).2)
  | directive continued, b =>
    if b = newline then
      if continued then ([(b, .directive)], directive false) else readCode b
    else ([(b, .directive)], directive (if Text.isBlankByte b then continued else b == backslash))
  | lineComment, b =>
    if b = newline then readCode b else ([(b, .comment)], lineComment)
  | blockComment closing, b =>
    ([(b, .comment)], if closing ∧ b = Source.slash then code else blockComment (b == star))
  | literal q escaped, b =>
    if escaped then ([(b, .interior)], literal q false)
    else if b = q then ([(b, .code)], code)
    else if b = newline then readCode b
    else ([(b, .interior)], literal q (b == backslash))

/-- The marks from some place on. What is held back at the end is code. -/
def marks (m : Mode) : List UInt8 → List Marked
  | [] => m.held.map (·, .code)
  | b :: bs => (m.read b).1 ++ (m.read b).2.marks bs

@[simp] theorem marks_nil (m : Mode) : m.marks [] = m.held.map (·, .code) := rfl

theorem marks_cons (m : Mode) (b : UInt8) (bs : List UInt8) :
    m.marks (b :: bs) = (m.read b).1 ++ (m.read b).2.marks bs := rfl

/-- What is marked at the first bytes does not depend on the others, except for what is held back
    there. -/
theorem marks_append (m : Mode) (bs bs' : List UInt8) : ∃ ms m',
    m.marks (bs ++ bs') = ms ++ marks m' bs' ∧ m.marks bs = ms ++ m'.held.map (·, .code) := by
  induction bs generalizing m with
  | nil => exact ⟨[], m, rfl, rfl⟩
  | cons b bs ih =>
    obtain ⟨ms, m', happend, hself⟩ := ih (m.read b).2
    refine ⟨(m.read b).1 ++ ms, m', ?_, ?_⟩
    · rw [List.cons_append, marks_cons, happend, List.append_assoc]
    · rw [marks_cons, hself, List.append_assoc]

end Mode

/-- The marks of a text, whose first byte starts a line. -/
def marks (t : String) : List Marked :=
  (Mode.margin []).marks (encode t)

/-- What is shown of a marked byte: code as it is, and of all else only the newlines. -/
def shown (m : Marked) : UInt8 :=
  if m.2 = .code ∨ m.1 = newline then m.1 else 0x20

/-- The directives among marked bytes: each stretch of them that is as long as possible, with the
    place of its first byte. No two directives share one, since the newline behind a directive is
    code. -/
def stretches (place : Nat) : List Marked → List (Nat × List UInt8)
  | [] => []
  | (b, role) :: ms =>
    if role = .directive then
      (place, b :: (ms.takeWhile (·.2 = .directive)).map Prod.fst) ::
        stretches (place + 1 + (ms.takeWhile (·.2 = .directive)).length)
          (ms.dropWhile (·.2 = .directive))
    else stretches (place + 1) ms
termination_by ms => ms.length
decreasing_by
  · exact Nat.lt_succ_of_le (List.length_dropWhile_le _ _)
  · exact Nat.lt_succ_self _

/-! ### What is marked at one cut -/

namespace Mode

theorem marks_directive (continued : Bool) (bs : List UInt8) :
    (directive continued).marks bs = (splitDirective continued bs).1.map (·, .directive) ++
      code.marks (splitDirective continued bs).2 := by
  induction bs generalizing continued with
  | nil => rfl
  | cons b bs ih =>
    rw [marks_cons, read, splitDirective]
    by_cases hb : b = newline
    · cases continued
      · simp [hb, marks_cons, read]
      · simp [hb, ih]
    · simp [hb, ih]

theorem marks_lineComment (bs : List UInt8) :
    lineComment.marks bs = (splitLine bs).1.map (·, .comment) ++ code.marks (splitLine bs).2 := by
  induction bs with
  | nil => rfl
  | cons b bs ih =>
    rw [marks_cons, read, splitLine]
    by_cases hb : b = newline
    · simp [hb, marks_cons, read]
    · simpa [hb, splitLine] using ih

theorem marks_blockComment (closing : Bool) {bs : List UInt8}
    (h : closing → bs.head? ≠ some Source.slash) :
    (blockComment closing).marks bs = (splitComment bs).1.map (·, .comment) ++
      code.marks (splitComment bs).2 := by
  fun_induction splitComment bs generalizing closing with
  | case1 => rfl
  | case2 b =>
    rw [marks_cons, read]
    split_ifs <;> rfl
  | case3 b c rest hclose =>
    obtain ⟨rfl, rfl⟩ := hclose
    have hstar : ¬(closing ∧ star = Source.slash) := fun h => absurd h.2 (by decide)
    rw [marks_cons, read, if_neg hstar, marks_cons, read]
    rfl
  | case4 b c rest hclose cut rest' hcut ih =>
    rw [hcut] at ih
    have hb : ¬(closing ∧ b = Source.slash) := by
      rintro ⟨hclosing, rfl⟩
      exact h hclosing rfl
    rw [marks_cons, read, if_neg hb,
      ih _ fun hstar hslash => hclose ⟨beq_iff_eq.1 hstar, Option.some.inj hslash⟩]
    rfl

theorem marks_literal (q : UInt8) (bs : List UInt8) :
    (literal q false).marks bs = (splitLiteral q bs).1.map (·, .interior) ++
      ((if (splitLiteral q bs).2.1 then [(q, .code)] else []) ++
        code.marks (splitLiteral q bs).2.2) := by
  fun_induction splitLiteral q bs with
  | case1 => rfl
  | case2 bs => simp [marks_cons, read]
  | case3 bs hq => simp [marks_cons, read, hq]
  | case4 hq hn => simp [marks_cons, read, held, hq, hn]
  | case5 c bs body closed rest hcut hq hn ih =>
    rw [hcut] at ih
    simp [marks_cons, read, hq, hn, ih]
  | case6 b bs hq hn hb body closed rest hcut ih =>
    rw [hcut] at ih
    simp [marks_cons, read, hq, hn, beq_false_of_ne hb, ih]

/-- Where a line starts, the blanks that are held back go with what follows the blanks of the line:
    a directive or code. -/
theorem marks_margin (blanks bs : List UInt8) :
    (margin blanks).marks bs =
      if (splitBlanks bs).2.head? = some hash then
        (blanks ++ (splitBlanks bs).1 ++ (splitDirective false (splitBlanks bs).2).1).map
          (·, .directive) ++ code.marks (splitDirective false (splitBlanks bs).2).2
      else (blanks ++ (splitBlanks bs).1).map (·, .code) ++ code.marks (splitBlanks bs).2 := by
  induction bs generalizing blanks with
  | nil => simp [splitBlanks, held]
  | cons b bs ih =>
    rw [marks_cons, read]
    by_cases hb : isLineBlank b
    · have hsplit : splitBlanks (b :: bs) = (b :: (splitBlanks bs).1, (splitBlanks bs).2) := by
        simp [splitBlanks, hb]
      have hhash : b ≠ hash := by
        rintro rfl
        exact absurd hb (by decide)
      rw [if_neg hhash, if_pos hb, hsplit, ih]
      simp
    have hsplit : splitBlanks (b :: bs) = ([], b :: bs) := by simp [splitBlanks, hb]
    rw [hsplit, if_neg hb, List.append_nil]
    by_cases hhash : b = hash
    · rw [if_pos hhash, if_pos (by rw [hhash]; rfl), marks_directive]
      simp [splitDirective, hhash, show hash ≠ newline by decide,
        show Text.isBlankByte hash = false by decide, show (hash == backslash) = false by decide]
    · rw [if_neg hhash, if_neg (by simpa using hhash), marks_cons, read, List.append_assoc]

/-- A slash opens a line comment with the next one. -/
theorem marks_slash_slash {bs : List UInt8} (h : bs.head? = some Source.slash) :
    code.marks (Source.slash :: bs) = (Source.slash, .comment) :: lineComment.marks bs := by
  obtain ⟨bs, rfl⟩ := List.head?_eq_some_iff.1 h
  rfl

/-- A slash opens a block comment with a star. -/
theorem marks_slash_star {bs : List UInt8} (h : bs.head? = some star) :
    code.marks (Source.slash :: bs) =
      (Source.slash, .comment) :: (star, .comment) :: (blockComment false).marks bs.tail := by
  obtain ⟨bs, rfl⟩ := List.head?_eq_some_iff.1 h
  rfl

/-- Otherwise it is code. -/
theorem marks_slash {bs : List UInt8} (h : bs.head? ≠ some Source.slash)
    (hstar : bs.head? ≠ some star) :
    code.marks (Source.slash :: bs) = (Source.slash, .code) :: code.marks bs := by
  cases bs with
  | nil => rfl
  | cons b bs =>
    have hb : b ≠ Source.slash := by simpa using h
    have hb' : b ≠ star := by simpa using hstar
    simp [marks_cons, read, readCode, hb, hb', show Source.slash ≠ newline by decide]

theorem marks_quote {q : UInt8} (h : q = doubleQuote ∨ q = singleQuote) (bs : List UInt8) :
    code.marks (q :: bs) = (q, .code) :: (literal q false).marks bs := by
  rcases h with rfl | rfl <;> rfl

end Mode

/-! ### Reader and lexer -/

/-- The bytes of a lexeme with what they are. -/
def Lexeme.marks : Lexeme → List Marked
  | .newline => [(Source.newline, .code)]
  | .code b => [(b, .code)]
  | .directive bs => bs.map (·, .directive)
  | .lineComment bs | .blockComment bs => bs.map (·, .comment)
  | .literal q body closed =>
    (q, .code) :: body.map (·, .interior) ++ if closed then [(q, .code)] else []

/-- From any place on, reader and lexer find the same. The induction is on the lexemes: the reader
    comes out of each where it ends. -/
theorem marks_eq_lexemesFrom (lineStart : Bool) (bs : List UInt8) :
    (if lineStart then Mode.margin [] else .code).marks bs =
      (lexemesFrom lineStart bs).flatMap Lexeme.marks := by
  fun_induction lexemesFrom lineStart bs with
  | case1 bs blanks hhash cut ih =>
    rw [if_pos rfl, Mode.marks_margin, if_pos hhash, List.flatMap_cons, ← ih, List.nil_append]
    rfl
  | case2 bs blanks hhash ih =>
    have hcode : ∀ bs : List UInt8,
        (bs.map Lexeme.code).flatMap Lexeme.marks = bs.map (·, Role.code) := by
      intro bs
      rw [List.flatMap_map, List.map_eq_flatMap]
      rfl
    rw [if_pos rfl, Mode.marks_margin, if_neg hhash, List.flatMap_append, hcode, ← ih,
      List.nil_append]
    rfl
  | case3 _ h =>
    rw [if_neg h]
    rfl
  | case4 _ h bs ih =>
    rw [if_neg h, List.flatMap_cons, ← ih]
    rfl
  | case5 _ h b bs _ hopen cut ih =>
    obtain ⟨rfl, hslash⟩ := hopen
    rw [if_neg h, Mode.marks_slash_slash hslash, Mode.marks_lineComment, List.flatMap_cons, ← ih]
    rfl
  | case6 _ h b bs _ _ hopen cut ih =>
    obtain ⟨rfl, hstar⟩ := hopen
    rw [if_neg h, Mode.marks_slash_star hstar, Mode.marks_blockComment false (by simp),
      List.flatMap_cons, ← ih]
    rfl
  | case7 _ h b bs _ _ _ hq cut ih =>
    rw [if_neg h, Mode.marks_quote hq, Mode.marks_literal, List.flatMap_cons, ← ih, Lexeme.marks]
    simp [cut]
  | case8 _ h b bs hn hslash hstar hq ih =>
    rw [if_neg h, List.flatMap_cons, ← ih]
    by_cases hb : b = slash
    · subst hb
      exact Mode.marks_slash (fun h => hslash ⟨rfl, h⟩) fun h => hstar ⟨rfl, h⟩
    · simp [Mode.marks_cons, Mode.read, Mode.readCode, hn, hb, hq, Lexeme.marks]

/-- Reader and lexer find the same in every text. -/
theorem marks_eq_lexemes (t : String) : marks t = (lexemes (encode t)).flatMap Lexeme.marks :=
  marks_eq_lexemesFrom true (encode t)

/-! ### What is shown -/

/-- The cell of a marked byte. -/
def cellOf (m : Marked) : Cell :=
  ⟨m.1, shown m⟩

theorem map_cellOf_marks_lexeme (l : Lexeme) : l.marks.map cellOf = l.cells := by
  have hcode : ∀ b, cellOf (b, .code) = .plain b := fun b => by simp [cellOf, shown, Cell.plain]
  have hblanked : ∀ {role : Role} (bs : List UInt8), role ≠ .code →
      (bs.map (·, role)).map cellOf = bs.map Cell.blanked := by
    intro role bs hrole
    rw [List.map_map]
    refine List.map_congr_left fun b _ => ?_
    by_cases hb : b = newline <;> simp [cellOf, shown, Cell.blanked, hrole, hb]
  cases l with
  | newline => rfl
  | code b => simp [Lexeme.cells, Lexeme.marks, hcode]
  | directive bs => exact hblanked bs (by decide)
  | lineComment bs => exact hblanked bs (by decide)
  | blockComment bs => exact hblanked bs (by decide)
  | literal q body closed =>
    have hbody : (body.map (·, Role.interior)).map cellOf = body.map Cell.blanked :=
      hblanked body (by decide)
    cases closed
    · simp only [Lexeme.cells, Lexeme.marks, List.map_cons, List.map_append, hcode, hbody]
      rfl
    · simp only [Lexeme.cells, Lexeme.marks, List.map_cons, List.map_append, hcode, hbody]
      simp [hcode]

/-- The marked bytes of a text are its cells. -/
theorem map_cellOf_marks (t : String) : (marks t).map cellOf = cells (encode t) := by
  rw [marks_eq_lexemes, List.map_flatMap, cells]
  exact congrArg (List.flatMap · _) (funext map_cellOf_marks_lexeme)

theorem map_shown_marks (t : String) : (marks t).map shown = codeBytes t := by
  rw [codeBytes, ← map_cellOf_marks, List.map_map]
  rfl

theorem map_fst_marks (t : String) : (marks t).map Prod.fst = encode t := by
  rw [← raw_cells (encode t), ← map_cellOf_marks, List.map_map]
  rfl

/-! ### Characters are marked as a whole -/

theorem shown_ascii {m : Marked} (h : m.1 < 0x80) : shown m < 0x80 := by
  unfold shown
  split_ifs
  · exact h
  · decide

theorem ascii_of_isLineBlank {b : UInt8} (h : isLineBlank b) : b < 0x80 := by
  simp only [isLineBlank, Text.isBlankByte, Bool.and_eq_true, Bool.or_eq_true, beq_iff_eq] at h
  rcases h.1 with (((rfl | rfl) | rfl) | rfl) | rfl <;> decide

namespace Mode

theorem readCode_bytes (b : UInt8) :
    (readCode b).1.map Prod.fst ++ (readCode b).2.held = [b] := by
  unfold readCode
  split_ifs with _ hb
  · rfl
  · rw [hb]
    rfl
  · rfl
  · rfl

/-- Nothing is lost, and nothing is marked twice. -/
theorem read_bytes (m : Mode) (b : UInt8) :
    (m.read b).1.map Prod.fst ++ (m.read b).2.held = m.held ++ [b] := by
  have hcode := readCode_bytes b
  cases m with
  | margin blanks =>
    simp only [read]
    split_ifs
    · simp [held, Function.comp_def]
    · rfl
    · rw [List.map_append, List.append_assoc, hcode]
      simp [held, Function.comp_def]
  | code => exact hcode
  | slash =>
    simp only [read]
    split_ifs
    · rfl
    · rfl
    · exact congrArg (Source.slash :: ·) hcode
  | _ =>
    simp only [read]
    split_ifs <;> first | exact hcode | rfl

/-- Whether a reader remembers only ASCII bytes. -/
def IsPlain : Mode → Prop
  | margin blanks => ∀ b ∈ blanks, b < 0x80
  | literal q _ => q < 0x80
  | code | slash | directive _ | lineComment | blockComment _ => True

theorem IsPlain.held {m : Mode} (h : m.IsPlain) : ∀ b ∈ m.held, b < 0x80 := by
  cases m with
  | margin blanks => exact h
  | slash => exact List.forall_mem_singleton.2 (show Source.slash < 0x80 by decide)
  | _ => exact nofun

theorem isPlain_readCode (b : UInt8) : (readCode b).2.IsPlain := by
  unfold readCode
  split_ifs with _ _ hb
  · exact nofun
  · trivial
  · rcases hb with rfl | rfl
    · exact show doubleQuote < 0x80 by decide
    · exact show singleQuote < 0x80 by decide
  · trivial

/-- It stays so. -/
theorem IsPlain.read {m : Mode} (h : m.IsPlain) (b : UInt8) : (m.read b).2.IsPlain := by
  have hcode := isPlain_readCode b
  cases m with
  | margin blanks =>
    simp only [Mode.read]
    split_ifs with _ hb
    · trivial
    · exact List.forall_mem_append.2 ⟨h, List.forall_mem_singleton.2 (ascii_of_isLineBlank hb)⟩
    · exact hcode
  | code => exact hcode
  | literal q escaped =>
    simp only [Mode.read]
    split_ifs
    · exact h
    · trivial
    · exact hcode
    · exact h
  | _ =>
    simp only [Mode.read]
    split_ifs <;> first | exact hcode | trivial

/-- What a byte is that is no ASCII byte. -/
def role : Mode → Role
  | margin _ | code | slash => .code
  | directive _ => .directive
  | lineComment | blockComment _ => .comment
  | literal _ _ => .interior

/-- Such a byte changes nothing about what the next ones are. -/
theorem read_wide {m : Mode} (h : m.IsPlain) {b : UInt8} (hb : ¬b < 0x80) :
    (m.read b).1 = m.held.map (·, .code) ++ [(b, m.role)] ∧ (m.read b).2.role = m.role ∧
      (m.read b).2.held = [] := by
  have hne : ∀ a : UInt8, a < 0x80 → b ≠ a := fun a ha h => hb (h ▸ ha)
  have hblank : ¬isLineBlank b := fun h => hb (ascii_of_isLineBlank h)
  have hcode : readCode b = ([(b, .code)], code) := by
    rw [readCode, if_neg (hne _ (by decide)), if_neg (hne _ (by decide)),
      if_neg (not_or.2 ⟨hne _ (by decide), hne _ (by decide)⟩)]
  have hnewline := hne newline (by decide)
  have hslash := hne Source.slash (by decide)
  cases m with
  | margin blanks =>
    rw [Mode.read, if_neg (hne hash (by decide)), if_neg hblank, hcode]
    exact ⟨rfl, rfl, rfl⟩
  | code =>
    rw [Mode.read, hcode]
    exact ⟨rfl, rfl, rfl⟩
  | slash =>
    rw [Mode.read, if_neg hslash, if_neg (hne star (by decide)), hcode]
    exact ⟨rfl, rfl, rfl⟩
  | directive continued =>
    rw [Mode.read, if_neg hnewline]
    exact ⟨rfl, rfl, rfl⟩
  | lineComment =>
    rw [Mode.read, if_neg hnewline]
    exact ⟨rfl, rfl, rfl⟩
  | blockComment closing =>
    rw [Mode.read, if_neg fun h => hslash h.2]
    exact ⟨rfl, rfl, rfl⟩
  | literal q escaped =>
    cases escaped
    · rw [Mode.read, if_neg nofun, if_neg (hne q h), if_neg hnewline]
      exact ⟨rfl, rfl, rfl⟩
    · exact ⟨rfl, rfl, rfl⟩

/-- So several such bytes are all the same. -/
theorem marks_wide {m : Mode} (h : m.IsPlain) {bs : List UInt8} (hne : bs ≠ [])
    (hbs : ∀ b ∈ bs, ¬b < 0x80) : ∃ m' : Mode, m'.IsPlain ∧ ∀ rest,
      m.marks (bs ++ rest) = m.held.map (·, .code) ++ (bs.map (·, m.role) ++ m'.marks rest) := by
  induction bs generalizing m with
  | nil => exact absurd rfl hne
  | cons b bs ih =>
    rw [List.forall_mem_cons] at hbs
    obtain ⟨hmarks, hrole, hheld⟩ := read_wide h hbs.1
    rcases List.eq_nil_or_concat' bs with rfl | hbs'
    · refine ⟨_, h.read b, fun rest => ?_⟩
      rw [List.singleton_append, marks_cons, hmarks, List.append_assoc]
      rfl
    · obtain ⟨m', hm', hrest⟩ := ih (h.read b) (by rintro rfl; simp at hbs') hbs.2
      refine ⟨m', hm', fun rest => ?_⟩
      rw [List.cons_append, marks_cons, hmarks, hrest, hrole, hheld, List.append_assoc]
      rfl

/-- What is shown of a text is a text: of every character, all bytes are shown or none. -/
theorem isText_shown {m : Mode} (h : m.IsPlain) (cs : List Char) :
    IsText ((m.marks (encodeChars cs)).map shown) := by
  have hshown : ∀ {ms : List Marked}, (∀ b ∈ ms.map Prod.fst, b < 0x80) →
      IsText (ms.map shown) := fun hms => isText_of_ascii <| by
    rw [List.forall_mem_map] at hms ⊢
    exact fun x hx => shown_ascii (hms x hx)
  induction cs generalizing m with
  | nil => exact hshown (by simpa [Function.comp_def] using h.held)
  | cons c cs ih =>
    obtain ⟨b, bs, hc, -, hbs⟩ := utf8EncodeChar_eq_cons c
    rw [encodeChars_cons]
    by_cases hb : b < 0x80
    · obtain rfl := utf8EncodeChar_eq_of_head_ascii hc hb
      have hbytes := read_bytes m b
      rw [hc, List.singleton_append, marks_cons, List.map_append]
      refine (hshown fun x hx => ?_).append (ih (h.read b))
      have hmem : x ∈ m.held ++ [b] := hbytes ▸ List.mem_append_left _ hx
      rcases List.mem_append.1 hmem with hmem | hmem
      · exact h.held x hmem
      · rwa [List.mem_singleton.1 hmem]
    · have hwide : ∀ x ∈ b :: bs, ¬x < 0x80 := by
        refine List.forall_mem_cons.2 ⟨hb, fun x hx hlt => ?_⟩
        have := not_continues_of_ascii hlt ▸ hbs x hx
        exact absurd this (by decide)
      obtain ⟨m', hm', hrest⟩ := marks_wide h (List.cons_ne_nil b bs) hwide
      rw [hc, hrest, List.map_append, List.map_append]
      refine (hshown (by simpa [Function.comp_def] using h.held)).append (.append ?_ (ih hm'))
      by_cases hrole : m.role = .code
      · have hsame : ((b :: bs).map (·, m.role)).map shown = b :: bs := by
          simp [shown, hrole, Function.comp_def]
        rw [hsame]
        exact ⟨[c], by simp [hc]⟩
      · refine isText_of_ascii (List.forall_mem_map.2 (List.forall_mem_map.2 fun x hx => ?_))
        have hnewline : x ≠ newline := fun h => hwide x hx (h ▸ by decide)
        rw [shown, if_neg (not_or.2 ⟨hrole, hnewline⟩)]
        decide

end Mode

/-! ### Directives -/

section Stretches

variable {place : Nat} {ms rest : List Marked}

theorem stretches_append (h : ∀ m ∈ ms, m.2 ≠ .directive) :
    stretches place (ms ++ rest) = stretches (place + ms.length) rest := by
  induction ms generalizing place with
  | nil => rfl
  | cons m ms ih =>
    rw [List.forall_mem_cons] at h
    rw [List.cons_append, stretches, if_neg h.1, ih h.2, List.length_cons]
    congr 1
    omega

/-- Marks of a directive that no other one follows are one stretch. -/
theorem stretches_directive {bs : List UInt8} (hbs : bs ≠ [])
    (hrest : ∀ m ∈ rest.head?, m.2 ≠ .directive) :
    stretches place (bs.map (·, .directive) ++ rest) =
      (place, bs) :: stretches (place + bs.length) rest := by
  obtain ⟨b, bs, rfl⟩ := List.exists_cons_of_ne_nil hbs
  have hfront : ∀ m ∈ bs.map (·, Role.directive), decide (m.2 = .directive) := by
    simp
  obtain ⟨htake, hdrop⟩ := takeWhile_replace (r := rest) hfront (by simpa using hrest)
  rw [List.map_cons, List.cons_append, stretches, if_pos rfl, htake, hdrop, List.length_map,
    List.length_cons, Nat.add_assoc, Nat.add_comm 1]
  simp [Function.comp_def]

end Stretches

theorem map_fst_marks_lexeme (l : Lexeme) : l.marks.map Prod.fst = l.bytes := by
  rw [← raw_cells_lexeme, ← map_cellOf_marks_lexeme, List.map_map]
  rfl

theorem length_flatMap_marks (ls : List Lexeme) : (ls.flatMap Lexeme.marks).length = size ls := by
  have h : (fun l : Lexeme => l.marks.map Prod.fst) = Lexeme.bytes := funext map_fst_marks_lexeme
  rw [size, ← h, ← List.map_flatMap, List.length_map]

/-- Only a directive is marked as one. -/
theorem ne_directive_of_mem_marks {l : Lexeme} (hl : ∀ bs, l ≠ .directive bs) :
    ∀ m ∈ l.marks, m.2 ≠ .directive := by
  cases l with
  | directive bs => exact absurd rfl (hl bs)
  | literal q body closed =>
    intro m hm
    simp only [Lexeme.marks, List.mem_append, List.mem_cons, List.mem_map] at hm
    rcases hm with (rfl | ⟨b, -, rfl⟩) | hm
    · exact nofun
    · exact nofun
    · cases closed
      · exact absurd hm nofun
      · obtain rfl := List.mem_singleton.1 hm
        exact nofun
  | _ => simp [Lexeme.marks]

/-- Where a newline comes next, no directive starts. -/
theorem head_marks {ls : List Lexeme} (h : AllFit ls)
    (hnewline : ∀ b ∈ (ls.flatMap Lexeme.bytes).head?, b = newline) :
    ∀ m ∈ (ls.flatMap Lexeme.marks).head?, m.2 ≠ .directive := by
  induction ls with
  | nil => exact nofun
  | cons l ls ih =>
    rw [List.flatMap_cons] at hnewline ⊢
    by_cases hl : ∃ bs, l = .directive bs
    · obtain ⟨bs, rfl⟩ := hl
      obtain ⟨⟨b, hb, hstart⟩, -⟩ := h.1
      obtain ⟨rest, rfl⟩ := List.head?_eq_some_iff.1 hb
      obtain rfl := hnewline b rfl
      exact absurd hstart (by decide)
    by_cases hnil : l.marks = []
    · have hbytes : l.bytes = [] := by rw [← map_fst_marks_lexeme, hnil, List.map_nil]
      rw [hbytes] at hnewline
      rw [hnil]
      exact ih h.2 hnewline
    · intro m hm
      rw [List.head?_append_of_ne_nil _ hnil] at hm
      exact ne_directive_of_mem_marks (not_exists.1 hl) m (List.mem_of_mem_head? hm)

theorem dropTail_concat {α : Type} (p : α → Bool) (l : List α) (x : α) :
    Text.dropTail p (l ++ [x]) = if p x then Text.dropTail p l else l ++ [x] := by
  rw [Text.dropTail, List.reverse_concat, List.dropWhile_cons]
  split <;> simp [Text.dropTail]

/-- Carriage returns at the end of a text are those at the end of its bytes. -/
theorem encodeChars_dropTail (cs : List Char) :
    encodeChars (Text.dropTail (· == '\r') cs) = Text.dropTail (· == 0x0D) (encodeChars cs) := by
  induction cs using List.reverseRecOn with
  | nil => rfl
  | append_singleton cs c ih =>
    rw [dropTail_concat, encodeChars_append]
    by_cases hc : c = '\r'
    · subst hc
      rw [if_pos (by decide), ih, encodeChars_cons, encodeChars_nil, List.append_nil,
        show String.utf8EncodeChar '\r' = [0x0D] by decide, dropTail_concat, if_pos (by decide)]
    · obtain ⟨front, b, hb⟩ : ∃ front b, String.utf8EncodeChar c = front ++ [b] := by
        obtain ⟨b, bs, hbs, -⟩ := utf8EncodeChar_eq_cons c
        exact (List.eq_nil_or_concat' _).resolve_left (hbs ▸ List.cons_ne_nil b bs)
      have hreturn : b ≠ 0x0D := by
        rintro rfl
        exact hc (eq_of_mem_ascii (hb ▸ List.mem_concat_self) (by decide))
      rw [if_neg (by simpa using hc), encodeChars_cons, encodeChars_nil, List.append_nil, hb,
        ← List.append_assoc, dropTail_concat, if_neg (by simpa using hreturn), encodeChars_append,
        encodeChars_cons, encodeChars_nil, List.append_nil, hb, List.append_assoc]

/-- What a directive is taken from: a stretch of bytes, with its place. -/
structure IsTaken (d : Declaration) (stretch : Nat × List UInt8) : Prop where
  kind : d.kind = .directive
  order : d.order = stretch.1
  text : encode d.text = Text.dropTail (· == 0x0D) stretch.2

/-- The directives among lexemes are taken from the stretches of directives among their marks. -/
theorem isTaken_directivesFrom {n : Nat} {ls : List Lexeme} (h : AllFit ls)
    (ht : ∀ bs, .directive bs ∈ ls → IsText bs) :
    List.Forall₂ IsTaken (directivesFrom n ls) (stretches n (ls.flatMap Lexeme.marks)) := by
  induction ls generalizing n with
  | nil =>
    rw [directivesFrom, List.flatMap_nil, stretches]
    exact .nil
  | cons l ls ih =>
    have ih' : ∀ n, List.Forall₂ IsTaken (directivesFrom n ls)
        (stretches n (ls.flatMap Lexeme.marks)) :=
      fun n => ih h.2 fun bs hbs => ht bs (List.mem_cons_of_mem _ hbs)
    rw [List.flatMap_cons]
    by_cases hl : ∃ bs, l = .directive bs
    · obtain ⟨bs, rfl⟩ := hl
      obtain ⟨⟨b, hb, -⟩, hnewline⟩ := h.1
      have hne : bs ≠ [] := by
        rintro rfl
        simp at hb
      rw [Lexeme.marks, stretches_directive hne (head_marks h.2 hnewline)]
      refine .cons ⟨rfl, rfl, ?_⟩ (ih' _)
      obtain ⟨cs, rfl⟩ := ht bs List.mem_cons_self
      rw [lossy_encodeChars, String.toList_ofList, encode_ofList, encodeChars_dropTail]
    · rw [not_exists] at hl
      rw [stretches_append (ne_directive_of_mem_marks hl), ← List.length_map (f := Prod.fst),
        map_fst_marks_lexeme]
      cases l with
      | directive bs => exact absurd rfl (hl bs)
      | _ => exact ih' _

/-- The code and the directives of a text are those that the reader finds. He marks every byte, so
    that the code has the length of the text; it shows the newlines and what he takes for code, and
    blanks elsewhere, and it is a text. The directives are the stretches of bytes that he takes for
    directives, without the carriage returns at their ends. -/
theorem codeBytes_directives_bytewise (t : String) :
    Offset.mask (encode t) = .ok (codeBytes t, (extract t).directives) ∧
      (marks t).map Prod.fst = encode t ∧ codeBytes t = (marks t).map shown ∧
      (codeBytes t).length = (encode t).length ∧ IsText (codeBytes t) ∧
      List.Forall₂ IsTaken (extract t).directives (stretches 0 (marks t)) := by
  refine ⟨Offset.mask_eq_ok _, map_fst_marks t, (map_shown_marks t).symm, ?_, ?_, ?_⟩
  · rw [codeBytes, List.length_map, length_cells]
  · rw [← map_shown_marks]
    exact Mode.isText_shown (m := .margin []) (by exact nofun) t.toList
  · have hfit : AllFit (lexemes (encode t)) := allFit_lexemesFrom true _
    rw [marks_eq_lexemes]
    refine isTaken_directivesFrom hfit fun bs hbs => ?_
    obtain ⟨ls₁, ls₂, hls⟩ := List.append_of_mem hbs
    have ht : (lexemes (encode t)).flatMap Lexeme.bytes = encode t := flatMap_bytes_lexemes _
    rw [hls] at hfit ht
    exact (isText_of_directive hfit (ht ▸ isText_encode t)).2.1

end TestBench.Source
