import Mathlib.Data.List.DropRight
import TestBench.Proofs.Source.Extraction
import TestBench.Proofs.Source.Lexing

/-!
# Texts without comments and directives

The *bare* text has blanks for every byte of a comment or a directive, newlines apart. It is a text
of the same length (`encode_bare`), and it is cut into the same lexemes, with code for the blanks
(`lexemes_bare`), unless a `#` stands behind a comment on its line: bare, it would start a
directive. So its code is that of the text as written (`codeBytes_bare`).
-/

namespace TestBench.Source

open Utf8

/-! ### Bare texts -/

/-- Whether a lexeme is a comment. -/
def Lexeme.IsComment : Lexeme → Prop
  | .lineComment _ | .blockComment _ => True
  | _ => False

/-- Whether a lexeme is a comment or a directive. -/
def Lexeme.IsBlank : Lexeme → Prop
  | .directive _ | .lineComment _ | .blockComment _ => True
  | _ => False

/-- The bytes of a lexeme, with blanks for a comment or a directive. -/
def Lexeme.bare : Lexeme → List UInt8
  | .directive bs | .lineComment bs | .blockComment bs => bs.map fun b => (Cell.blanked b).code
  | l => l.bytes

/-- The bytes of a text, with blanks for comments and directives. -/
def bareBytes (t : String) : List UInt8 :=
  (lexemes (encode t)).flatMap Lexeme.bare

/-- The text with blanks for comments and directives. -/
def bare (t : String) : String :=
  lossy (bareBytes t)

/-- The lexemes of a bare text that stand for one as written: of a comment or a directive, there are
    only the blanks. -/
def Lexeme.bared : Lexeme → List Lexeme
  | .directive bs | .lineComment bs | .blockComment bs =>
    bs.map fun b => codeLexeme (Cell.blanked b).code
  | l => [l]

/-- Whether no `#` follows a comment on the line where it ends. -/
def NoHashBehind (ls : List Lexeme) : Prop :=
  ∀ ls₁ l ls₂, ls = ls₁ ++ l :: ls₂ → l.IsComment → NoDirective (ls₂.flatMap Lexeme.bytes)

theorem NoHashBehind.of_append {ls₁ ls₂ : List Lexeme} (h : NoHashBehind (ls₁ ++ ls₂)) :
    NoHashBehind ls₂ :=
  fun l₁ l l₂ hl hc => h (ls₁ ++ l₁) l l₂ (by rw [hl, List.append_assoc]) hc

theorem NoHashBehind.of_cons {l : Lexeme} {ls : List Lexeme} (h : NoHashBehind (l :: ls)) :
    NoHashBehind ls :=
  (show NoHashBehind ([l] ++ ls) from h).of_append

/-- A text without a `#` has none behind a comment. -/
theorem noHashBehind_of_not_mem {bs : List UInt8} (h : hash ∉ bs) : NoHashBehind (lexemes bs) := by
  intro ls₁ l ls₂ hls _ hhash
  refine h ?_
  rw [← flatMap_bytes_lexemes bs, hls, List.flatMap_append, List.flatMap_cons]
  refine List.mem_append_right _ (List.mem_append_right _ ?_)
  exact (List.dropWhile_sublist _).subset (List.mem_of_head? hhash)

/-! ### A bare text is a text -/

theorem code_blanked (b : UInt8) :
    (Cell.blanked b).code = newline ∨ (Cell.blanked b).code = 0x20 := by
  rw [Cell.blanked]
  split
  · exact .inl rfl
  · exact .inr rfl

theorem isText_blanks (bs : List UInt8) : IsText (bs.map fun b => (Cell.blanked b).code) := by
  induction bs with
  | nil => exact isText_nil
  | cons b bs ih =>
    have hb : IsText [(Cell.blanked b).code] := by
      rcases code_blanked b with h | h <;> rw [h]
      · exact ⟨['\n'], rfl⟩
      · exact ⟨[' '], rfl⟩
    exact hb.append ih

theorem flatMap_bare_map_code (bs : List UInt8) :
    (bs.map Lexeme.code).flatMap Lexeme.bare = bs := by
  rw [List.flatMap_map]
  exact List.flatMap_singleton' bs

/-- A block comment ends in a slash, or it takes all that is left. -/
theorem splitComment_ends (bs : List UInt8) :
    (splitComment bs).2 = [] ∨ ∃ front, (splitComment bs).1 = front ++ [slash] := by
  fun_induction splitComment bs with
  | case1 => exact .inl rfl
  | case2 => exact .inl rfl
  | case3 b c rest h => exact .inr ⟨[b], by rw [h.2]; rfl⟩
  | case4 b c rest h comment rest' hs ih =>
    rw [hs] at ih
    rcases ih with ih | ⟨front, ih⟩
    · exact .inl ih
    · exact .inr ⟨b :: front, congrArg (b :: ·) ih⟩

/-- Between two places where a text may be cut, there may be blanks instead. -/
theorem isText_blanked {p bs q : List UInt8} (h : IsText (p ++ (bs ++ q)))
    (hb : StartsFresh (bs ++ q)) (hq : StartsFresh q) :
    IsText ((p ++ bs.map fun b => (Cell.blanked b).code) ++ q) := by
  obtain ⟨hp, hbq⟩ := h.split hb
  exact (hp.append (isText_blanks bs)).append (hbq.split hq).2

theorem startsFresh_slash (bs : List UInt8) : StartsFresh (slash :: bs) := by
  intro b hb
  obtain rfl := Option.some.inj hb
  decide

/-- With blanks for comments and directives a text is one still: no character spans either end of
    one. -/
theorem isText_bare {lineStart : Bool} {bs p : List UInt8} (h : IsText (p ++ bs)) :
    IsText (p ++ (lexemesFrom lineStart bs).flatMap Lexeme.bare) := by
  -- Lexeme by lexeme, with all that is done in front.
  fun_induction lexemesFrom lineStart bs generalizing p
  -- A directive: it starts with a hash or blanks, and a newline is behind it.
  case case1 bs blanks hh cut ih =>
    have hfit := (lexemesFrom_of_hash hh ▸ allFit_lexemesFrom true bs : AllFit (_ :: _)).1
    rw [flatMap_bytes_lexemesFrom] at hfit
    have hbs : blanks.1 ++ cut.1 ++ cut.2 = bs := by
      rw [List.append_assoc, bytes_splitDirective, bytes_splitBlanks]
    rw [List.flatMap_cons, ← List.append_assoc]
    refine ih (isText_blanked (hbs ▸ h) (fun b hb => hfit.startsFresh b ?_)
      (startsFresh_of_newline hfit.2))
    obtain ⟨x, hx, -⟩ := hfit.1
    rwa [List.head?_append, hx, Option.some_or, ← hx] at hb
  case case2 bs blanks _ ih =>
    rw [List.flatMap_append, ← List.append_assoc]
    refine ih ?_
    rwa [flatMap_bare_map_code, List.append_assoc, bytes_splitBlanks]
  case case3 => exact h
  case case4 ih =>
    rw [List.flatMap_cons, ← List.append_assoc]
    exact ih (by rwa [List.append_assoc])
  -- Comments start with a slash; a newline is behind one, and a slash at the end of the other.
  case case5 b bs _ hb cut ih =>
    have hbs : (b :: cut.1) ++ cut.2 = b :: bs := congrArg (b :: ·) (bytes_splitLine bs)
    rw [List.flatMap_cons, ← List.append_assoc]
    exact ih (isText_blanked (hbs ▸ h) (hb.1 ▸ startsFresh_slash _)
      (startsFresh_of_newline (head_splitLine bs)))
  case case6 b bs _ _ hb cut ih =>
    obtain ⟨bs, rfl⟩ := List.head?_eq_some_iff.1 hb.2
    have hbs : (b :: star :: cut.1) ++ cut.2 = b :: star :: bs :=
      congrArg (b :: star :: ·) (bytes_splitComment bs)
    rw [List.flatMap_cons, ← List.append_assoc]
    refine ih (isText_blanked (hbs ▸ h) (hb.1 ▸ startsFresh_slash _) ?_)
    rcases splitComment_ends bs with hnil | ⟨front, hfront⟩
    · rw [show cut.2 = [] from hnil]
      exact isText_nil.startsFresh
    · rw [← hbs, show cut.1 = front ++ [slash] from hfront] at h
      have hsplit : p ++ (b :: star :: (front ++ [slash]) ++ cut.2) =
          (p ++ b :: star :: front) ++ slash :: cut.2 := by simp
      rw [hsplit] at h
      exact (h.split_ascii (by decide)).2.2.startsFresh
  case case7 b bs _ _ _ _ cut ih =>
    have hbs : (Lexeme.literal b cut.1 cut.2.1).bytes ++ cut.2.2 = b :: bs := by
      rw [Lexeme.bytes, List.cons_append, List.cons_append, List.append_assoc, bytes_splitLiteral]
    rw [List.flatMap_cons, ← List.append_assoc]
    refine ih ?_
    change IsText ((p ++ (Lexeme.literal b cut.1 cut.2.1).bytes) ++ cut.2.2)
    rwa [List.append_assoc, hbs]
  case case8 ih =>
    rw [List.flatMap_cons, ← List.append_assoc]
    exact ih (by rwa [List.append_assoc])

theorem encode_bare (t : String) : encode (bare t) = bareBytes t :=
  encode_lossy (isText_bare (p := []) (isText_encode t))

/-! ### The lexemes of a bare text -/

theorem isInert_blanked (b : UInt8) : IsInert (Cell.blanked b).code := by
  rcases code_blanked b with h | h <;> rw [h] <;> unfold IsInert <;> decide

theorem isInert_of_mem_blanks {bs : List UInt8} :
    ∀ b ∈ bs.map fun b => (Cell.blanked b).code, IsInert b := by
  intro b hb
  obtain ⟨x, -, rfl⟩ := List.mem_map.1 hb
  exact isInert_blanked x

theorem noDirective_blanks {rest : List UInt8} (h : NoDirective rest) (bs : List UInt8) :
    NoDirective ((bs.map fun b => (Cell.blanked b).code) ++ rest) :=
  noDirective_append (fun hm => (isInert_of_mem_blanks hash hm).2.2.2 rfl) h

theorem lexemesFrom_false_blanks {rest : List UInt8} (h : NoDirective rest) (bs : List UInt8) :
    lexemesFrom false ((bs.map fun b => (Cell.blanked b).code) ++ rest) =
      (bs.map fun b => codeLexeme (Cell.blanked b).code) ++ lexemesFrom false rest := by
  rw [lexemesFrom_inert isInert_of_mem_blanks h, List.map_map]
  rfl

/-- Where no directive starts, none starts in the bare text. -/
theorem noDirective_bare {lineStart : Bool} {bs : List UInt8}
    (h : NoHashBehind (lexemesFrom lineStart bs)) (hbs : NoDirective bs) :
    NoDirective ((lexemesFrom lineStart bs).flatMap Lexeme.bare) := by
  -- The blanks in front are passed, those that stand for comments too.
  fun_induction lexemesFrom lineStart bs
  case case1 hh _ _ => exact absurd hh hbs
  case case2 bs blanks hh ih =>
    have hblanks : ∀ b ∈ blanks.1, isLineBlank b := fun b hb => List.mem_takeWhile_imp hb
    have hrest : NoDirective blanks.2 := by
      rwa [NoDirective, show blanks.2 = bs.dropWhile isLineBlank from rfl,
        List.dropWhile_idempotent]
    rw [List.flatMap_append, flatMap_bare_map_code]
    exact noDirective_append (fun hm => (isInert_of_isLineBlank (hblanks _ hm)).2.2.2 rfl)
      (ih h.of_append hrest)
  case case3 => exact hbs
  case case4 => exact noDirective_of_newline (by simp [Lexeme.bare, Lexeme.bytes])
  case case5 cut ih =>
    exact noDirective_blanks (ih h.of_cons (noDirective_of_newline (head_splitLine _))) _
  case case6 b bs _ _ hb cut ih =>
    -- Only here what follows is on the same line.
    have hrest := h [] _ _ rfl trivial
    rw [flatMap_bytes_lexemesFrom] at hrest
    exact noDirective_blanks (ih h.of_cons hrest) _
  case case7 b bs _ _ _ hb cut ih =>
    rcases hb with rfl | rfl <;> exact noDirective_of_not_blank (by decide) (by decide) _
  case case8 b bs _ _ _ _ ih =>
    cases hb : isLineBlank b with
    | true =>
      rw [NoDirective, List.dropWhile_cons_of_pos hb] at hbs
      exact noDirective_cons (fun hh => (isInert_of_isLineBlank hb).2.2.2 hh)
        fun _ => ih h.of_cons hbs
    | false =>
      rw [NoDirective, List.dropWhile_cons_of_neg (by simp [hb])] at hbs
      exact noDirective_of_not_blank (fun hh => hbs (congrArg some hh)) hb _

/-- Bare, a text starts as it is written, or with a blank. -/
theorem head_bare (bs : List UInt8) :
    ((lexemesFrom false bs).flatMap Lexeme.bare).head? = bs.head? ∨
      ((lexemesFrom false bs).flatMap Lexeme.bare).head? = some 0x20 := by
  fun_cases lexemesFrom false bs with
  | case1 _ h | case2 _ h => exact absurd h (by decide)
  | case3 | case4 | case7 | case8 => exact .inl rfl
  | case5 _ _ _ _ h | case6 _ _ _ _ _ h => exact .inr (by rw [h.1]; rfl)

/-- Where a line ends or a text does, so it does bare. -/
theorem head_bare_of_newline {bs : List UInt8} (h : ∀ b ∈ bs.head?, b = newline) :
    ((lexemesFrom false bs).flatMap Lexeme.bare).head? = bs.head? := by
  cases bs with
  | nil => rw [lexemesFrom_nil]; rfl
  | cons b bs =>
    obtain rfl := h b rfl
    rw [lexemesFrom_newline]
    rfl

/-- A literal is the same in front of the rest of the text and of that rest made bare. -/
theorem lexemesFrom_literal_bare {q : UInt8} (hq : q = doubleQuote ∨ q = singleQuote)
    {bs body rest : List UInt8} {closed : Bool} (h : splitLiteral q bs = (body, closed, rest)) :
    lexemesFrom false ((Lexeme.literal q body closed).bytes ++
        (lexemesFrom false rest).flatMap Lexeme.bare) =
      .literal q body closed ::
        lexemesFrom false ((lexemesFrom false rest).flatMap Lexeme.bare) := by
  generalize hr : (lexemesFrom false rest).flatMap Lexeme.bare = r
  have hsplit : splitLiteral q (body ++ ((if closed then [q] else []) ++ r)) =
      (body, closed, r) := by
    cases closed with
    | true => exact splitLiteral_replace h r
    | false => exact splitLiteral_replace_open h (hr ▸ head_bare_of_newline (head_splitLiteral h))
  rw [Lexeme.bytes, List.cons_append, List.cons_append, List.append_assoc, lexemesFrom_quote hq,
    hsplit]

/-- The lexemes of a bare text are those of the text as written, with code for the blanks. -/
theorem lexemesFrom_bare {lineStart : Bool} {bs : List UInt8}
    (h : NoHashBehind (lexemesFrom lineStart bs)) :
    lexemesFrom lineStart ((lexemesFrom lineStart bs).flatMap Lexeme.bare) =
      (lexemesFrom lineStart bs).flatMap Lexeme.bared := by
  fun_induction lexemesFrom lineStart bs
  -- A directive: its blanks are code, as no other directive follows on the line.
  case case1 bs blanks hh cut ih =>
    have hend : NoDirective cut.2 := noDirective_of_newline (head_splitDirective false blanks.2)
    have hrest := noDirective_bare h.of_cons hend
    rw [List.flatMap_cons, List.flatMap_cons, ← ih h.of_cons]
    exact (lexemesFrom_true (noDirective_blanks hrest _)).trans (lexemesFrom_false_blanks hrest _)
  -- The start of a line without one.
  case case2 bs blanks hh ih =>
    have hblanks : ∀ b ∈ blanks.1, isLineBlank b := fun b hb => List.mem_takeWhile_imp hb
    rw [← lexemesFrom_of_not_hash hh] at h
    have hno := noDirective_bare h hh
    rw [lexemesFrom_of_not_hash hh] at h hno
    rw [List.flatMap_append, flatMap_bare_map_code] at hno
    have hcode : (blanks.1.map Lexeme.code).flatMap Lexeme.bared = blanks.1.map .code := by
      rw [List.flatMap_map]
      exact (List.map_eq_flatMap ..).symm
    rw [List.flatMap_append, flatMap_bare_map_code, List.flatMap_append, ← ih h.of_append,
      lexemesFrom_true hno, lexemesFrom_blanks hblanks, hcode]
  case case3 lineStart hstart =>
    obtain rfl := Bool.eq_false_iff.2 hstart
    exact lexemesFrom_nil
  case case4 lineStart hstart bs ih =>
    obtain rfl := Bool.eq_false_iff.2 hstart
    rw [List.flatMap_cons, List.flatMap_cons, ← ih h.of_cons]
    exact lexemesFrom_newline _
  -- Comments.
  case case5 lineStart hstart b bs _ _ cut ih =>
    obtain rfl := Bool.eq_false_iff.2 hstart
    have hend : NoDirective cut.2 := noDirective_of_newline (head_splitLine bs)
    rw [List.flatMap_cons, List.flatMap_cons, ← ih h.of_cons]
    exact lexemesFrom_false_blanks (noDirective_bare h.of_cons hend) _
  case case6 lineStart hstart b bs _ _ _ cut ih =>
    obtain rfl := Bool.eq_false_iff.2 hstart
    have hend := h [] _ _ rfl trivial
    rw [flatMap_bytes_lexemesFrom] at hend
    rw [List.flatMap_cons, List.flatMap_cons, ← ih h.of_cons]
    exact lexemesFrom_false_blanks (noDirective_bare h.of_cons hend) _
  -- A literal, and other code.
  case case7 lineStart hstart b bs _ _ _ hb cut ih =>
    obtain rfl := Bool.eq_false_iff.2 hstart
    rw [List.flatMap_cons, List.flatMap_cons, ← ih h.of_cons]
    exact lexemesFrom_literal_bare hb rfl
  case case8 lineStart hstart b bs hn hs hs' hq ih =>
    obtain rfl := Bool.eq_false_iff.2 hstart
    rw [List.flatMap_cons, List.flatMap_cons, ← ih h.of_cons]
    -- Bare, what follows a slash starts no comment either.
    have hbare : ∀ c : UInt8, c ≠ 0x20 → ¬(b = slash ∧ bs.head? = some c) →
        ¬(b = slash ∧ ((lexemesFrom false bs).flatMap Lexeme.bare).head? = some c) := by
      rintro c hc hnot ⟨hb, hh⟩
      rcases head_bare bs with hhead | hhead
      · exact hnot ⟨hb, hhead ▸ hh⟩
      · exact hc (Option.some.inj (hh.symm.trans hhead))
    exact lexemesFrom_other hn (hbare slash (by decide) hs) (hbare star (by decide) hs') hq

theorem lexemes_bare {t : String} (h : NoHashBehind (lexemes (encode t))) :
    lexemes (encode (bare t)) = (lexemes (encode t)).flatMap Lexeme.bared := by
  rw [encode_bare]
  exact lexemesFrom_bare h

/-! ### The code of a bare text -/

theorem code_bared (l : Lexeme) :
    (l.bared.flatMap Lexeme.cells).map Cell.code = l.cells.map Cell.code := by
  have hblanks : ∀ bs : List UInt8,
      ((bs.map fun b => codeLexeme (Cell.blanked b).code).flatMap Lexeme.cells).map Cell.code =
        (bs.map Cell.blanked).map Cell.code := by
    intro bs
    simp only [List.flatMap_map, cells_codeLexeme]
    rw [← List.map_eq_flatMap, List.map_map, List.map_map]
    rfl
  cases l with
  | directive | lineComment | blockComment => exact hblanks _
  | _ => rw [Lexeme.bared, List.flatMap_singleton] <;> simp

/-- Making a text bare does not change its code. -/
theorem codeBytes_bare {t : String} (h : NoHashBehind (lexemes (encode t))) :
    codeBytes (bare t) = codeBytes t := by
  rw [codeBytes, codeBytes, cells, cells, lexemes_bare h, List.flatMap_assoc, List.map_flatMap,
    List.map_flatMap]
  exact congrArg (List.flatMap · _) (funext code_bared)

/-- There is no directive in a bare text. -/
theorem directives_bare {t : String} (h : NoHashBehind (lexemes (encode t))) :
    (extract (bare t)).directives = [] := by
  refine directivesFrom_eq_nil (fun bs hbs => ?_) 0
  rw [lexemes_bare h] at hbs
  obtain ⟨l, -, hl⟩ := List.mem_flatMap.1 hbs
  have hcode : ∀ b : UInt8, codeLexeme b ≠ .directive bs := by
    intro b
    rw [codeLexeme]
    split <;> simp
  cases l with
  | directive | lineComment | blockComment =>
    obtain ⟨b, -, hb⟩ := List.mem_map.1 hl
    exact hcode _ hb
  | _ => exact absurd (List.mem_singleton.1 hl) (by simp)

/-! ### What stays as it is written -/

/-- Bytes that occur in every comment or directive, one of them in each. -/
def IsMark (b : UInt8) : Prop :=
  b = slash ∨ b = hash

theorem exists_mark {lineStart : Bool} {bs : List UInt8} :
    ∀ l ∈ lexemesFrom lineStart bs, l.IsBlank → ∃ b ∈ l.bytes, IsMark b := by
  fun_induction lexemesFrom lineStart bs with
  | case1 bs blanks hh cut ih =>
    refine List.forall_mem_cons.2 ⟨fun _ => ⟨hash, ?_, .inr rfl⟩, ih⟩
    obtain ⟨rest, hrest⟩ := List.head?_eq_some_iff.1 hh
    obtain ⟨ds, hd⟩ := splitDirective_hash rest
    have hcut : cut.1 = hash :: ds := by rw [← hd, ← hrest]
    simp [Lexeme.bytes, hcut]
  | case2 bs blanks _ ih =>
    intro l hl hblank
    rcases List.mem_append.1 hl with hl | hl
    · obtain ⟨b, -, rfl⟩ := List.mem_map.1 hl
      exact hblank.elim
    · exact ih l hl hblank
  | case3 => simp
  | case5 _ _ _ _ _ hb _ ih | case6 _ _ _ _ _ _ hb _ ih =>
    exact List.forall_mem_cons.2 ⟨fun _ => ⟨slash, by simp [Lexeme.bytes, hb.1], .inl rfl⟩, ih⟩
  | case4 _ _ _ ih | case7 _ _ _ _ _ _ _ _ _ ih | case8 _ _ _ _ _ _ _ _ ih =>
    exact List.forall_mem_cons.2 ⟨fun h => h.elim, ih⟩

theorem length_bare (l : Lexeme) : l.bare.length = l.cells.length := by
  rw [← List.length_map (f := Cell.raw), raw_cells_lexeme]
  cases l with
  | directive | lineComment | blockComment => exact List.length_map _
  | _ => rfl

theorem bare_eq_bytes {l : Lexeme} (h : ¬l.IsBlank) : l.bare = l.bytes := by
  cases l with
  | directive | lineComment | blockComment => exact absurd trivial h
  | _ => rfl

theorem Lexeme.IsBlank.isBlank {l : Lexeme} (h : l.IsBlank) : ∀ c ∈ l.cells, c.isBlank := by
  have hblanks : ∀ bs : List UInt8, ∀ c ∈ bs.map Cell.blanked, c.isBlank := by
    intro bs c hc
    obtain ⟨b, -, rfl⟩ := List.mem_map.1 hc
    exact isBlank_blanked b
  cases l with
  | directive | lineComment | blockComment => exact hblanks _
  | _ => exact h.elim

/-- Cells without a mark, up to one that is not blank, stay as they are written. -/
theorem exists_bare_append {ls : List Lexeme}
    (hmark : ∀ l ∈ ls, l.IsBlank → ∃ b ∈ l.bytes, IsMark b) {cs rest : List Cell} {c : Cell}
    (h : ls.flatMap Lexeme.cells = cs ++ c :: rest) (hc : c.isBlank = false)
    (hcs : ∀ x ∈ cs, ¬IsMark x.raw) :
    ∃ after, ls.flatMap Lexeme.bare = cs.map Cell.raw ++ after := by
  induction ls generalizing cs with
  | nil => exact ⟨[], by simp at h⟩
  | cons l ls ih =>
    rw [List.forall_mem_cons] at hmark
    rw [List.flatMap_cons] at h
    rw [List.flatMap_cons]
    by_cases hl : l.IsBlank
    · -- Its mark would be among the cells.
      obtain ⟨b, hb, hbm⟩ := hmark.1 hl
      rw [← raw_cells_lexeme] at hb
      obtain ⟨x, hx, rfl⟩ := List.mem_map.1 hb
      refine absurd hbm (hcs x ?_)
      rcases List.append_eq_append_iff.1 h with ⟨m, rfl, -⟩ | ⟨m, hm, hrest⟩
      · exact List.mem_append_left _ hx
      · cases m with
        | nil => rwa [hm, List.append_nil] at hx
        | cons d m =>
          obtain ⟨rfl, -⟩ := List.cons.inj hrest
          have := hl.isBlank c (by simp [hm])
          rw [hc] at this
          exact absurd this (by decide)
    · rw [bare_eq_bytes hl, ← raw_cells_lexeme]
      rcases List.append_eq_append_iff.1 h with ⟨m, rfl, hm⟩ | ⟨m, hm, -⟩
      · obtain ⟨after, ha⟩ := ih hmark.2 hm fun x hx => hcs x (List.mem_append_right _ hx)
        exact ⟨after, by rw [ha, List.map_append, List.append_assoc]⟩
      · exact ⟨m.map Cell.raw ++ ls.flatMap Lexeme.bare, by
          rw [hm, List.map_append, List.append_assoc]⟩

/-- So do cells behind others, if the first is not blank. -/
theorem exists_bare_between {ls : List Lexeme}
    (hmark : ∀ l ∈ ls, l.IsBlank → ∃ b ∈ l.bytes, IsMark b) {front cs rest : List Cell}
    {x c : Cell} (h : ls.flatMap Lexeme.cells = front ++ x :: (cs ++ c :: rest))
    (hx : x.isBlank = false) (hc : c.isBlank = false) (hcs : ∀ y ∈ x :: cs, ¬IsMark y.raw) :
    ∃ before after, ls.flatMap Lexeme.bare = before ++ ((x :: cs).map Cell.raw ++ after) ∧
      before.length = front.length := by
  induction ls generalizing front with
  | nil => simp at h
  | cons l ls ih =>
    rw [List.forall_mem_cons] at hmark
    rw [List.flatMap_cons] at h
    rw [List.flatMap_cons]
    have hlater : ∀ m, ls.flatMap Lexeme.cells = m ++ x :: (cs ++ c :: rest) →
        ∃ before after, l.bare ++ ls.flatMap Lexeme.bare =
          before ++ ((x :: cs).map Cell.raw ++ after) ∧
            before.length = (l.cells ++ m).length := by
      intro m hm
      obtain ⟨before, after, hb, hlen⟩ := ih hmark.2 hm
      refine ⟨l.bare ++ before, after, by rw [hb, List.append_assoc], ?_⟩
      rw [List.length_append, List.length_append, length_bare, hlen]
    rcases List.append_eq_append_iff.1 h with ⟨m, rfl, hm⟩ | ⟨m, hm, hrest⟩
    · exact hlater m hm
    cases m with
    | nil =>
      have := hlater [] hrest.symm
      rwa [List.append_nil, hm, List.append_nil] at this
    | cons y m =>
      obtain ⟨rfl, hbehind⟩ := List.cons.inj hrest
      have hl : ¬l.IsBlank := by
        intro hl
        have := hl.isBlank x (by simp [hm])
        rw [hx] at this
        exact absurd this (by decide)
      rw [bare_eq_bytes hl, ← raw_cells_lexeme, hm]
      refine ⟨front.map Cell.raw, ?_⟩
      rcases List.append_eq_append_iff.1 hbehind with ⟨m', rfl, -⟩ | ⟨m', rfl, hm'⟩
      · exact ⟨m'.map Cell.raw ++ ls.flatMap Lexeme.bare, by simp, by simp⟩
      · obtain ⟨after, ha⟩ := exists_bare_append hmark.2 hm' hc
          fun y hy => hcs y (by simp [hy])
        exact ⟨after, by simp [ha], by simp⟩

end TestBench.Source
