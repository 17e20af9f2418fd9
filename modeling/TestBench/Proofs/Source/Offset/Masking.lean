import Mathlib.Data.List.Induction
import TestBench.Proofs.Source.Directive
import TestBench.Proofs.Source.Offset.Basic
import TestBench.Source.Offset.Masking

/-!
# What masking finds

Masking by offsets keeps to the lexer, round by round. Where a line starts, nothing is decided
about its blanks before the byte behind them is seen; so the lexer is at the start of the line until
then (`InMargin`), and else it is where the round is (`InCode`).

* `directiveEnd_append`, `commentEnd_append`, `exists_literalEnd`: what a round passes is a cut of
  the lexer;
* `InCode.getsOn_pass`, `InMargin.getsOn_pass`: a round gets on, and keeps to the lexer;
* `mask_eq_ok`: no check fails, and what is left is the code of the text and its directives.
-/

namespace TestBench.Source.Offset

variable {bytes front rest done : List UInt8}

/-! ### The end of a line, of a comment and of a literal -/

variable {i : Nat}

theorem find_newline (h : bytes = front ++ rest) (hi : i = front.length) :
    find (· == newline) bytes i = .ok (i + (splitLine rest).1.length) :=
  find_append _ h hi

theorem isContinued_append (line : List UInt8) (b : UInt8) : isContinued (line ++ [b]) =
    if Text.isBlankByte b then isContinued line else b == backslash := by
  rw [isContinued, List.reverse_append, List.reverse_singleton, List.singleton_append,
    List.find?_cons]
  cases hb : Text.isBlankByte b with
  | true => rfl
  | false => simp

/-- Whether a line is continued is known at its end: the last byte that is no blank decides. -/
theorem isContinued_eq_foldl (line : List UInt8) : isContinued line = line.foldl
    (fun continued b => if Text.isBlankByte b then continued else b == backslash) false := by
  induction line using List.reverseRecOn with
  | nil => rfl
  | append_singleton line b ih => rw [isContinued_append, List.foldl_append, ← ih]; rfl

/-- Within a line, a directive only remembers whether it is continued. -/
theorem splitDirective_line {line : List UInt8} (hline : ∀ b ∈ line, b ≠ newline)
    (continued : Bool) (rest : List UInt8) : (splitDirective continued (line ++ rest)).1 =
      line ++ (splitDirective (line.foldl
        (fun continued b => if Text.isBlankByte b then continued else b == backslash) continued)
          rest).1 := by
  induction line generalizing continued with
  | nil => rfl
  | cons b line ih =>
    rw [List.forall_mem_cons] at hline
    rw [List.cons_append, splitDirective, if_neg hline.1]
    exact congrArg (b :: ·) (ih hline.2 _)

theorem splitDirective_splitLine (rest : List UInt8) : (splitDirective false rest).1 =
    (splitLine rest).1 ++
      (splitDirective (isContinued (splitLine rest).1) (splitLine rest).2).1 := by
  have hline : ∀ b ∈ (splitLine rest).1, b ≠ newline := fun b hb => by
    simpa using List.mem_takeWhile_imp hb
  conv_lhs => rw [← bytes_splitLine rest]
  rw [splitDirective_line hline, isContinued_eq_foldl]

theorem directiveEnd_append (h : bytes = front ++ rest) (hi : i = front.length) :
    directiveEnd bytes i = .ok (i + (splitDirective false rest).1.length) := by
  refine loop_eq_ok (R := fun pos stop => ∃ front rest, bytes = front ++ rest ∧
    pos = front.length ∧ stop = pos + (splitDirective false rest).1.length) ?_
    ⟨front, rest, h, hi, rfl⟩
  rintro pos _ ⟨front, rest, hbytes, hpos, rfl⟩
  have hsplit := bytes_splitLine rest
  have hdirective := splitDirective_splitLine rest
  have hhead := head_splitLine rest
  have hfind := find_newline hbytes hpos
  generalize (splitLine rest).1 = line at *
  generalize (splitLine rest).2 = back at *
  subst hsplit
  have hslice : slice bytes pos (pos + line.length) = .ok line :=
    slice_middle hbytes hpos (by omega)
  have hlength : bytes.length = pos + line.length + back.length := by
    rw [hbytes, hpos, List.length_append, List.length_append, Nat.add_assoc]
  simp only [hfind, hslice, ok_bind, pure_eq_ok, hdirective, List.length_append]
  cases back with
  | nil => exact .inl (by simp [hlength, splitDirective])
  | cons b back =>
    obtain rfl := hhead b rfl
    cases hcontinued : isContinued line with
    | false => exact .inl (by simp [splitDirective])
    | true =>
      refine .inr ⟨pos + line.length + 1, by simp [hlength], ?_, front ++ line ++ [newline], back,
        by simp [hbytes], by simp [hpos, Nat.add_assoc], ?_⟩
      · rw [List.length_cons] at hlength
        omega
      · simp only [splitDirective, if_true, List.length_cons]
        omega

theorem length_splitComment (bs : List UInt8) : (splitComment bs).1.length =
    match (bs.zip bs.tail).findIdx? (· == (star, slash)) with
    | some offset => offset + 2
    | none => bs.length := by
  fun_induction splitComment bs with
  | case1 => rfl
  | case2 b => rfl
  | case3 b c rest h =>
    obtain ⟨rfl, rfl⟩ := h
    simp [List.findIdx?_cons]
  | case4 b c rest h comment rest' hcut ih =>
    rw [hcut] at ih
    have hne : ((b, c) == (star, slash)) = false := by
      rw [beq_eq_false_iff_ne, ne_eq, Prod.mk.injEq]
      exact h
    rw [List.tail_cons] at ih
    rw [List.tail_cons, List.zip_cons_cons, List.findIdx?_cons, hne, List.length_cons, ih]
    cases ((c :: rest).zip rest).findIdx? (· == (star, slash)) <;> rfl

theorem commentEnd_append {b c : UInt8} (h : bytes = front ++ b :: c :: rest)
    (hi : i = front.length) :
    commentEnd bytes i = .ok (i + 2 + (splitComment rest).1.length) := by
  have hinside : bytes = front ++ [b, c] ++ rest := by rw [h, List.append_assoc]; rfl
  have hslice : sliceFrom bytes (i + 2) = .ok rest := sliceFrom_append hinside (by simp [hi])
  rw [commentEnd, hslice, ok_bind, length_splitComment]
  cases (rest.zip rest.tail).findIdx? (· == (star, slash)) with
  | some offset => rfl
  | none =>
    simp only [pure_eq_ok, h, hi, List.length_append, List.length_cons, Except.ok.injEq]
    omega

section Literal

variable {quote b : UInt8} {bs : List UInt8}

theorem splitLiteral_of_stop (h : b = quote ∨ b = newline) :
    (splitLiteral quote (b :: bs)).1 = [] := by
  rw [splitLiteral.eq_def]
  rcases h with rfl | rfl
  · simp
  · simp only [if_true]
    split <;> rfl

theorem splitLiteral_of_backslash (h : ¬(backslash = quote ∨ backslash = newline)) :
    (splitLiteral quote (backslash :: bs)).1 =
      backslash :: (bs.head?.toList ++ (splitLiteral quote bs.tail).1) := by
  rw [not_or] at h
  rw [splitLiteral.eq_def]
  cases bs <;> simp [h.1, h.2, splitLiteral]

theorem splitLiteral_of_other (h : ¬(b = quote ∨ b = newline)) (hb : b ≠ backslash) :
    (splitLiteral quote (b :: bs)).1 = b :: (splitLiteral quote bs).1 := by
  rw [not_or] at h
  rw [splitLiteral.eq_def]
  simp [h.1, h.2, hb]

end Literal

theorem exists_literalEnd (quote : UInt8) (h : bytes = front ++ rest) (hi : i = front.length) :
    ∃ stop, literalEnd bytes quote i = .ok stop ∧
      min stop bytes.length = i + (splitLiteral quote rest).1.length := by
  -- An escape at the end goes behind the text, where nothing is left to be read.
  refine loop_spec (I := fun pos => ∃ front rest', bytes = front ++ rest' ∧
    min pos bytes.length = front.length ∧ front.length + (splitLiteral quote rest').1.length =
      i + (splitLiteral quote rest).1.length) ?_ ⟨front, rest, h, ?_, by rw [hi]⟩
  swap
  · rw [h, hi, List.length_append]
    omega
  rintro pos ⟨front, rest', hbytes, hpos, hstop⟩
  have hlength : bytes.length = front.length + rest'.length := by rw [hbytes, List.length_append]
  cases rest' with
  | nil =>
    refine .inl ⟨pos, if_neg ?_, ?_⟩
    · rw [List.length_nil] at hlength
      omega
    · rw [hpos, ← hstop]
      rfl
  | cons b rest' =>
    rw [List.length_cons] at hlength
    have hlt : pos < bytes.length := by omega
    obtain rfl : pos = front.length := by omega
    rw [if_pos hlt, elementAt_middle hbytes rfl, ok_bind]
    by_cases hends : b = quote ∨ b = newline
    · rw [splitLiteral_of_stop hends] at hstop
      exact .inl ⟨front.length, if_pos hends, by rw [hpos, ← hstop]; rfl⟩
    rw [if_neg hends]
    by_cases hb : b = backslash
    · subst hb
      rw [splitLiteral_of_backslash hends, List.length_cons, List.length_append] at hstop
      refine .inr ⟨front.length + 2, if_pos rfl, by omega,
        front ++ backslash :: rest'.head?.toList, rest'.tail, by cases rest' <;> simp [hbytes], ?_⟩
      cases rest' <;> simp at hstop hlength ⊢ <;> omega
    · rw [splitLiteral_of_other hends hb, List.length_cons] at hstop
      refine .inr ⟨front.length + 1, if_neg hb, by omega, front ++ [b], rest', by simp [hbytes], ?_⟩
      simp
      omega

/-! ### Lexemes and margins -/

theorem blank_append {part : List UInt8} {stop : Nat} (h : bytes = done ++ (part ++ rest))
    (hi : i = done.length) (hstop : stop = done.length + part.length) :
    blank bytes i stop = .ok (done ++ part.map (fun b => (Cell.blanked b).code) ++ rest) := by
  rw [blank, slice_middle h hi hstop, ok_bind, pure_eq_ok, h, hi, hstop,
    List.take_left' rfl, ← List.append_assoc, List.drop_left' (List.length_append ..)]

/-- The lexemes as code. -/
def codes (ls : List Lexeme) : List UInt8 :=
  (ls.flatMap Lexeme.cells).map Cell.code

theorem codes_append (ls ls' : List Lexeme) : codes (ls ++ ls') = codes ls ++ codes ls' := by
  rw [codes, List.flatMap_append, List.map_append]
  rfl

theorem length_codes (ls : List Lexeme) : (codes ls).length = (ls.flatMap Lexeme.bytes).length := by
  rw [codes, List.length_map, length_flatMap_cells, size]

theorem codes_code (bs : List UInt8) : codes (bs.map .code) = bs := by
  induction bs with
  | nil => rfl
  | cons b bs ih => exact congrArg (b :: ·) ih

theorem flatMap_bytes_code (bs : List UInt8) : (bs.map Lexeme.code).flatMap Lexeme.bytes = bs := by
  induction bs with
  | nil => rfl
  | cons b bs ih => exact congrArg (b :: ·) ih

section Margin

variable {margin : List UInt8} (hmargin : ∀ b ∈ margin, isLineBlank b)

include hmargin in
theorem splitBlanks_margin (hrest : ∀ b ∈ rest.head?, isLineBlank b = false) :
    splitBlanks (margin ++ rest) = (margin, rest) := by
  obtain ⟨htake, hdrop⟩ := takeWhile_replace hmargin hrest
  rw [splitBlanks, htake, hdrop]

include hmargin in
theorem lexemesFrom_margin_hash (hrest : rest.head? = some hash) :
    lexemesFrom true (margin ++ rest) = .directive (margin ++ (splitDirective false rest).1) ::
      lexemesFrom false (splitDirective false rest).2 := by
  have hblanks : splitBlanks (margin ++ rest) = (margin, rest) := by
    refine splitBlanks_margin hmargin fun b hb => ?_
    obtain rfl := Option.mem_unique hb hrest
    rfl
  rw [lexemesFrom_of_hash (by rw [hblanks, hrest]), hblanks]

include hmargin in
theorem lexemesFrom_margin_code (hrest : ∀ b ∈ rest.head?, b ≠ hash ∧ isLineBlank b = false) :
    lexemesFrom true (margin ++ rest) = margin.map .code ++ lexemesFrom false rest := by
  have hblanks := splitBlanks_margin hmargin fun b hb => (hrest b hb).2
  have hhash : (splitBlanks (margin ++ rest)).2.head? ≠ some hash := by
    rw [hblanks]
    exact fun hhash => (hrest hash hhash).1 rfl
  rw [lexemesFrom_of_not_hash hhash, hblanks]

end Margin

/-! ### What a round keeps -/

section Rounds

variable {m m' : Masking} {result : List UInt8 × List Declaration} {lineStart lineStart' : Bool}
  {part margin : List UInt8} {b : UInt8}

/-- The lexer stands behind `front`: up to there the copy is masked, and from there on the lexemes
    make up the result. -/
structure At (bytes : List UInt8) (result : List UInt8 × List Declaration) (m : Masking)
    (lineStart : Bool) (front rest done : List UInt8) : Prop where
  bytes_eq : bytes = front ++ rest
  masked_eq : m.masked = done ++ rest
  length_done : done.length = front.length
  result_eq : result = (done ++ codes (lexemesFrom lineStart rest),
    m.directives ++ directivesFrom front.length (lexemesFrom lineStart rest))

/-- The lexer is where the round is, and whether the line starts here makes no difference. -/
def InCode (bytes : List UInt8) (result : List UInt8 × List Declaration) (m : Masking) : Prop :=
  ∃ front rest done, At bytes result m false front rest done ∧ m.place = front.length ∧
    (m.atLineStart → ∀ b ∈ rest.head?, b ≠ hash ∧ isLineBlank b = false)

/-- The lexer is where the line starts, and only blanks are between it and the round. -/
def InMargin (bytes : List UInt8) (result : List UInt8 × List Declaration) (m : Masking) : Prop :=
  ∃ front margin rest done, At bytes result m true front (margin ++ rest) done ∧
    m.place = front.length + margin.length ∧ m.lineStart = front.length ∧
      m.atLineStart = true ∧ ∀ b ∈ margin, isLineBlank b

/-- A round ends further on, and the rest still makes up the result. -/
def GetsOn (bytes : List UInt8) (result : List UInt8 × List Declaration) (m : Masking)
    (out : Checked Masking) : Prop :=
  ∃ m', out = .ok m' ∧ m.place < m'.place ∧ (InCode bytes result m' ∨ InMargin bytes result m')

/-- The lexer goes on over some lexemes, once these are masked and their directives noted. -/
theorem At.advance (part : List UInt8) (ls : List Lexeme)
    (h : At bytes result m lineStart front (part ++ rest) done)
    (hcut : lexemesFrom lineStart (part ++ rest) = ls ++ lexemesFrom lineStart' rest)
    (hbytes : ls.flatMap Lexeme.bytes = part) (hmasked : m'.masked = done ++ codes ls ++ rest)
    (hdirectives : m'.directives = m.directives ++ directivesFrom front.length ls) :
    At bytes result m' lineStart' (front ++ part) rest (done ++ codes ls) where
  bytes_eq := by rw [h.bytes_eq, List.append_assoc]
  masked_eq := hmasked
  length_done := by
    rw [List.length_append, List.length_append, h.length_done, length_codes, hbytes]
  result_eq := by
    rw [h.result_eq, hcut, codes_append, directivesFrom_append, size, hbytes, hdirectives,
      List.length_append, List.append_assoc, List.append_assoc]

theorem At.place_lt_iff (h : At bytes result m lineStart front rest done)
    (hplace : m.place = front.length) : m.place < bytes.length ↔ rest ≠ [] := by
  rw [h.bytes_eq, List.length_append, hplace, ← List.length_pos_iff]
  omega

/-- Where neither a blank nor a directive follows, the margin is code. -/
theorem At.leave (h : At bytes result m true front (margin ++ rest) done)
    (hplace : m.place = front.length + margin.length) (hmargin : ∀ b ∈ margin, isLineBlank b)
    (hrest : ∀ b ∈ rest.head?, b ≠ hash ∧ isLineBlank b = false) : InCode bytes result m := by
  refine ⟨_, rest, _, h.advance margin _ (lexemesFrom_margin_code hmargin hrest)
    (flatMap_bytes_code margin) ?_ ?_, ?_, fun _ => hrest⟩
  · rw [codes_code, h.masked_eq, List.append_assoc]
  · rw [directivesFrom_eq_nil (by simp), List.append_nil]
  · rw [hplace, List.length_append]

/-! ### What a round passes -/

theorem At.getsOn_newline (h : At bytes result m false front (newline :: rest) done)
    (hplace : m.place = front.length) : GetsOn bytes result m (.ok m.passNewline) := by
  refine ⟨_, rfl, Nat.lt_succ_self _, .inr ⟨front ++ [newline], [], rest, done ++ codes [.newline],
    h.advance [newline] [.newline] (lexemesFrom_newline rest) rfl ?_ ?_,
    ?_, ?_, rfl, by simp⟩⟩
  · exact h.masked_eq.trans (List.append_cons ..)
  · exact (List.append_nil _).symm
  · simp [Masking.passNewline, hplace]
  · simp [Masking.passNewline, hplace]

theorem At.getsOn_code (h : At bytes result m false front (b :: rest) done)
    (hplace : m.place = front.length)
    (hcut : lexemesFrom false (b :: rest) = .code b :: lexemesFrom false rest)
    (hstart : m.atLineStart → Text.isBlankByte b = false) :
    GetsOn bytes result m (.ok (m.passCode b)) := by
  refine ⟨_, rfl, Nat.lt_succ_self _, .inl ⟨front ++ [b], rest, done ++ codes [.code b],
    h.advance [b] [.code b] hcut rfl ?_ ?_, ?_, fun hline => ?_⟩⟩
  · exact h.masked_eq.trans (List.append_cons ..)
  · exact (List.append_nil _).symm
  · simp [Masking.passCode, hplace]
  · rw [Masking.passCode, Bool.and_eq_true] at hline
    rw [hstart hline.1] at hline
    exact absurd hline.2 (by decide)

theorem At.getsOn_comment {l : Lexeme} {after : List UInt8} {stop : Nat}
    (h : At bytes result m false front rest done) (hplace : m.place = front.length)
    (hl : l = .lineComment (b :: part) ∨ l = .blockComment (b :: part))
    (hrest : b :: part ++ after = rest)
    (hcut : lexemesFrom false rest = l :: lexemesFrom false after)
    (hstop : stop = m.place + (b :: part).length) :
    GetsOn bytes result m (m.passComment stop) := by
  subst hrest hstop
  have hbytes : [l].flatMap Lexeme.bytes = b :: part := by
    rcases hl with rfl | rfl <;> simp [Lexeme.bytes]
  have hcodes : codes [l] = (b :: part).map (fun b => (Cell.blanked b).code) := by
    rcases hl with rfl | rfl <;> simp [codes, Lexeme.cells, Function.comp_def]
  have hdirectives : directivesFrom front.length [l] = [] := by
    rcases hl with rfl | rfl <;> rfl
  have hstart : m.place = done.length := hplace.trans h.length_done.symm
  rw [Masking.passComment, blank_append h.masked_eq hstart (by rw [hstart])]
  refine ⟨_, rfl, Nat.lt_add_of_pos_right (Nat.succ_pos _), .inl ⟨front ++ (b :: part), after,
    done ++ codes [l], h.advance (b :: part) [l] hcut hbytes ?_ ?_, ?_,
    fun hline => absurd hline Bool.false_ne_true⟩⟩
  · rw [hcodes]
  · rw [hdirectives, List.append_nil]
  · rw [List.length_append, hplace]

/-- A literal ends with its quote or before a newline; so what follows shows whether it is
    closed. -/
theorem head_eq_quote_iff {bs body after : List UInt8} {closed : Bool}
    (hb : b = doubleQuote ∨ b = singleQuote) (h : splitLiteral b bs = (body, closed, after)) :
    ((if closed then [b] else []) ++ after).head? = some b ↔ closed = true := by
  cases closed with
  | true => simp
  | false =>
    refine iff_of_false (fun hquote => ?_) Bool.false_ne_true
    obtain rfl := head_splitLiteral h b hquote
    rcases hb with hb | hb <;> exact absurd hb (by decide)

theorem At.getsOn_literal (h : At bytes result m false front (b :: rest) done)
    (hplace : m.place = front.length) (hb : b = doubleQuote ∨ b = singleQuote) :
    GetsOn bytes result m (m.passLiteral bytes b) := by
  have hbytes : bytes = front ++ [b] ++ rest := by rw [h.bytes_eq, ← List.append_cons]
  have hnext : m.place + 1 = (front ++ [b]).length := by
    rw [hplace, List.length_append, List.length_singleton]
  obtain ⟨stop, hstop, hmin⟩ := exists_literalEnd b hbytes hnext
  have hcut : lexemesFrom false (b :: rest) = _ := lexemesFrom_quote hb
  have hrest := bytes_splitLiteral b rest
  rcases hsplit : splitLiteral b rest with ⟨body, closed, after⟩
  rw [hsplit] at hmin hcut hrest
  simp only at hmin hcut hrest
  have hclosed := head_eq_quote_iff hb hsplit
  generalize hclosing : (if closed then [b] else []) = closing at hrest hclosed
  subst hrest
  have hmasked : m.masked = done ++ [b] ++ (body ++ (closing ++ after)) := by
    rw [h.masked_eq, ← List.append_cons]
  have hblank : blank m.masked (m.place + 1) (m.place + 1 + body.length) = _ :=
    blank_append hmasked (by simp [hplace, h.length_done]) (by simp [hplace, h.length_done])
  have hpeek := peek_append (i := m.place + 1 + body.length)
    (hbytes.trans (List.append_assoc ..).symm) (by rw [hnext]; exact (List.length_append ..).symm)
  rw [Masking.passLiteral, hstop, ok_bind]
  simp only [hmin, hblank, hpeek, ok_bind, pure_eq_ok, hclosed]
  have hpart : b :: (body ++ (closing ++ after)) = b :: body ++ closing ++ after := by simp
  rw [hpart] at h hcut
  refine ⟨_, rfl, by simp only; split <;> omega, .inl ⟨front ++ (b :: body ++ closing), after,
    done ++ codes [.literal b body closed],
    h.advance (b :: body ++ closing) [.literal b body closed] hcut ?_ ?_
      (List.append_nil _).symm, ?_,
    fun hline => absurd hline Bool.false_ne_true⟩⟩
  · simp [Lexeme.bytes, hclosing]
  · rw [← hclosing]
    cases closed <;> simp [codes, Lexeme.cells, Function.comp_def, Cell.plain]
  · rw [← hclosing]
    cases closed <;> simp [hplace] <;> omega

theorem At.getsOn_directive (h : At bytes result m true front (margin ++ rest) done)
    (hplace : m.place = front.length + margin.length) (hline : m.lineStart = front.length)
    (hmargin : ∀ b ∈ margin, isLineBlank b) (hrest : rest.head? = some hash) :
    GetsOn bytes result m (m.passDirective bytes) := by
  have hcut := lexemesFrom_margin_hash hmargin hrest
  have hbytes : bytes = front ++ margin ++ rest := by rw [h.bytes_eq, List.append_assoc]
  have hend := directiveEnd_append hbytes (hplace.trans (List.length_append ..).symm)
  have hhead := head_splitDirective false rest
  have hne : (splitDirective false rest).1 ≠ [] := by
    obtain ⟨rest, rfl⟩ := List.head?_eq_some_iff.1 hrest
    obtain ⟨directive, hdirective⟩ := splitDirective_hash rest
    simp [hdirective]
  have hrest := bytes_splitDirective false rest
  generalize (splitDirective false rest).1 = directive at *
  generalize (splitDirective false rest).2 = after at *
  subst hrest
  rw [← List.append_assoc] at h hcut
  have hslice : slice bytes m.lineStart (m.place + directive.length) = .ok (margin ++ directive) :=
    slice_middle h.bytes_eq hline (by rw [hplace, List.length_append, Nat.add_assoc])
  have hblank : blank m.masked m.lineStart (m.place + directive.length) = _ :=
    blank_append h.masked_eq (hline.trans h.length_done.symm)
      (by rw [hplace, h.length_done, List.length_append, Nat.add_assoc])
  rw [Masking.passDirective, hend, ok_bind, hslice, ok_bind]
  simp only [hblank, ok_bind, pure_eq_ok]
  refine ⟨_, rfl, Nat.lt_add_of_pos_right (List.length_pos_iff.2 hne),
    .inl ⟨front ++ (margin ++ directive), after, done ++ codes [.directive (margin ++ directive)],
      h.advance _ [.directive (margin ++ directive)] hcut (by simp [Lexeme.bytes]) ?_ ?_,
      ?_, fun _ b hb => ?_⟩⟩
  · simp [codes, Lexeme.cells, Function.comp_def]
  · rw [hline]
    rfl
  · simp [hplace, Nat.add_assoc]
  -- The line of the directive still counts as its start, but it ends here.
  · rw [hhead b hb]
    decide

/-- In code, a round passes a lexeme. -/
theorem InCode.getsOn_pass (h : InCode bytes result m) (hlt : m.place < bytes.length) :
    GetsOn bytes result m (m.pass bytes) := by
  obtain ⟨front, rest, done, h, hplace, hstart⟩ := h
  obtain ⟨b, rest, rfl⟩ := List.exists_cons_of_ne_nil ((h.place_lt_iff hplace).1 hlt)
  have hnext : bytes[m.place + 1]? = rest.head? := by
    rw [h.bytes_eq, hplace]
    cases rest <;> simp
  rw [Masking.pass, elementAt_middle h.bytes_eq hplace, ok_bind]
  simp only [hnext, pure_eq_ok]
  by_cases hnewline : b = newline
  · subst hnewline
    rw [if_pos rfl]
    exact h.getsOn_newline hplace
  have hhash : ¬(m.atLineStart = true ∧ b = hash) := fun hh => (hstart hh.1 b rfl).1 hh.2
  rw [if_neg hnewline, if_neg hhash]
  by_cases hline : b = slash ∧ rest.head? = some slash
  · rw [if_pos hline, find_newline h.bytes_eq hplace, ok_bind]
    refine h.getsOn_comment hplace (.inl rfl) (congrArg (b :: ·) (bytes_splitLine rest))
      (lexemesFrom_slash_slash hline) ?_
    rw [splitLine, List.takeWhile_cons_of_pos (by simp [hnewline])]
    rfl
  rw [if_neg hline]
  by_cases hblock : b = slash ∧ rest.head? = some star
  · have hcut := lexemesFrom_slash_star hblock
    obtain ⟨rest, rfl⟩ := List.head?_eq_some_iff.1 hblock.2
    rw [if_pos hblock, commentEnd_append h.bytes_eq hplace, ok_bind]
    refine h.getsOn_comment hplace (.inr rfl)
      (congrArg (b :: star :: ·) (bytes_splitComment rest)) hcut ?_
    rw [List.tail_cons, List.length_cons, List.length_cons, Nat.add_assoc, Nat.add_comm 2]
  rw [if_neg hblock]
  by_cases hquote : b = doubleQuote ∨ b = singleQuote
  · rw [if_pos hquote]
    exact h.getsOn_literal hplace hquote
  rw [if_neg hquote]
  refine h.getsOn_code hplace (lexemesFrom_other hnewline hline hblock hquote) fun hh => ?_
  have hblank := (hstart hh b rfl).2
  simpa [isLineBlank, hnewline] using hblank

/-- In the margin of a line, a round passes a blank, or the directive of the line. -/
theorem InMargin.getsOn_pass (h : InMargin bytes result m) (hlt : m.place < bytes.length) :
    GetsOn bytes result m (m.pass bytes) := by
  obtain ⟨front, margin, rest, done, h, hplace, hline, hstart, hmargin⟩ := h
  have hbytes : bytes = front ++ margin ++ rest := by rw [h.bytes_eq, List.append_assoc]
  cases rest with
  | nil =>
    rw [hbytes, List.append_nil, List.length_append] at hlt
    omega
  | cons b rest =>
    have helement := elementAt_middle hbytes (hplace.trans (List.length_append ..).symm)
    by_cases hblank : isLineBlank b
    · obtain ⟨hslash, hdouble, hsingle, hhash⟩ := isInert_of_isLineBlank hblank
      rw [isLineBlank, Bool.and_eq_true, bne_iff_ne] at hblank
      refine ⟨m.passCode b, ?_, Nat.lt_succ_self _, .inr ⟨front, margin ++ [b], rest, done, ?_,
        ?_, hline, ?_, ?_⟩⟩
      · simp [Masking.pass, helement, hslash, hdouble, hsingle, hhash, hblank]
      · rw [← List.append_cons]
        exact ⟨h.bytes_eq, h.masked_eq, h.length_done, h.result_eq⟩
      · simp [Masking.passCode, hplace, Nat.add_assoc]
      · simp [Masking.passCode, hstart, hblank]
      · simpa [or_imp, forall_and, isLineBlank, hblank] using hmargin
    by_cases hhash : b = hash
    · subst hhash
      rw [Masking.pass, helement, ok_bind]
      simp only
      rw [if_neg (by decide), if_pos ⟨hstart, trivial⟩]
      exact h.getsOn_directive hplace hline hmargin rfl
    · refine (h.leave hplace hmargin ?_).getsOn_pass hlt
      rintro _ ⟨⟩
      exact ⟨hhash, by simpa using hblank⟩

/-- Behind the last byte, all is done. -/
theorem InCode.result_eq (h : InCode bytes result m) (hlt : ¬m.place < bytes.length) :
    result = (m.masked, m.directives) := by
  obtain ⟨front, rest, done, h, hplace, -⟩ := h
  obtain rfl : rest = [] := not_not.1 (mt (h.place_lt_iff hplace).2 hlt)
  rw [h.result_eq, lexemesFrom_nil, h.masked_eq]
  simp [codes, directivesFrom]

theorem InMargin.result_eq (h : InMargin bytes result m) (hlt : ¬m.place < bytes.length) :
    result = (m.masked, m.directives) := by
  obtain ⟨front, margin, rest, done, h, hplace, -, -, hmargin⟩ := h
  obtain rfl : rest = [] := by
    rw [h.bytes_eq, List.length_append, List.length_append] at hlt
    exact List.length_eq_zero_iff.1 (by omega)
  exact (h.leave hplace hmargin (by simp)).result_eq hlt

end Rounds

/-- No check fails, and what is left is the code of the text and its directives. -/
theorem mask_eq_ok (bytes : List UInt8) :
    mask bytes = .ok ((cells bytes).map Cell.code, directivesFrom 0 (lexemes bytes)) := by
  refine loop_eq_ok (R := fun m result => InCode bytes result m ∨ InMargin bytes result m) ?_
    (.inr ⟨[], [], bytes, [], ⟨rfl, rfl, rfl, rfl⟩, rfl, rfl, rfl, by simp⟩)
  intro m result hm
  by_cases hlt : m.place < bytes.length
  · obtain ⟨m', hpass, hless, hm'⟩ := hm.elim (·.getsOn_pass hlt) (·.getsOn_pass hlt)
    rw [if_pos hlt, hpass]
    exact .inr ⟨m', rfl, by omega, hm'⟩
  · rw [if_neg hlt, hm.elim (·.result_eq hlt) (·.result_eq hlt)]
    exact .inl rfl

end TestBench.Source.Offset
