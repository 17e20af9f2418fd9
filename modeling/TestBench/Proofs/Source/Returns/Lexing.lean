import TestBench.Proofs.Source.Directive

/-!
# Lexemes and carriage returns

A text and the same text with a carriage return in front of every newline are cut into lexemes in
step. In front of a newline in code, the carriage return is a lexeme of its own. Elsewhere it
belongs to the lexeme that the newline ends or is part of. A directive goes on behind it, as blanks
do not count between a backslash and the end of a line.

Literals are the exception. A backslash takes one byte with it, the newline in one text and the
carriage return in the other one, so that only the former literal goes on in the next line. So
it is assumed that no literal does.

* `splitDirective_returned`, `splitComment_returned`, `splitLiteral_returned`: cuts correspond;
* `lexemesFrom_returned`: so do all lexemes.
-/

namespace TestBench.Source

open Utf8

/-- The byte of a carriage return. -/
abbrev carriageReturn : UInt8 := 0x0D

/-- Bytes with a carriage return in front of every newline. -/
def returned : List UInt8 → List UInt8
  | [] => []
  | b :: bs => if b = newline then carriageReturn :: newline :: returned bs else b :: returned bs

/-- Whether cells are the same but for carriage returns in front of newlines, which are blank as
    code. -/
inductive Returned : List Cell → List Cell → Prop
  | nil : Returned [] []
  | cons (c : Cell) {l l' : List Cell} (h : Returned l l') : Returned (c :: l) (c :: l')
  | insert {x : Cell} (hx : x.raw = carriageReturn) (hblank : x.isBlank) {l l' : List Cell}
    (h : Returned l l') : Returned (.plain newline :: l) (x :: .plain newline :: l')

/-! ### Bytes -/

section Bytes

variable {b : UInt8} {bs cs : List UInt8}

theorem returned_newline (bs : List UInt8) :
    returned (newline :: bs) = carriageReturn :: newline :: returned bs := by
  rw [returned, if_pos rfl]

theorem returned_cons (h : b ≠ newline) (bs : List UInt8) :
    returned (b :: bs) = b :: returned bs := by
  rw [returned, if_neg h]

theorem returned_append (bs cs : List UInt8) :
    returned (bs ++ cs) = returned bs ++ returned cs := by
  induction bs with
  | nil => rfl
  | cons b bs ih =>
    rw [List.cons_append, returned, returned]
    split <;> rw [ih] <;> rfl

/-- Bytes on one line stay as they are. -/
theorem returned_of_not_mem (h : newline ∉ bs) : returned bs = bs := by
  induction bs with
  | nil => rfl
  | cons b bs ih =>
    rw [List.mem_cons, not_or] at h
    rw [returned_cons (Ne.symm h.1), ih h.2]

/-- What comes first is the same unless it is a newline. -/
theorem head_returned (hn : b ≠ newline) (hc : b ≠ carriageReturn) :
    (returned bs).head? = some b ↔ bs.head? = some b := by
  cases bs with
  | nil => exact Iff.rfl
  | cons c bs =>
    rw [returned]
    split
    next h =>
      subst h
      exact iff_of_false (fun h => hc (Option.some.inj h).symm) fun h => hn (Option.some.inj h).symm
    next => exact Iff.rfl

end Bytes

/-- How the end of a lexeme corresponds: a carriage return is put to it if a newline is behind it,
    and what is behind that corresponds again. -/
inductive ReturnedEnd : List UInt8 → List UInt8 → List UInt8 → Prop
  | nil : ReturnedEnd [] [] []
  | newline (rest : List UInt8) :
    ReturnedEnd (newline :: rest) [carriageReturn] (Source.newline :: returned rest)

/-! ### Cuts -/

theorem splitDirective_returned (continued : Bool) (bs : List UInt8) :
    ∃ e rest, ReturnedEnd (splitDirective continued bs).2 e rest ∧
      splitDirective continued (returned bs) =
        (returned (splitDirective continued bs).1 ++ e, rest) := by
  induction bs generalizing continued with
  | nil => exact ⟨[], [], .nil, rfl⟩
  | cons b bs ih =>
    by_cases hb : b = newline
    · subst hb
      have hreturn : splitDirective continued (returned (newline :: bs)) =
          (carriageReturn :: (splitDirective continued (newline :: returned bs)).1,
            (splitDirective continued (newline :: returned bs)).2) := by
        rw [returned_newline, splitDirective.eq_2, if_neg (by decide), if_pos (by decide)]
      rw [hreturn]
      simp only [splitDirective]
      cases continued with
      | false => exact ⟨_, _, .newline bs, rfl⟩
      | true =>
        obtain ⟨e, rest, hend, hcut⟩ := ih false
        refine ⟨e, rest, hend, ?_⟩
        simp [hcut, returned_newline]
    · rw [returned_cons hb, splitDirective, if_neg hb, splitDirective, if_neg hb]
      obtain ⟨e, rest, hend, hcut⟩ :=
        ih (if Text.isBlankByte b then continued else b == backslash)
      exact ⟨e, rest, hend, by simp [hcut, returned_cons hb]⟩

theorem splitLine_returned (bs : List UInt8) :
    ∃ e rest, ReturnedEnd (splitLine bs).2 e rest ∧
      splitLine (returned bs) = ((splitLine bs).1 ++ e, rest) := by
  induction bs with
  | nil => exact ⟨[], [], .nil, rfl⟩
  | cons b bs ih =>
    by_cases hb : b = newline
    · subst hb
      rw [returned_newline]
      exact ⟨_, _, .newline bs, rfl⟩
    · obtain ⟨e, rest, hend, hcut⟩ := ih
      have hcons : ∀ cs, splitLine (b :: cs) = (b :: (splitLine cs).1, (splitLine cs).2) := by
        intro cs
        simp [splitLine, hb]
      rw [returned_cons hb, hcons, hcons, hcut]
      exact ⟨e, rest, hend, rfl⟩

theorem splitComment_cons {b : UInt8} {bs : List UInt8}
    (h : ¬(b = star ∧ bs.head? = some slash)) :
    splitComment (b :: bs) = (b :: (splitComment bs).1, (splitComment bs).2) := by
  cases bs with
  | nil => rfl
  | cons c bs =>
    rw [splitComment, if_neg fun hc => h ⟨hc.1, by rw [hc.2]; rfl⟩]

theorem splitComment_returned (bs : List UInt8) :
    splitComment (returned bs) = (returned (splitComment bs).1, returned (splitComment bs).2) := by
  induction bs with
  | nil => rfl
  | cons b bs ih =>
    by_cases hb : b = newline
    · subst hb
      rw [returned_newline, splitComment_cons fun h => absurd h.1 (by decide),
        splitComment_cons fun h => absurd h.1 (by decide), ih,
        splitComment_cons fun h => absurd h.1 (by decide), returned_newline]
    by_cases hclose : b = star ∧ bs.head? = some slash
    · obtain ⟨rfl, hhead⟩ := hclose
      obtain ⟨rest, rfl⟩ := List.head?_eq_some_iff.1 hhead
      rw [returned_cons hb, returned_cons (by decide), splitComment, if_pos ⟨rfl, rfl⟩,
        splitComment, if_pos ⟨rfl, rfl⟩]
      rfl
    · have hclose' : ¬(b = star ∧ (returned bs).head? = some slash) := by
        rwa [head_returned (by decide) (by decide)]
      rw [returned_cons hb, splitComment_cons hclose', splitComment_cons hclose, ih,
        returned_cons hb]

/-- A literal that a newline ends goes on over a byte of no meaning in front of it. -/
theorem splitLiteral_insert {q x : UInt8} (hx : x ≠ q ∧ x ≠ newline ∧ x ≠ backslash)
    {bs body rest : List UInt8} (hq : q ≠ newline)
    (h : splitLiteral q bs = (body, false, newline :: rest)) (r : List UInt8) :
    splitLiteral q (body ++ x :: newline :: r) = (body ++ [x], false, newline :: r) := by
  fun_induction splitLiteral q bs generalizing body rest
  case case1 | case2 | case4 => simp at h
  case case3 =>
    obtain ⟨rfl, -⟩ := by simpa using h
    have hend : splitLiteral q (newline :: r) = ([], false, newline :: r) := by
      rw [splitLiteral.eq_def]
      simp [hq.symm]
    rw [List.nil_append, splitLiteral.eq_def]
    simp [hx, hend]
  case case5 | case6 =>
    simp only [Prod.mk.injEq] at h
    obtain ⟨rfl, rfl, rfl⟩ := h
    simp only [List.cons_append]
    rw [splitLiteral.eq_def]
    simp_all

/-- A literal that ends in the line in which it starts does so in both texts. -/
theorem splitLiteral_returned {q : UInt8} (hq : q = doubleQuote ∨ q = singleQuote)
    {bs body rest : List UInt8} {closed : Bool} (h : splitLiteral q bs = (body, closed, rest))
    (hbody : newline ∉ body) :
    (closed = true ∧ splitLiteral q (returned bs) = (body, true, returned rest)) ∨
      closed = false ∧ ∃ e rest', ReturnedEnd rest e rest' ∧
        splitLiteral q (returned bs) = (body ++ e, false, rest') := by
  have hq' : q ≠ newline ∧ carriageReturn ≠ q := by
    rcases hq with rfl | rfl <;> decide
  have hbytes := bytes_splitLiteral q bs
  rw [h] at hbytes
  subst hbytes
  rw [returned_append, returned_of_not_mem hbody]
  cases closed with
  | true =>
    rw [if_pos rfl, List.singleton_append, returned_cons hq'.1]
    exact .inl ⟨rfl, splitLiteral_replace h (returned rest)⟩
  | false =>
    rw [if_neg Bool.false_ne_true, List.nil_append] at h ⊢
    refine .inr ⟨rfl, ?_⟩
    cases rest with
    | nil => exact ⟨[], [], .nil, by rw [List.append_nil]; exact splitLiteral_replace_open h rfl⟩
    | cons b rest =>
      obtain rfl := head_splitLiteral h b rfl
      rw [returned_newline]
      exact ⟨_, _, .newline rest,
        splitLiteral_insert ⟨hq'.2, by decide, by decide⟩ hq'.1 h (returned rest)⟩

/-! ### Cells -/

namespace Returned

variable {l l' m m' : List Cell}

theorem refl (l : List Cell) : Returned l l := by
  induction l with
  | nil => exact .nil
  | cons c l ih => exact .cons c ih

theorem append (h : Returned l l') (hm : Returned m m') : Returned (l ++ m) (l' ++ m') := by
  induction h with
  | nil => exact hm
  | cons c _ ih => exact .cons c ih
  | insert hx hblank _ ih => exact .insert hx hblank ih

/-- Of what is no code, the carriage returns are blank. -/
theorem blanked (bs : List UInt8) :
    Returned (bs.map Cell.blanked) ((returned bs).map Cell.blanked) := by
  induction bs with
  | nil => exact .nil
  | cons b bs ih =>
    by_cases hb : b = newline
    · subst hb
      rw [returned_newline]
      exact .insert rfl (by decide) ih
    · rw [returned_cons hb]
      exact .cons _ ih

end Returned

/-! ### Texts -/

/-- A text without carriage returns. -/
def withoutReturns (s : String) : String :=
  String.ofList (s.toList.filter (· != '\r'))

theorem withoutReturns_ofList (cs : List Char) :
    withoutReturns (String.ofList cs) = String.ofList (cs.filter (· != '\r')) := by
  rw [withoutReturns, String.toList_ofList]

/-- What is read leniently is the same but for the carriage returns. -/
theorem filter_lossyFrom_returned (bs : List UInt8) :
    (lossyFrom .between (returned bs)).filter (· != '\r') =
      (lossyFrom .between bs).filter (· != '\r') := by
  induction hn : bs.length using Nat.strongRecOn generalizing bs with
  | _ n ih =>
  by_cases h : newline ∈ bs
  · obtain ⟨p, q, rfl, hp⟩ := List.eq_append_cons_of_mem h
    have hreturn : carriageReturn < 0x80 := by decide
    have hnewline : newline < 0x80 := by decide
    rw [List.length_append, List.length_cons] at hn
    rw [returned_append, returned_of_not_mem hp, returned_newline, lossyFrom_append_cons hreturn,
      lossyFrom_ascii hnewline, lossyFrom_append_cons hnewline, List.filter_append,
      List.filter_append, List.filter_cons_of_neg (by decide), List.filter_cons_of_pos (by decide),
      List.filter_cons_of_pos (by decide), ih _ (by omega) q rfl]
  · rw [returned_of_not_mem h]

/-- Taking off more of what is left out anyway makes no difference. -/
theorem filter_dropTail {α : Type} {p q : α → Bool} (h : ∀ c, p c → q c = false) (l : List α) :
    (Text.dropTail p l).filter q = l.filter q := by
  obtain ⟨tail, htail, hall⟩ := exists_of_dropTail p l
  have hnone : tail.filter q = [] :=
    List.filter_eq_nil_iff.2 fun c hc => by rw [h c (hall c hc)]; exact Bool.false_ne_true
  have hfilter := congrArg (List.filter q) htail
  rw [List.filter_append, hnone, List.append_nil] at hfilter
  exact hfilter.symm

/-- A directive reads the same but for carriage returns, also with one more at its end. -/
theorem withoutReturns_directiveText {ds e rest r : List UInt8} (h : ReturnedEnd rest e r) :
    withoutReturns (directiveText (returned ds ++ e)) = withoutReturns (directiveText ds) := by
  have hdrop : ∀ c : Char, (c == '\r') = true → (c != '\r') = false := by simp
  have hend : (lossyFrom .between (returned ds ++ e)).filter (· != '\r') =
      (lossyFrom .between (returned ds)).filter (· != '\r') := by
    cases h with
    | nil => rw [List.append_nil]
    | newline =>
      rw [lossyFrom_append_cons (by decide), List.filter_append]
      exact List.append_nil _
  rw [directiveText, directiveText, withoutReturns_ofList, withoutReturns_ofList,
    filter_dropTail hdrop, filter_dropTail hdrop, lossy, lossy, String.toList_ofList,
    String.toList_ofList, hend, filter_lossyFrom_returned]

/-! ### Lexemes -/

/-- The texts of the directives among lexemes. -/
def directiveTexts (ls : List Lexeme) : List String :=
  (directivesFrom 0 ls).map Declaration.text

theorem directiveTexts_append (ls ls' : List Lexeme) :
    directiveTexts (ls ++ ls') = directiveTexts ls ++ directiveTexts ls' := by
  rw [directiveTexts, directivesFrom_append, directivesFrom_add, List.map_append, List.map_map]
  rfl

/-- Whether lexemes are those of a text and of the same text with carriage returns: their cells are
    the same but for these, and so are the directives among them. -/
structure Corresponds (ls ls' : List Lexeme) : Prop where
  cells : Returned (ls.flatMap Lexeme.cells) (ls'.flatMap Lexeme.cells)
  directives : (directiveTexts ls').map withoutReturns = (directiveTexts ls).map withoutReturns

/-- Whether no literal goes on in the next line. -/
def OnLine (ls : List Lexeme) : Prop :=
  ∀ q body closed, .literal q body closed ∈ ls → newline ∉ body

namespace Corresponds

variable {ls ls' ms ms' : List Lexeme}

theorem refl (ls : List Lexeme) : Corresponds ls ls :=
  ⟨.refl _, rfl⟩

theorem append (h : Corresponds ls ls') (hm : Corresponds ms ms') :
    Corresponds (ls ++ ms) (ls' ++ ms') := by
  refine ⟨?_, ?_⟩
  · rw [List.flatMap_append, List.flatMap_append]
    exact h.cells.append hm.cells
  · rw [directiveTexts_append, directiveTexts_append, List.map_append, List.map_append,
      h.directives, hm.directives]

/-- The same lexeme in front. -/
theorem cons (l : Lexeme) (h : Corresponds ls ls') : Corresponds (l :: ls) (l :: ls') :=
  (refl [l]).append h

/-- In code, a carriage return is a lexeme of its own. -/
theorem newline (h : Corresponds ls ls') :
    Corresponds (.newline :: ls) (.code carriageReturn :: .newline :: ls') := by
  have hfirst : Corresponds [.newline] [.code carriageReturn, .newline] :=
    ⟨.insert rfl (by decide) .nil, rfl⟩
  exact hfirst.append h

/-- Elsewhere it belongs to the lexeme that the newline ends. -/
theorem ended {l l' : Lexeme} {cs : List Cell} {rest e r : List UInt8}
    (hcells : Returned l.cells cs) (hcells' : l'.cells = cs ++ e.map Cell.blanked)
    (htexts : (directiveTexts [l']).map withoutReturns = (directiveTexts [l]).map withoutReturns)
    (hend : ReturnedEnd rest e r)
    (hrest : ∀ bs, rest = Source.newline :: bs →
      Corresponds (lexemesFrom true bs) (lexemesFrom true (returned bs))) :
    Corresponds (l :: lexemesFrom false rest) (l' :: lexemesFrom false r) := by
  cases hend with
  | nil =>
    rw [List.map_nil, List.append_nil] at hcells'
    have hl : Corresponds [l] [l'] := by
      refine ⟨?_, htexts⟩
      rw [List.flatMap_singleton, List.flatMap_singleton, hcells']
      exact hcells
    exact hl.append (refl _)
  | newline bs =>
    rw [lexemesFrom_newline, lexemesFrom_newline]
    have hl : Corresponds [l, .newline] [l', .newline] := by
      refine ⟨?_, ?_⟩
      · simp only [List.flatMap_cons, List.flatMap_nil, hcells', List.append_assoc]
        exact hcells.append (.insert rfl (by decide) .nil)
      · rw [← List.singleton_append, ← List.singleton_append (l := [Lexeme.newline]),
          directiveTexts_append, directiveTexts_append, List.map_append, List.map_append, htexts]
    exact hl.append (hrest bs rfl)

end Corresponds

theorem noDirective_returned {bs : List UInt8} :
    NoDirective (returned bs) ↔ NoDirective bs := by
  induction bs with
  | nil => exact Iff.rfl
  | cons b bs ih =>
    by_cases hb : b = newline
    · subst hb
      rw [returned_newline]
      exact iff_of_true (noDirective_cons (by decide) fun _ => noDirective_of_newline (by simp))
        (noDirective_of_newline (by simp))
    · rw [returned_cons hb, NoDirective, NoDirective, List.dropWhile_cons, List.dropWhile_cons]
      split
      · exact ih
      · exact Iff.rfl

theorem OnLine.tail {l : Lexeme} {ls : List Lexeme} (h : OnLine (l :: ls)) : OnLine ls :=
  fun q body closed hm => h q body closed (List.mem_cons_of_mem l hm)

section Steps

/-- Whether the lexemes of shorter texts correspond. -/
def CorrespondsBelow (n : Nat) : Prop :=
  ∀ bs : List UInt8, bs.length < n → ∀ lineStart, OnLine (lexemesFrom lineStart bs) →
    Corresponds (lexemesFrom lineStart bs) (lexemesFrom lineStart (returned bs))

variable {n : Nat} (ih : CorrespondsBelow n)
include ih

/-- Behind a lexeme that a newline ends, the lexemes correspond from the next line on. -/
theorem CorrespondsBelow.nextLine {rest bs : List UInt8} (hrest : rest.length ≤ n)
    (h : OnLine (lexemesFrom false rest)) (heq : rest = newline :: bs) :
    Corresponds (lexemesFrom true bs) (lexemesFrom true (returned bs)) := by
  subst heq
  rw [List.length_cons] at hrest
  rw [lexemesFrom_newline] at h
  exact ih bs (by omega) true h.tail

/-- Where a line starts with a directive, so does that of the other text. -/
theorem CorrespondsBelow.directive {bs : List UInt8} (hn : bs.length = n) (h : ¬NoDirective bs)
    (hline : OnLine (lexemesFrom true bs)) :
    Corresponds (lexemesFrom true bs) (lexemesFrom true (returned bs)) := by
  obtain ⟨r, hr⟩ := List.head?_eq_some_iff.1 (not_not.1 h)
  have hblanks : ∀ b ∈ bs.takeWhile isLineBlank, isLineBlank b :=
    fun b hb => List.mem_takeWhile_imp hb
  have hbs : bs.takeWhile isLineBlank ++ hash :: r = bs := by
    rw [← hr, List.takeWhile_append_dropWhile]
  generalize bs.takeWhile isLineBlank = blanks at hblanks hbs
  subst hbs
  have hsame : returned blanks = blanks :=
    returned_of_not_mem fun hm => absurd (hblanks _ hm) (by decide)
  have hcut : ∀ l, splitBlanks (blanks ++ hash :: l) = (blanks, hash :: l) := by
    intro l
    have := takeWhile_replace hblanks (r := hash :: l) (by rintro _ ⟨⟩; decide)
    rw [splitBlanks, this.1, this.2]
  have hdirective : ∀ l, lexemesFrom true (blanks ++ hash :: l) =
      .directive (blanks ++ (splitDirective false (hash :: l)).1) ::
        lexemesFrom false (splitDirective false (hash :: l)).2 := by
    intro l
    rw [lexemesFrom_of_hash (by rw [hcut]; rfl), hcut]
  obtain ⟨e, rest, hend, hsplit⟩ := splitDirective_returned false (hash :: r)
  have hle := length_splitDirective_le false (hash :: r)
  rw [returned_append, hsame, returned_cons (by decide), hdirective, hdirective,
    ← returned_cons (by decide), hsplit]
  rw [hdirective] at hline
  rw [List.length_append] at hn
  refine .ended (Returned.blanked _) ?_ ?_ hend fun bs heq => ?_
  · rw [returned_append, hsame]
    simp [Lexeme.cells]
  · have htext :=
      @withoutReturns_directiveText (blanks ++ (splitDirective false (hash :: r)).1) _ _ _ hend
    rw [returned_append, hsame, List.append_assoc] at htext
    exact congrArg (fun t => [t]) htext
  · exact ih.nextLine (by omega) hline.tail heq

theorem CorrespondsBelow.lineComment {b : UInt8} {bs : List UInt8} (hn : (b :: bs).length ≤ n)
    (h : b = slash ∧ bs.head? = some slash) (hline : OnLine (lexemesFrom false (b :: bs))) :
    Corresponds (lexemesFrom false (b :: bs)) (lexemesFrom false (returned (b :: bs))) := by
  have h' : b = slash ∧ (returned bs).head? = some slash :=
    ⟨h.1, (head_returned (by decide) (by decide)).2 h.2⟩
  have hb : b ≠ newline := by rw [h.1]; decide
  obtain ⟨e, rest, hend, hsplit⟩ := splitLine_returned bs
  have hle := length_splitLine_le bs
  rw [List.length_cons] at hn
  rw [lexemesFrom_slash_slash h] at hline ⊢
  rw [returned_cons hb, lexemesFrom_slash_slash h', hsplit]
  refine .ended (.refl _) ?_ rfl hend fun bs heq => ?_
  · simp [Lexeme.cells]
  · exact ih.nextLine (by omega) hline.tail heq

theorem CorrespondsBelow.blockComment {b : UInt8} {bs : List UInt8} (hn : (b :: bs).length ≤ n)
    (h : b = slash ∧ bs.head? = some star) (hline : OnLine (lexemesFrom false (b :: bs))) :
    Corresponds (lexemesFrom false (b :: bs)) (lexemesFrom false (returned (b :: bs))) := by
  have h' : b = slash ∧ (returned bs).head? = some star :=
    ⟨h.1, (head_returned (by decide) (by decide)).2 h.2⟩
  have hb : b ≠ newline := by rw [h.1]; decide
  obtain ⟨bs, rfl⟩ := List.head?_eq_some_iff.1 h.2
  have hle := length_splitComment_le bs
  rw [List.length_cons, List.length_cons] at hn
  rw [lexemesFrom_slash_star h, List.tail_cons] at hline ⊢
  have hstar : star ≠ newline := by decide
  rw [returned_cons hb, lexemesFrom_slash_star h', returned_cons hstar, List.tail_cons,
    splitComment_returned]
  have hcomment : Corresponds [.blockComment (b :: star :: (splitComment bs).1)]
      [.blockComment (b :: star :: returned (splitComment bs).1)] := by
    have hcells := Returned.blanked (b :: star :: (splitComment bs).1)
    rw [returned_cons hb, returned_cons hstar] at hcells
    exact ⟨by simpa [Lexeme.cells] using hcells, rfl⟩
  exact hcomment.append (ih _ (by omega) false hline.tail)

theorem CorrespondsBelow.literal {b : UInt8} {bs : List UInt8} (hn : (b :: bs).length ≤ n)
    (h : b = doubleQuote ∨ b = singleQuote) (hline : OnLine (lexemesFrom false (b :: bs))) :
    Corresponds (lexemesFrom false (b :: bs)) (lexemesFrom false (returned (b :: bs))) := by
  have hb : b ≠ newline := by
    rcases h with rfl | rfl <;> decide
  have hle := length_splitLiteral_le b bs
  rw [List.length_cons] at hn
  rw [lexemesFrom_quote h] at hline ⊢
  rw [returned_cons hb, lexemesFrom_quote h]
  have hbody := hline b _ _ List.mem_cons_self
  have hrest : OnLine (lexemesFrom false (splitLiteral b bs).2.2) := hline.tail
  rcases splitLiteral_returned h rfl hbody with ⟨hclosed, hsplit⟩ | ⟨hclosed, e, r, hend, hsplit⟩
  · rw [hsplit, hclosed]
    exact .cons _ (ih _ (by omega) false hrest)
  · rw [hsplit, hclosed]
    refine .ended (.refl _) ?_ rfl hend fun bs heq => ih.nextLine (by omega) hrest heq
    simp [Lexeme.cells]

end Steps

/-- The lexemes of a text and of the same text with carriage returns correspond, if no literal goes
    on in the next line. -/
theorem lexemesFrom_returned (lineStart : Bool) (bs : List UInt8)
    (hline : OnLine (lexemesFrom lineStart bs)) :
    Corresponds (lexemesFrom lineStart bs) (lexemesFrom lineStart (returned bs)) := by
  induction hn : bs.length using Nat.strongRecOn generalizing bs lineStart with
  | _ n ih =>
  have ih : CorrespondsBelow n := fun rest hlt lineStart hline =>
    ih rest.length hlt lineStart rest hline rfl
  have hcode : OnLine (lexemesFrom false bs) →
      Corresponds (lexemesFrom false bs) (lexemesFrom false (returned bs)) := by
    intro hline
    cases bs with
    | nil => exact .refl _
    | cons b bs =>
      by_cases hb : b = newline
      · subst hb
        rw [lexemesFrom_newline] at hline ⊢
        rw [returned_newline, lexemesFrom_code (isInert_of_isLineBlank (by decide)) (by decide),
          lexemesFrom_newline]
        exact .newline (ih bs (by simp [← hn]) true hline.tail)
      by_cases hslash : b = slash ∧ bs.head? = some slash
      · exact ih.lineComment hn.le hslash hline
      by_cases hstar : b = slash ∧ bs.head? = some star
      · exact ih.blockComment hn.le hstar hline
      by_cases hquote : b = doubleQuote ∨ b = singleQuote
      · exact ih.literal hn.le hquote hline
      · rw [lexemesFrom_other hb hslash hstar hquote] at hline ⊢
        rw [← head_returned (by decide) (by decide)] at hslash hstar
        rw [returned_cons hb, lexemesFrom_other hb hslash hstar hquote]
        exact .cons _ (ih bs (by simp [← hn]) false hline.tail)
  cases lineStart with
  | false => exact hcode hline
  | true =>
    by_cases hno : NoDirective bs
    · rw [lexemesFrom_true hno] at hline ⊢
      rw [lexemesFrom_true (noDirective_returned.2 hno)]
      exact hcode hline
    · exact ih.directive hn hno hline

end TestBench.Source
