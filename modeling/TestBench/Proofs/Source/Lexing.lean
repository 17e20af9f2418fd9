import Mathlib.Data.List.Basic
import Mathlib.Data.List.TakeWhile
import TestBench.Source.Cell

/-!
# Cutting C text

How a text is cut into lexemes from its first bytes on. Whether a line starts matters only where a
`#` comes next (`NoDirective`): everywhere else blanks at the start of a line are code like any
other.

* `lexemesFrom_inert`: code that starts nothing is read byte by byte;
* `lexemesFrom_lineComment`, `lexemesFrom_blockComment`, `lexemesFrom_literal`: comments and
  literals are read as a whole;
* `lexemesFrom_behind`: lexemes stay what they are if what follows them starts with the same byte;
* `lexemesFrom_replace`: so they do, whatever follows the last of them, unless that one could go on.
-/

namespace TestBench.Source

/-! ### The start of a line -/

/-- Whether no directive follows where a line starts. -/
def NoDirective (bs : List UInt8) : Prop :=
  (bs.dropWhile isLineBlank).head? ≠ some hash

/-- Where a line ends, no directive follows. -/
theorem noDirective_of_newline {bs : List UInt8} (h : ∀ b ∈ bs.head?, b = newline) :
    NoDirective bs := by
  cases bs with
  | nil => simp [NoDirective]
  | cons b bs =>
    obtain rfl := h b rfl
    exact fun h => absurd (Option.some.inj h) (by decide)

theorem noDirective_nil : NoDirective [] :=
  noDirective_of_newline (by simp)

theorem noDirective_cons {b : UInt8} {bs : List UInt8} (h : b ≠ hash)
    (hbs : isLineBlank b → NoDirective bs) : NoDirective (b :: bs) := by
  rw [NoDirective, List.dropWhile_cons]
  split
  next hb => exact hbs hb
  next => simpa using h

theorem noDirective_of_not_blank {b : UInt8} (h : b ≠ hash) (hb : isLineBlank b = false)
    (bs : List UInt8) : NoDirective (b :: bs) :=
  noDirective_cons h fun hc => absurd hc (by simp [hb])

theorem noDirective_append {p bs : List UInt8} (hp : hash ∉ p) (h : NoDirective bs) :
    NoDirective (p ++ bs) := by
  induction p with
  | nil => exact h
  | cons b p ih =>
    rw [List.mem_cons, not_or] at hp
    exact noDirective_cons (Ne.symm hp.1) fun _ => ih hp.2

/-! ### One cut -/

theorem lexemesFrom_nil : lexemesFrom false [] = [] := by
  rw [lexemesFrom]
  rfl

theorem lexemesFrom_newline (bs : List UInt8) :
    lexemesFrom false (newline :: bs) = .newline :: lexemesFrom true bs := by
  rw [lexemesFrom]
  simp

theorem lexemesFrom_of_hash {bs : List UInt8} (h : (splitBlanks bs).2.head? = some hash) :
    lexemesFrom true bs =
      .directive ((splitBlanks bs).1 ++ (splitDirective false (splitBlanks bs).2).1) ::
        lexemesFrom false (splitDirective false (splitBlanks bs).2).2 := by
  rw [lexemesFrom.eq_def, if_pos rfl]
  simp only
  rw [if_pos h]

theorem lexemesFrom_of_not_hash {bs : List UInt8} (h : (splitBlanks bs).2.head? ≠ some hash) :
    lexemesFrom true bs = (splitBlanks bs).1.map .code ++ lexemesFrom false (splitBlanks bs).2 := by
  rw [lexemesFrom.eq_def, if_pos rfl]
  simp only
  rw [if_neg h]

theorem lexemesFrom_slash_slash {b : UInt8} {bs : List UInt8}
    (h : b = slash ∧ bs.head? = some slash) :
    lexemesFrom false (b :: bs) =
      .lineComment (b :: (splitLine bs).1) :: lexemesFrom false (splitLine bs).2 := by
  rw [lexemesFrom.eq_def]
  simp [h, show slash ≠ newline by decide]

theorem lexemesFrom_slash_star {b : UInt8} {bs : List UInt8}
    (h : b = slash ∧ bs.head? = some star) :
    lexemesFrom false (b :: bs) = .blockComment (b :: star :: (splitComment bs.tail).1) ::
      lexemesFrom false (splitComment bs.tail).2 := by
  rw [lexemesFrom.eq_def]
  simp [h, show slash ≠ newline by decide, show star ≠ slash by decide]

theorem lexemesFrom_quote {b : UInt8} {bs : List UInt8} (h : b = doubleQuote ∨ b = singleQuote) :
    lexemesFrom false (b :: bs) =
      .literal b (splitLiteral b bs).1 (splitLiteral b bs).2.1 ::
        lexemesFrom false (splitLiteral b bs).2.2 := by
  rw [lexemesFrom.eq_def]
  have hn : b ≠ newline := by
    rcases h with rfl | rfl <;> decide
  have hs : b ≠ slash := by
    rcases h with rfl | rfl <;> decide
  simp [h, hn, hs]

theorem lexemesFrom_other {b : UInt8} {bs : List UInt8} (hn : b ≠ newline)
    (hs : ¬(b = slash ∧ bs.head? = some slash)) (hs' : ¬(b = slash ∧ bs.head? = some star))
    (hq : ¬(b = doubleQuote ∨ b = singleQuote)) :
    lexemesFrom false (b :: bs) = .code b :: lexemesFrom false bs := by
  rw [lexemesFrom.eq_def]
  simp [hn, hs, hs', hq]

/-! ### Code -/

/-- Whether a byte is code that starts nothing: no comment, literal or directive. -/
def IsInert (b : UInt8) : Prop :=
  b ≠ slash ∧ b ≠ doubleQuote ∧ b ≠ singleQuote ∧ b ≠ hash

/-- The lexeme of such a byte. -/
def codeLexeme (b : UInt8) : Lexeme :=
  if b = newline then .newline else .code b

theorem isInert_of_isLineBlank {b : UInt8} (h : isLineBlank b) : IsInert b := by
  simp only [isLineBlank, Text.isBlankByte, Bool.and_eq_true, Bool.or_eq_true, beq_iff_eq] at h
  rcases h.1 with (((rfl | rfl) | rfl) | rfl) | rfl <;>
    exact ⟨by decide, by decide, by decide, by decide⟩

theorem lexemesFrom_code {b : UInt8} (h : IsInert b) (hn : b ≠ newline) (bs : List UInt8) :
    lexemesFrom false (b :: bs) = .code b :: lexemesFrom false bs := by
  obtain ⟨hs, hd, hq, _⟩ := h
  exact lexemesFrom_other hn (fun h => hs h.1) (fun h => hs h.1) (not_or.2 ⟨hd, hq⟩)

theorem lexemesFrom_blanks {bs : List UInt8} (h : ∀ b ∈ bs, isLineBlank b) (rest : List UInt8) :
    lexemesFrom false (bs ++ rest) = bs.map .code ++ lexemesFrom false rest := by
  induction bs with
  | nil => rfl
  | cons b bs ih =>
    rw [List.forall_mem_cons] at h
    have hn : b ≠ newline := by
      rintro rfl
      exact absurd h.1 (by decide)
    rw [List.cons_append, lexemesFrom_code (isInert_of_isLineBlank h.1) hn, ih h.2]
    rfl

/-- Where no directive follows, the start of a line is like any other place. -/
theorem lexemesFrom_true {bs : List UInt8} (h : NoDirective bs) :
    lexemesFrom true bs = lexemesFrom false bs := by
  have hb : ∀ b ∈ (splitBlanks bs).1, isLineBlank b := fun b hb => List.mem_takeWhile_imp hb
  rw [lexemesFrom_of_not_hash h, ← lexemesFrom_blanks hb, bytes_splitBlanks]

theorem lexemes_nil : lexemes [] = [] := by
  rw [lexemes, lexemesFrom_true noDirective_nil, lexemesFrom_nil]

/-- Code that starts nothing is read byte by byte. -/
theorem lexemesFrom_inert {bs rest : List UInt8} (h : ∀ b ∈ bs, IsInert b)
    (hr : NoDirective rest) :
    lexemesFrom false (bs ++ rest) = bs.map codeLexeme ++ lexemesFrom false rest := by
  induction bs with
  | nil => rfl
  | cons b bs ih =>
    rw [List.forall_mem_cons] at h
    rw [List.cons_append, List.map_cons, codeLexeme]
    split
    next hb =>
      have hno : NoDirective (bs ++ rest) :=
        noDirective_append (fun hm => (h.2 hash hm).2.2.2 rfl) hr
      rw [hb, lexemesFrom_newline, lexemesFrom_true hno, ih h.2]
      rfl
    next hb =>
      rw [lexemesFrom_code h.1 hb, ih h.2]
      rfl

/-- A text of code that starts nothing is code all over. -/
theorem lexemes_of_inert {bs : List UInt8} (h : ∀ b ∈ bs, IsInert b) :
    lexemes bs = bs.map codeLexeme := by
  have hno : NoDirective bs := by
    have := noDirective_append (p := bs) (fun hm => (h hash hm).2.2.2 rfl) noDirective_nil
    rwa [List.append_nil] at this
  have := lexemesFrom_inert h noDirective_nil
  rw [List.append_nil, lexemesFrom_nil, List.append_nil] at this
  rw [lexemes, lexemesFrom_true hno, this]

theorem cells_codeLexeme (b : UInt8) : (codeLexeme b).cells = [.plain b] := by
  rw [codeLexeme]
  split
  next h => rw [h]; rfl
  next => rfl

theorem cells_of_inert {bs : List UInt8} (h : ∀ b ∈ bs, IsInert b) :
    cells bs = bs.map .plain := by
  rw [cells, lexemes_of_inert h, List.flatMap_map, List.map_eq_flatMap]
  exact congrArg (List.flatMap · bs) (funext cells_codeLexeme)

/-! ### Comments and literals -/

theorem takeWhile_replace {α : Type} {p : α → Bool} {l r : List α} (hl : ∀ x ∈ l, p x)
    (hr : ∀ x ∈ r.head?, p x = false) : (l ++ r).takeWhile p = l ∧ (l ++ r).dropWhile p = r := by
  rw [List.takeWhile_append_of_pos hl, List.dropWhile_append_of_pos hl]
  cases r with
  | nil => exact ⟨List.append_nil l, rfl⟩
  | cons x r => simp [hr x rfl]

theorem head_splitLine (bs : List UInt8) : ∀ b ∈ (splitLine bs).2.head?, b = newline := by
  intro b hb
  have := List.head?_dropWhile_not (· != newline) bs
  rw [show (bs.dropWhile (· != newline)).head? = some b from hb] at this
  simpa using this

theorem lexemesFrom_lineComment {text : List UInt8} (h : newline ∉ text) {rest : List UInt8}
    (hr : ∀ b ∈ rest.head?, b = newline) :
    lexemesFrom false (slash :: slash :: (text ++ rest)) =
      .lineComment (slash :: slash :: text) :: lexemesFrom false rest := by
  have htext : ∀ b ∈ slash :: text, (b != newline) = true := by
    refine List.forall_mem_cons.2 ⟨by decide, fun b hb => ?_⟩
    rw [bne_iff_ne]
    rintro rfl
    exact h hb
  obtain ⟨htake, hdrop⟩ := takeWhile_replace htext fun b hb => by simp [hr b hb]
  rw [← List.cons_append, lexemesFrom_slash_slash ⟨rfl, rfl⟩, splitLine, htake, hdrop]

/-- A block comment goes up to the first closing mark. -/
theorem splitComment_closed {text : List UInt8} (h : ¬[star, slash] <:+: text)
    (rest : List UInt8) :
    splitComment (text ++ star :: slash :: rest) = (text ++ [star, slash], rest) := by
  induction text with
  | nil =>
    rw [List.nil_append, splitComment, if_pos ⟨rfl, rfl⟩]
    rfl
  | cons b text ih =>
    have ih := ih fun hi => h (hi.trans (List.suffix_cons _ _).isInfix)
    -- The mark cannot be made of the last byte and the star that closes the comment.
    cases text with
    | nil =>
      rw [List.cons_append, List.nil_append, splitComment,
        if_neg (by rintro ⟨_, hc⟩; exact absurd hc (by decide))]
      rw [List.nil_append] at ih
      simp [ih]
    | cons c text =>
      rw [List.cons_append, List.cons_append, splitComment, if_neg]
      · rw [List.cons_append] at ih
        simp [ih]
      · rintro ⟨rfl, rfl⟩
        exact h (List.prefix_append [star, slash] text).isInfix

theorem lexemesFrom_blockComment {text : List UInt8} (h : ¬[star, slash] <:+: text)
    (rest : List UInt8) :
    lexemesFrom false (slash :: star :: (text ++ star :: slash :: rest)) =
      .blockComment (slash :: star :: (text ++ [star, slash])) :: lexemesFrom false rest := by
  rw [lexemesFrom_slash_star ⟨rfl, rfl⟩, List.tail_cons, splitComment_closed h]

theorem lexemesFrom_literal {q : UInt8} (hq : q = doubleQuote ∨ q = singleQuote)
    {body bs rest : List UInt8} (h : splitLiteral q bs = (body, true, rest)) :
    lexemesFrom false (q :: bs) = .literal q body true :: lexemesFrom false rest := by
  rw [lexemesFrom_quote hq, h]

theorem quote_of_mem_lexemesFrom {lineStart : Bool} {bs body : List UInt8} {q : UInt8}
    {closed : Bool} (h : .literal q body closed ∈ lexemesFrom lineStart bs) :
    q = doubleQuote ∨ q = singleQuote := by
  fun_induction lexemesFrom lineStart bs with
  | case7 _ _ _ _ _ _ _ hq _ ih =>
    rcases List.mem_cons.1 h with h | h
    · obtain ⟨rfl, -⟩ := Lexeme.literal.inj h
      exact hq
    · exact ih h
  | _ => simp_all

/-- Bytes that neither end a literal nor escape anything belong to it. -/
theorem splitLiteral_append {q : UInt8} {bs : List UInt8}
    (h : ∀ b ∈ bs, b ≠ q ∧ b ≠ newline ∧ b ≠ backslash) {body rest rest' : List UInt8}
    (hr : splitLiteral q rest = (body, true, rest')) :
    splitLiteral q (bs ++ rest) = (bs ++ body, true, rest') := by
  induction bs with
  | nil => exact hr
  | cons b bs ih =>
    rw [List.forall_mem_cons] at h
    obtain ⟨⟨hq, hn, hb⟩, h⟩ := h
    rw [List.cons_append, splitLiteral.eq_def]
    simp [hq, hn, hb, ih h]

/-- A backslash takes the next byte with it. -/
theorem splitLiteral_escape {q b : UInt8} (hq : q ≠ backslash) {body rest rest' : List UInt8}
    (hr : splitLiteral q rest = (body, true, rest')) :
    splitLiteral q (backslash :: b :: rest) = (backslash :: b :: body, true, rest') := by
  rw [splitLiteral.eq_def]
  simp [hr, hq.symm, show backslash ≠ newline by decide]

/-! ### The same cut with something else behind -/

/-- Behind a directive there is a newline, or nothing. -/
theorem head_splitDirective (continued : Bool) (bs : List UInt8) :
    ∀ b ∈ (splitDirective continued bs).2.head?, b = newline := by
  induction bs generalizing continued with
  | nil => simp [splitDirective]
  | cons c bs ih =>
    rw [splitDirective]
    split
    next hc =>
      split
      · exact ih false
      · simp [hc]
    next => exact ih _

theorem splitDirective_hash (bs : List UInt8) :
    ∃ rest, (splitDirective false (hash :: bs)).1 = hash :: rest := by
  rw [splitDirective, if_neg (by decide)]
  exact ⟨_, rfl⟩

/-- Before blanks and the newline that ends it, a directive is not continued. -/
theorem not_continued {continued : Bool} {bs : List UInt8}
    (h : ∀ b ∈ (splitDirective continued bs).1, isLineBlank b)
    (hne : (splitDirective continued bs).2 ≠ []) : continued = false := by
  fun_induction splitDirective continued bs
  case case1 => exact absurd rfl hne
  case case2 => exact absurd (h newline List.mem_cons_self) (by decide)
  case case3 hc => exact Bool.eq_false_iff.2 hc
  case case4 hd ih =>
    rw [List.forall_mem_cons] at h
    have hblank := h.1
    simp only [isLineBlank, Bool.and_eq_true] at hblank
    rw [hd] at ih
    simpa [hblank.1] using ih h.2 hne

/-- A directive is the same without blanks at its end, and whatever follows its newline. -/
theorem splitDirective_replace {continued : Bool} {bs p tail r : List UInt8}
    (hp : p ++ tail = (splitDirective continued bs).1) (ht : ∀ b ∈ tail, isLineBlank b)
    (hr : ∀ b ∈ r.head?, b ∈ (splitDirective continued bs).2.head?) :
    splitDirective continued (p ++ r) = (p, r) := by
  induction p generalizing continued bs with
  | nil =>
    cases r with
    | nil => rfl
    | cons b r =>
      have hb := hr b rfl
      obtain rfl := head_splitDirective continued bs b hb
      rw [List.nil_append] at hp
      have hnot : continued = false :=
        not_continued (hp ▸ ht) fun hnil => absurd (hnil ▸ hb) (by simp)
      rw [hnot]
      rfl
  | cons b p ih =>
    cases bs with
    | nil => simp [splitDirective] at hp
    | cons c bs =>
      rw [splitDirective] at hp hr
      rw [List.cons_append, splitDirective]
      split at hp
      next hc =>
        rw [if_pos hc] at hr
        split at hp
        next hcont =>
          rw [if_pos hcont] at hr
          have hp : b :: (p ++ tail) = c :: (splitDirective false bs).1 := hp
          obtain ⟨rfl, htail⟩ := List.cons.inj hp
          rw [if_pos hc, if_pos hcont, ih htail hr]
        next => simp at hp
      next hc =>
        rw [if_neg hc] at hr
        have hp : b :: (p ++ tail) = c :: (splitDirective
            (if Text.isBlankByte c then continued else c == backslash) bs).1 := hp
        obtain ⟨rfl, htail⟩ := List.cons.inj hp
        rw [if_neg hc, ih htail hr]

theorem splitComment_ne_nil (b : UInt8) (bs : List UInt8) : (splitComment (b :: bs)).1 ≠ [] := by
  cases bs with
  | nil => simp [splitComment]
  | cons c bs =>
    rw [splitComment]
    split <;> simp

/-- A block comment is the same whatever follows it, if anything did. -/
theorem splitComment_replace {bs : List UInt8} (h : (splitComment bs).2 ≠ []) (r : List UInt8) :
    splitComment ((splitComment bs).1 ++ r) = ((splitComment bs).1, r) := by
  fun_induction splitComment bs with
  | case1 => exact absurd rfl h
  | case2 => exact absurd rfl h
  | case3 b c rest hc => simp [splitComment, hc]
  | case4 b c rest hc comment rest' hd ih =>
    rw [hd] at ih
    have hbytes := bytes_splitComment (c :: rest)
    rw [hd] at hbytes
    cases comment with
    | nil => exact absurd (congrArg Prod.fst hd) (splitComment_ne_nil c rest)
    | cons x comment =>
      obtain ⟨rfl, -⟩ := List.cons.inj hbytes
      rw [List.cons_append, List.cons_append, splitComment, if_neg hc, ← List.cons_append, ih h]

/-- A literal that is closed is the same whatever follows its quote. -/
theorem splitLiteral_replace {q : UInt8} {bs body rest : List UInt8}
    (h : splitLiteral q bs = (body, true, rest)) (r : List UInt8) :
    splitLiteral q (body ++ q :: r) = (body, true, r) := by
  fun_induction splitLiteral q bs generalizing body rest
  case case2 =>
    obtain ⟨rfl, -⟩ := Prod.mk.inj h
    rw [List.nil_append, splitLiteral.eq_def]
    simp
  case case1 | case3 | case4 => simp at h
  case case5 | case6 =>
    simp only [Prod.mk.injEq] at h
    obtain ⟨rfl, rfl, -⟩ := h
    simp only [List.cons_append]
    rw [splitLiteral.eq_def]
    simp_all

/-- Behind a literal that is not closed there is a newline, or nothing. -/
theorem head_splitLiteral {q : UInt8} {bs body rest : List UInt8}
    (h : splitLiteral q bs = (body, false, rest)) : ∀ b ∈ rest.head?, b = newline := by
  fun_induction splitLiteral q bs generalizing body rest
  case case2 => simp at h
  case case5 hs _ _ ih | case6 hs ih =>
    simp only [Prod.mk.injEq] at h
    obtain ⟨-, rfl, rfl⟩ := h
    exact ih hs
  all_goals
    simp only [Prod.mk.injEq, true_and] at h
    obtain ⟨-, rfl⟩ := h
    simp

/-- A literal that is not closed is the same whatever follows, if it starts alike. -/
theorem splitLiteral_replace_open {q : UInt8} {bs body rest : List UInt8}
    (h : splitLiteral q bs = (body, false, rest)) {r : List UInt8} (hr : r.head? = rest.head?) :
    splitLiteral q (body ++ r) = (body, false, r) := by
  fun_induction splitLiteral q bs generalizing body rest
  case case1 =>
    obtain ⟨rfl, -, rfl⟩ := by simpa using h
    obtain rfl := List.head?_eq_none_iff.1 hr
    rfl
  case case2 => simp at h
  case case3 bs hq =>
    obtain ⟨rfl, -, rfl⟩ := by simpa using h
    obtain ⟨r, rfl⟩ := List.head?_eq_some_iff.1 hr
    rw [List.nil_append, splitLiteral.eq_def]
    simp [hq]
  case case4 hq hn =>
    obtain ⟨rfl, -, rfl⟩ := by simpa using h
    obtain rfl := List.head?_eq_none_iff.1 hr
    rw [List.append_nil, splitLiteral.eq_def]
    simp [hq, hn]
  case case5 | case6 =>
    simp only [Prod.mk.injEq] at h
    obtain ⟨rfl, rfl, rfl⟩ := h
    simp only [List.cons_append]
    rw [splitLiteral.eq_def]
    simp_all

/-! ### The same lexemes with something else behind -/

/-- Whether a lexeme stays one whatever follows it. -/
def Lexeme.IsEnd : Lexeme → Prop
  | .newline => True
  | .code b => b ≠ slash ∧ isLineBlank b = false
  | _ => False

/-- The first lexeme, and the text behind it from which the others are cut. The first one stays the
    same if something else follows that starts in the same way. -/
theorem lexemesFrom_cut {bs : List UInt8} {l : Lexeme} {ls : List Lexeme}
    (h : lexemesFrom false bs = l :: ls) :
    ∃ rest, bs = l.bytes ++ rest ∧ lexemesFrom (l == .newline) rest = ls ∧
      ∀ r, (l.IsEnd ∨ rest ≠ [] ∧ r.head? = rest.head?) →
        lexemesFrom false (l.bytes ++ r) = l :: lexemesFrom (l == .newline) r := by
  cases bs with
  | nil => simp [lexemesFrom_nil] at h
  | cons b bs =>
    -- A newline, a comment, a literal or other code: in the order in which they are looked for.
    by_cases hn : b = newline
    · subst hn
      obtain ⟨rfl, rfl⟩ := List.cons.inj (lexemesFrom_newline bs ▸ h)
      exact ⟨bs, rfl, rfl, fun r _ => lexemesFrom_newline r⟩
    by_cases hs : b = slash ∧ bs.head? = some slash
    · obtain ⟨rfl, rfl⟩ := List.cons.inj (lexemesFrom_slash_slash hs ▸ h)
      refine ⟨(splitLine bs).2, by rw [Lexeme.bytes, List.cons_append, bytes_splitLine], rfl, ?_⟩
      rintro r (hend | ⟨-, hr⟩)
      · exact hend.elim
      obtain ⟨rfl, hs⟩ := hs
      obtain ⟨bs, rfl⟩ := List.head?_eq_some_iff.1 hs
      have hline : newline ∉ (splitLine bs).1 := fun h =>
        absurd (List.mem_takeWhile_imp (p := (· != newline)) h) (by decide)
      exact lexemesFrom_lineComment hline fun c hc => head_splitLine (slash :: bs) c (hr ▸ hc)
    by_cases hs' : b = slash ∧ bs.head? = some star
    · obtain ⟨rfl, rfl⟩ := List.cons.inj (lexemesFrom_slash_star hs' ▸ h)
      obtain ⟨rfl, hs'⟩ := hs'
      obtain ⟨bs, rfl⟩ := List.head?_eq_some_iff.1 hs'
      refine ⟨(splitComment bs).2, by
        rw [Lexeme.bytes, List.cons_append, List.cons_append, List.tail_cons, bytes_splitComment],
        rfl, ?_⟩
      rintro r (hend | ⟨hrest, -⟩)
      · exact hend.elim
      rw [Lexeme.bytes, List.cons_append, List.cons_append, List.tail_cons,
        lexemesFrom_slash_star ⟨rfl, rfl⟩, List.tail_cons, splitComment_replace hrest]
      rfl
    by_cases hq : b = doubleQuote ∨ b = singleQuote
    · rw [lexemesFrom_quote hq] at h
      obtain ⟨rfl, rfl⟩ := List.cons.inj h
      refine ⟨(splitLiteral b bs).2.2, ?_, rfl, ?_⟩
      · rw [Lexeme.bytes, List.cons_append, List.cons_append, List.append_assoc, bytes_splitLiteral]
      rintro r (hend | ⟨-, hr⟩)
      · exact hend.elim
      rw [Lexeme.bytes, List.cons_append, List.cons_append, lexemesFrom_quote hq]
      rcases hcut : splitLiteral b bs with ⟨body, closed, rest⟩
      cases closed with
      | true =>
        simp [splitLiteral_replace hcut]
        rfl
      | false =>
        rw [hcut] at hr
        simp [splitLiteral_replace_open hcut hr]
        rfl
    · rw [lexemesFrom_other hn hs hs' hq] at h
      obtain ⟨rfl, rfl⟩ := List.cons.inj h
      refine ⟨bs, rfl, rfl, ?_⟩
      rintro r (hend | ⟨-, hr⟩)
      · exact lexemesFrom_other hn (fun hc => hend.1 hc.1) (fun hc => hend.1 hc.1) hq
      · exact lexemesFrom_other hn (hr ▸ hs) (hr ▸ hs') hq

/-- Inside a line there is no directive. -/
theorem lexemesFrom_ne_directive (bs ds : List UInt8) (ls : List Lexeme) :
    lexemesFrom false bs ≠ .directive ds :: ls := by
  cases bs with
  | nil => simp [lexemesFrom_nil]
  | cons b bs =>
    rw [lexemesFrom.eq_def]
    simp only [Bool.false_eq_true, if_false]
    split_ifs <;> simp

theorem exists_of_append_eq_cons {α : Type} {p tail front back : List α} {x : α} (hx : x ∉ tail)
    (h : p ++ tail = front ++ x :: back) :
    ∃ body, p = front ++ x :: body ∧ body ++ tail = back := by
  rcases List.append_eq_append_iff.1 h with ⟨m, -, rfl⟩ | ⟨m, rfl, hm⟩
  · exact absurd (by simp) hx
  · cases m with
    | nil => exact absurd (by rw [← List.nil_append tail, ← hm]; simp) hx
    | cons y body =>
      obtain ⟨rfl, rfl⟩ := List.cons.inj hm
      exact ⟨body, rfl, rfl⟩

/-- A directive, and the text behind it. It stays the same without blanks at its end, and if
    something else follows that starts in the same way. -/
theorem lexemesFrom_directive {lineStart : Bool} {bs ds : List UInt8} {ls : List Lexeme}
    (h : lexemesFrom lineStart bs = .directive ds :: ls) :
    lineStart = true ∧ ∃ rest, bs = ds ++ rest ∧ lexemesFrom false rest = ls ∧
      (∀ b ∈ rest.head?, b = newline) ∧
        ∀ p tail r, p ++ tail = ds → (∀ b ∈ tail, isLineBlank b) →
          (∀ b ∈ r.head?, b ∈ rest.head?) →
            lexemesFrom true (p ++ r) = .directive p :: lexemesFrom false r := by
  cases lineStart with
  | false => exact absurd h (lexemesFrom_ne_directive bs ds ls)
  | true =>
    by_cases hno : NoDirective bs
    · exact absurd (lexemesFrom_true hno ▸ h) (lexemesFrom_ne_directive bs ds ls)
    have hhash : (splitBlanks bs).2.head? = some hash := not_not.1 hno
    rw [lexemesFrom_of_hash hhash] at h
    obtain ⟨hds, rfl⟩ := List.cons.inj h
    obtain rfl := Lexeme.directive.inj hds
    refine ⟨rfl, _, by rw [List.append_assoc, bytes_splitDirective, bytes_splitBlanks], rfl,
      head_splitDirective _ _, ?_⟩
    intro p tail r hp ht hr
    obtain ⟨rest, hrest⟩ := List.head?_eq_some_iff.1 hhash
    obtain ⟨cut, hcut⟩ := splitDirective_hash rest
    rw [← hrest] at hcut
    rw [hcut] at hp
    -- The blanks at the end do not reach up to the hash.
    have hnot : hash ∉ tail := fun h => absurd (ht hash h) (by decide)
    obtain ⟨body, rfl, rfl⟩ := exists_of_append_eq_cons hnot hp
    obtain ⟨htake, hdrop⟩ := takeWhile_replace (l := (splitBlanks bs).1) (r := hash :: body ++ r)
      (fun b hb => List.mem_takeWhile_imp hb)
      (by rintro b hb; obtain rfl := Option.some.inj hb; decide)
    have hsplit : splitBlanks ((splitBlanks bs).1 ++ (hash :: body ++ r)) =
        ((splitBlanks bs).1, hash :: body ++ r) := by
      rw [splitBlanks, htake, hdrop]
    rw [List.append_assoc, lexemesFrom_of_hash (by rw [hsplit]; rfl), hsplit]
    simp only [splitDirective_replace (p := hash :: body) hcut.symm ht hr]

/-- Where no directive comes first, the start of a line is like any other place. -/
theorem lexemesFrom_of_ne_directive {lineStart : Bool} {bs : List UInt8} {l : Lexeme}
    {ls : List Lexeme} (h : lexemesFrom lineStart bs = l :: ls) (hl : ∀ ds, l ≠ .directive ds) :
    lexemesFrom false bs = l :: ls ∧ (lineStart → NoDirective bs) := by
  cases lineStart with
  | false => exact ⟨h, fun h => absurd h Bool.false_ne_true⟩
  | true =>
    by_cases hno : NoDirective bs
    · exact ⟨lexemesFrom_true hno ▸ h, fun _ => hno⟩
    · rw [NoDirective, not_not] at hno
      rw [lexemesFrom_of_hash hno] at h
      exact absurd (List.cons.inj h).1.symm (hl _)

/-- The lexemes behind the first ones are cut from their own bytes. -/
theorem exists_lexemesFrom_suffix {lineStart : Bool} {bs : List UInt8} {ls ls' : List Lexeme}
    (h : lexemesFrom lineStart bs = ls ++ ls') :
    ∃ lineStart', lexemesFrom lineStart' (ls'.flatMap Lexeme.bytes) = ls' := by
  induction ls generalizing lineStart bs with
  | nil =>
    rw [List.nil_append] at h
    exact ⟨lineStart, by rw [← h, flatMap_bytes_lexemesFrom]⟩
  | cons l ls ih =>
    by_cases hl : ∃ ds, l = .directive ds
    · obtain ⟨ds, rfl⟩ := hl
      obtain ⟨-, rest, -, hrest, -, -⟩ := lexemesFrom_directive h
      exact ih hrest
    · have hfalse := (lexemesFrom_of_ne_directive h (not_exists.1 hl)).1
      obtain ⟨rest, -, hrest, -⟩ := lexemesFrom_cut hfalse
      exact ih hrest

theorem dropWhile_append_of_ne_nil {α : Type} {p : α → Bool} {l : List α}
    (h : l.dropWhile p ≠ []) (r : List α) : (l ++ r).dropWhile p = l.dropWhile p ++ r := by
  rw [List.dropWhile_append, if_neg (mt List.isEmpty_iff.1 h)]

theorem noDirective_replace {p q r : List UInt8} (hp : ∃ b ∈ p, isLineBlank b = false)
    (h : NoDirective (p ++ q)) : NoDirective (p ++ r) := by
  obtain ⟨b, hb, hblank⟩ := hp
  have hne : p.dropWhile isLineBlank ≠ [] := by
    intro hnil
    have := List.dropWhile_eq_nil_iff.1 hnil b hb
    rw [hblank] at this
    exact absurd this (by decide)
  rw [NoDirective, dropWhile_append_of_ne_nil hne, List.head?_append_of_ne_nil _ hne] at h ⊢
  exact h

theorem Lexeme.IsEnd.exists_head {l : Lexeme} (h : l.IsEnd) :
    ∃ b, l.bytes.head? = some b ∧ isLineBlank b = false := by
  cases l with
  | newline => exact ⟨_, rfl, by decide⟩
  | code b => exact ⟨b, rfl, h.2⟩
  | _ => exact h.elim

section Behind

variable {lineStart : Bool} {bs : List UInt8} {ls ls' : List Lexeme} {l : Lexeme} {b : UInt8}

/-- What follows lexemes starts as before if what is put behind the first of them does. -/
theorem head_behind (h : lexemesFrom lineStart bs = ls ++ l :: ls') (hb : l.bytes.head? = some b)
    {r : List UInt8} (hr : r.head? = some b) :
    bs ≠ [] ∧ (ls.flatMap Lexeme.bytes ++ r).head? = bs.head? := by
  have hhead : bs.head? = (ls.flatMap Lexeme.bytes).head?.or (some b) := by
    rw [← flatMap_bytes_lexemesFrom lineStart bs, h, List.flatMap_append, List.flatMap_cons,
      List.head?_append, List.head?_append, hb, Option.some_or]
  refine ⟨?_, by rw [List.head?_append, hr, hhead]⟩
  rintro rfl
  cases hfirst : (ls.flatMap Lexeme.bytes).head? <;> rw [hfirst] at hhead <;> cases hhead

/-- If no directive was in front, it still makes no difference whether a line starts there. -/
theorem lexemesFrom_false_behind (h : lexemesFrom lineStart bs = ls ++ l :: ls')
    (hb : l.bytes.head? = some b) (hblank : isLineBlank b = false)
    (hno : lineStart → NoDirective bs) {r : List UInt8} (hr : r.head? = some b) :
    lexemesFrom lineStart (ls.flatMap Lexeme.bytes ++ r) =
      lexemesFrom false (ls.flatMap Lexeme.bytes ++ r) := by
  cases lineStart with
  | false => rfl
  | true =>
    obtain ⟨r, rfl⟩ := List.head?_eq_some_iff.1 hr
    obtain ⟨q, hq⟩ := List.head?_eq_some_iff.1 hb
    have hbs : bs = ls.flatMap Lexeme.bytes ++ [b] ++ (q ++ ls'.flatMap Lexeme.bytes) := by
      rw [← flatMap_bytes_lexemesFrom true bs, h, List.flatMap_append, List.flatMap_cons, hq]
      simp
    rw [hbs] at hno
    rw [List.append_cons]
    exact lexemesFrom_true (noDirective_replace ⟨b, by simp, hblank⟩ (hno rfl))

/-- Lexemes stay what they are if something else follows that starts with the same byte. -/
theorem lexemesFrom_behind (h : lexemesFrom lineStart bs = ls ++ l :: ls')
    (hl : ∀ ds, l ≠ .directive ds) (hb : l.bytes.head? = some b) (hblank : isLineBlank b = false)
    {r : List UInt8} (hr : r.head? = some b) :
    lexemesFrom lineStart (ls.flatMap Lexeme.bytes ++ r) = ls ++ lexemesFrom false r := by
  -- From the last lexeme to the first: each has something behind it that starts as before.
  induction ls generalizing lineStart bs with
  | nil =>
    obtain ⟨-, hno⟩ := lexemesFrom_of_ne_directive h hl
    exact lexemesFrom_false_behind h hb hblank hno hr
  | cons x ls ih =>
    by_cases hx : ∃ ds, x = .directive ds
    · obtain ⟨ds, rfl⟩ := hx
      obtain ⟨rfl, rest, -, hrest, -, hreplace⟩ := lexemesFrom_directive h
      rw [List.cons_append, List.flatMap_cons, List.append_assoc, ← ih hrest]
      refine hreplace ds [] _ (List.append_nil _) (by simp) ?_
      rw [(head_behind hrest hb hr).2]
      exact fun b hb => hb
    · obtain ⟨hfalse, hno⟩ := lexemesFrom_of_ne_directive h (not_exists.1 hx)
      obtain ⟨rest, -, hrest, hreplace⟩ := lexemesFrom_cut hfalse
      rw [lexemesFrom_false_behind h hb hblank hno hr, List.cons_append, List.flatMap_cons,
        List.append_assoc, hreplace _ (.inr (head_behind hrest hb hr)), ih hrest]

/-- Lexemes up to one that could not go on are those of their bytes, whatever follows. -/
theorem lexemesFrom_replace (h : lexemesFrom lineStart bs = ls ++ l :: ls') (hl : l.IsEnd)
    (r : List UInt8) :
    lexemesFrom lineStart ((ls ++ [l]).flatMap Lexeme.bytes ++ r) =
      ls ++ l :: lexemesFrom (l == .newline) r := by
  have hne : ∀ ds, l ≠ .directive ds := by
    rintro ds rfl
    exact hl
  obtain ⟨b, hb, hblank⟩ := hl.exists_head
  obtain ⟨_, hlast⟩ := exists_lexemesFrom_suffix h
  obtain ⟨_, -, -, hreplace⟩ := lexemesFrom_cut (lexemesFrom_of_ne_directive hlast hne).1
  have hhead : (l.bytes ++ r).head? = some b := by rw [List.head?_append, hb, Option.some_or]
  rw [List.flatMap_append, List.flatMap_singleton, List.append_assoc,
    lexemesFrom_behind h hne hb hblank hhead, hreplace r (.inl hl)]

end Behind

/-- If no lexeme of a text could go on behind it, then the lexemes of a longer text are these and
    those of the rest. -/
theorem lexemesFrom_append {lineStart : Bool} {bs : List UInt8} {l : Lexeme}
    (h : (lexemesFrom lineStart bs).getLast? = some l) (hl : l.IsEnd) (r : List UInt8) :
    lexemesFrom lineStart (bs ++ r) =
      lexemesFrom lineStart bs ++ lexemesFrom (l == .newline) r := by
  obtain ⟨ls, hls⟩ := List.getLast?_eq_some_iff.1 h
  have hbytes : (ls ++ [l]).flatMap Lexeme.bytes = bs := by
    rw [← hls, flatMap_bytes_lexemesFrom]
  rw [← hbytes, lexemesFrom_replace hls hl, hbytes, hls, List.append_assoc, List.singleton_append]

end TestBench.Source
