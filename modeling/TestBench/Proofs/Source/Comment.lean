import TestBench.Proofs.Source.Line

/-!
# Comments as the language has them

Where a block comment stands is a matter of the language alone: whoever reads the text byte by
byte has only to remember whether he is in code, in a comment or in a literal (`Context`). Such a
reader knows no directives. He finds the comments in a directive like all others, and goes on in
one that the directive leaves open, whereas a lexer that cuts a directive at the end of its line
goes on in code.

The two agree as long as nothing but a newline ends what a lexeme leaves open (`Settled`). It is
enough for this that no directive leaves a comment open and that no line comment goes on in the
next line.

* `settled_of_lexemesFrom`: the step, for the first of some lexemes;
* `settled_of_append`: behind any number of them, reader and lexer agree;
* `not_inBlockComment_of_fragment`: no definition and no prototype starts inside a comment.
-/

namespace TestBench.Source

open Utf8

/-! ### Reading byte by byte -/

/-- What a reader of C text is in the middle of. In code, the last byte may be a slash that opens a
    comment with the next one; in a line comment and in a literal, a backslash that takes the next
    one with it; in a block comment, a star that closes it with the next one. -/
inductive Context where
  | code (opening : Bool)
  | lineComment (escaped : Bool)
  | blockComment (closing : Bool)
  | literal (quote : UInt8) (escaped : Bool)
deriving Repr, DecidableEq

namespace Context

/-- The context behind one more byte. -/
def next : Context → UInt8 → Context
  | code opening, b =>
    if opening ∧ b = slash then lineComment false
    else if opening ∧ b = star then blockComment false
    else if b = doubleQuote ∨ b = singleQuote then literal b false
    else code (b == slash)
  | lineComment escaped, b =>
    if b = newline ∧ ¬escaped then code false else lineComment (b == backslash)
  | blockComment closing, b =>
    if closing ∧ b = slash then code false else blockComment (b == star)
  | literal q escaped, b =>
    if escaped then literal q false
    else if b = q ∨ b = newline then code false
    else literal q (b == backslash)

/-- The context behind some bytes. -/
def run (c : Context) (bs : List UInt8) : Context :=
  bs.foldl next c

/-- Whether a block comment is open. -/
def inBlock : Context → Bool
  | blockComment _ => true
  | _ => false

/-- Whether the next byte is taken by a backslash. -/
def isEscaped : Context → Bool
  | lineComment escaped | literal _ escaped => escaped
  | _ => false

theorem run_cons (c : Context) (b : UInt8) (bs : List UInt8) :
    c.run (b :: bs) = (c.next b).run bs :=
  rfl

theorem run_append (c : Context) (bs bs' : List UInt8) : c.run (bs ++ bs') = (c.run bs).run bs' :=
  List.foldl_append

/-- Only a backslash escapes. -/
theorem eq_backslash_of_isEscaped {c : Context} {b : UInt8} (h : (c.next b).isEscaped) :
    b = backslash := by
  cases c <;> simp only [next] at h <;> split_ifs at h <;> simp_all [isEscaped]

/-- A byte opens a block comment only as a star behind a slash. -/
theorem inBlock_next {c : Context} {b : UInt8} (hc : c.inBlock = false)
    (h : (c.next b).inBlock) : c = code true ∧ b = star := by
  cases c <;> simp only [next] at h <;> split_ifs at h <;> simp_all [inBlock]

end Context

/-- The context behind the first bytes of a text. -/
def contextAfter (bs : List UInt8) : Context :=
  (Context.code false).run bs

/-- Whether a byte of a text stands in a block comment: one is open before this byte, or it is
    opened by this byte and one next to it. -/
def InBlockComment (bs : List UInt8) (place : Nat) : Prop :=
  ∃ k ≤ 2, (contextAfter (bs.take (place + k))).inBlock

instance (bs : List UInt8) (place : Nat) : Decidable (InBlockComment bs place) :=
  inferInstanceAs (Decidable (∃ k ≤ 2, (contextAfter (bs.take (place + k))).inBlock))

/-- Whether a text closes the block comments that it opens. -/
def ClosesComments (t : String) : Prop :=
  (contextAfter (encode t)).inBlock = false

instance (t : String) : Decidable (ClosesComments t) :=
  inferInstanceAs (Decidable (_ = _))

/-- Whether a newline of a text is part of a line comment, which goes on behind it. -/
def ContinuesComment (bs : List UInt8) (place : Nat) : Prop :=
  bs[place]? = some newline ∧ contextAfter (bs.take place) = .lineComment true

instance (bs : List UInt8) (place : Nat) : Decidable (ContinuesComment bs place) :=
  inferInstanceAs (Decidable (_ ∧ _))

/-! ### What a lexeme leaves open -/

/-- Whether reading goes on in a context as it would in code that opens nothing. -/
def Settled (c : Context) (rest : List UInt8) : Prop :=
  ∀ b ∈ rest.head?, c.next b = (Context.code false).next b

theorem settled_code (rest : List UInt8) : Settled (.code false) rest :=
  fun _ _ => rfl

/-- So the context that was left does not matter. -/
theorem Settled.run {c : Context} {bs rest : List UInt8} (h : Settled c (bs ++ rest))
    (hbs : bs ≠ []) : c.run bs = contextAfter bs := by
  obtain ⟨b, bs, rfl⟩ := List.exists_cons_of_ne_nil hbs
  rw [contextAfter, Context.run_cons, Context.run_cons, h b rfl]

/-- A block comment that is open is not settled. -/
theorem Settled.inBlock {c : Context} {b : UInt8} {bs : List UInt8} (h : Settled c (b :: bs)) :
    c.inBlock = false := by
  have hb := h b rfl
  cases c with
  | blockComment closing =>
    simp only [Context.next] at hb
    split_ifs at hb <;> simp_all
  | _ => rfl

/-- Whether the last of some bytes escapes what follows them, only a backslash there tells. -/
theorem isEscaped_run {c : Context} {bs : List UInt8} (hbs : bs ≠ [])
    (h : bs.getLast? ≠ some backslash) : (c.run bs).isEscaped = false := by
  obtain rfl | ⟨front, b, rfl⟩ := List.eq_nil_or_concat' bs
  · exact absurd rfl hbs
  · rw [List.getLast?_concat] at h
    rw [Context.run_append]
    exact Bool.eq_false_iff.2 fun hc => h (congrArg some (Context.eq_backslash_of_isEscaped hc))

/-- A newline ends all but a block comment, unless it is escaped. -/
theorem settled_of_newline {c : Context} {rest : List UInt8} (hblock : c.inBlock = false)
    (hescaped : c.isEscaped = false) (h : ∀ b ∈ rest.head?, b = newline) : Settled c rest := by
  intro b hb
  obtain rfl := h b hb
  cases c with
  | code opening => cases opening <;> rfl
  | lineComment escaped =>
    obtain rfl : escaped = false := hescaped
    rfl
  | blockComment closing => exact absurd hblock (by simp [Context.inBlock])
  | literal q escaped =>
    obtain rfl : escaped = false := hescaped
    rw [show (Context.literal q false).next newline = .code false by simp [Context.next]]
    rfl

/-- A line comment goes on up to the next newline. -/
theorem run_lineComment {bs : List UInt8} (h : newline ∉ bs) (escaped : Bool) :
    ∃ escaped', (Context.lineComment escaped).run bs = .lineComment escaped' := by
  induction bs generalizing escaped with
  | nil => exact ⟨escaped, rfl⟩
  | cons b bs ih =>
    rw [List.mem_cons, not_or] at h
    rw [Context.run_cons, Context.next, if_neg fun hb => h.1 hb.1.symm]
    exact ih h.2 _

/-- A block comment goes on up to its closing mark. -/
theorem run_blockComment {bs : List UInt8} {closing : Bool}
    (hc : closing → bs.head? ≠ some slash) (hrest : (splitComment bs).2 ≠ []) :
    (Context.blockComment closing).run (splitComment bs).1 = .code false := by
  fun_induction splitComment bs generalizing closing with
  | case1 => exact absurd rfl hrest
  | case2 => exact absurd rfl hrest
  | case3 b c rest h =>
    obtain ⟨rfl, rfl⟩ := h
    have hstar : ¬(closing ∧ star = slash) := fun h => absurd h.2 (by decide)
    rw [Context.run_cons, Context.next, if_neg hstar]
    rfl
  | case4 b c rest h cut rest' hcut ih =>
    rw [hcut] at ih
    have hb : ¬(closing ∧ b = slash) := by
      rintro ⟨hclosing, rfl⟩
      exact hc hclosing rfl
    rw [Context.run_cons, Context.next, if_neg hb]
    refine ih (fun hstar hslash => h ⟨beq_iff_eq.1 hstar, Option.some.inj hslash⟩) hrest

/-- A literal goes on up to its closing quote, or up to the newline that ends it. -/
theorem run_literal {q : UInt8} {bs : List UInt8} (hrest : (splitLiteral q bs).2.2 ≠ []) :
    (Context.literal q false).run (splitLiteral q bs).1 = .literal q false := by
  fun_induction splitLiteral q bs with
  | case1 => rfl
  | case2 => rfl
  | case3 => rfl
  | case4 => exact absurd rfl hrest
  | case5 c bs body closed rest hcut hq hn ih =>
    rw [hcut] at ih
    have hescape : (Context.literal q false).next backslash = .literal q true := by
      simp [Context.next, hq, hn]
    rw [Context.run_cons, Context.run_cons, hescape]
    exact ih hrest
  | case6 b bs hq hn hb body closed rest hcut ih =>
    rw [hcut] at ih
    have hnext : (Context.literal q false).next b = .literal q false := by
      simp [Context.next, hq, hn, hb]
    rw [Context.run_cons, hnext]
    exact ih hrest

/-- The last byte of a directive does not escape the newline that ends it. -/
theorem getLast_splitDirective {continued : Bool} {bs : List UInt8}
    (hrest : (splitDirective continued bs).2 ≠ []) :
    ((splitDirective continued bs).1 = [] → continued = false) ∧
      (splitDirective continued bs).1.getLast? ≠ some backslash := by
  fun_induction splitDirective continued bs with
  | case1 => exact absurd rfl hrest
  | case2 bs directive rest hcut ih =>
    rw [hcut] at ih
    obtain ⟨-, hlast⟩ := ih hrest
    refine ⟨by simp, ?_⟩
    rw [List.getLast?_cons]
    cases h : directive.getLast? with
    | none => exact fun hc => absurd (Option.some.inj hc) (by decide)
    | some b => simpa [h] using hlast
  | case3 continued bs hc => exact ⟨fun _ => Bool.eq_false_iff.2 hc, by simp⟩
  | case4 continued b bs hb directive rest hcut ih =>
    rw [hcut] at ih
    obtain ⟨hempty, hlast⟩ := ih hrest
    refine ⟨by simp, ?_⟩
    rw [List.getLast?_cons]
    cases h : directive.getLast? with
    | none =>
      -- Nothing but this byte is left, so that it is a blank or no backslash.
      have hcontinued := hempty (List.getLast?_eq_none_iff.1 h)
      rintro hb
      obtain rfl : b = backslash := Option.some.inj hb
      rw [if_neg (by decide)] at hcontinued
      exact absurd hcontinued (by decide)
    | some c => simpa [h] using hlast

theorem getLast_of_directive {lineStart : Bool} {bs ds : List UInt8} {ls : List Lexeme}
    (h : lexemesFrom lineStart bs = .directive ds :: ls) (hne : ls.flatMap Lexeme.bytes ≠ []) :
    ds.getLast? ≠ some backslash := by
  obtain ⟨rfl, -⟩ := lexemesFrom_directive h
  by_cases hno : NoDirective bs
  · exact absurd (lexemesFrom_true hno ▸ h) (lexemesFrom_ne_directive bs ds ls)
  have hhash : (splitBlanks bs).2.head? = some hash := not_not.1 hno
  rw [lexemesFrom_of_hash hhash] at h
  obtain ⟨hds, rfl⟩ := List.cons.inj h
  obtain rfl := Lexeme.directive.inj hds
  rw [flatMap_bytes_lexemesFrom] at hne
  obtain ⟨rest, hrest⟩ := List.head?_eq_some_iff.1 hhash
  obtain ⟨cut, hcut⟩ := splitDirective_hash rest
  have hlast := (getLast_splitDirective hne).2
  rw [← hrest] at hcut
  rw [hcut] at hlast ⊢
  rwa [List.getLast?_append_of_ne_nil _ (List.cons_ne_nil _ _)]

/-- A line comment ends with its line, unless it goes on in the next one. -/
theorem settled_lineComment {bs : List UInt8}
    (hends : (splitLine (slash :: bs)).2.head? = some newline →
      contextAfter (slash :: (splitLine (slash :: bs)).1) ≠ .lineComment true) :
    Settled (contextAfter (slash :: (splitLine (slash :: bs)).1)) (splitLine (slash :: bs)).2 := by
  intro b hb
  have hopen := hends (head_splitLine _ b hb ▸ hb)
  have hline : newline ∉ (splitLine bs).1 := fun h =>
    absurd (List.mem_takeWhile_imp (p := (· != newline)) h) (by decide)
  obtain ⟨escaped, hrun⟩ := run_lineComment hline false
  have hcontext : contextAfter (slash :: (splitLine (slash :: bs)).1) = .lineComment escaped := hrun
  rw [hcontext] at hopen ⊢
  refine settled_of_newline rfl ?_ (head_splitLine _) b hb
  exact Bool.eq_false_iff.2 fun he => hopen (congrArg Context.lineComment he)

/-- A literal ends with its quote, or with the newline that comes before it. -/
theorem settled_literal {q : UInt8} {bs : List UInt8} (hq : q = doubleQuote ∨ q = singleQuote)
    (hrest : (splitLiteral q bs).2.2 ≠ []) :
    Settled (contextAfter (Lexeme.literal q (splitLiteral q bs).1 (splitLiteral q bs).2.1).bytes)
      (splitLiteral q bs).2.2 := by
  have hopen : (Context.code false).next q = .literal q false := by
    rcases hq with rfl | rfl <;> rfl
  have hbody : contextAfter (q :: (splitLiteral q bs).1) = .literal q false := by
    rw [contextAfter, Context.run_cons, hopen]
    exact run_literal hrest
  rw [Lexeme.bytes, contextAfter, Context.run_append, ← contextAfter, hbody]
  rcases hcut : splitLiteral q bs with ⟨body, closed, rest⟩
  cases closed with
  | true =>
    have hclose : (Context.literal q false).run [q] = .code false := by
      simp [Context.run, Context.next]
    rw [if_pos rfl, hclose]
    exact settled_code _
  | false =>
    rw [if_neg Bool.false_ne_true]
    exact settled_of_newline rfl rfl (head_splitLiteral hcut)

/-- Any other byte opens nothing: a slash is followed neither by a slash nor by a star. -/
theorem settled_other {b : UInt8} {rest : List UInt8} (hq : ¬(b = doubleQuote ∨ b = singleQuote))
    (hs : ¬(b = slash ∧ rest.head? = some slash)) (hs' : ¬(b = slash ∧ rest.head? = some star)) :
    Settled (contextAfter [b]) rest := by
  have hcontext : contextAfter [b] = .code (b == slash) := by
    simp [contextAfter, Context.run, Context.next, hq]
  intro c hc
  rw [hcontext]
  by_cases hb : b = slash
  · obtain rfl := hb
    have hslash : c ≠ slash := fun h => hs ⟨rfl, h ▸ hc⟩
    have hstar : c ≠ star := fun h => hs' ⟨rfl, h ▸ hc⟩
    simp [Context.next, hslash, hstar]
  · rw [beq_eq_false_iff_ne.2 hb]

/-- What makes a reader of the language leave a lexeme where it ends: a directive has to close the
    comments that it opens, and a line comment must not go on in the next line. -/
def Lexeme.IsTidy (l : Lexeme) (after : List UInt8) : Prop :=
  match l with
  | .directive bs => (contextAfter bs).inBlock = false
  | .lineComment bs => after.head? = some Source.newline → contextAfter bs ≠ .lineComment true
  | _ => True

/-- Behind a lexeme that is tidy, reading goes on as in code. -/
theorem settled_of_lexemesFrom {lineStart : Bool} {bs : List UInt8} {l : Lexeme}
    {ls : List Lexeme} (h : lexemesFrom lineStart bs = l :: ls)
    (hl : l.IsTidy (ls.flatMap Lexeme.bytes)) :
    Settled (contextAfter l.bytes) (ls.flatMap Lexeme.bytes) := by
  by_cases hne : ls.flatMap Lexeme.bytes = []
  · rw [hne]
    exact fun b hb => absurd hb (by simp)
  by_cases hd : ∃ ds, l = .directive ds
  · obtain ⟨ds, rfl⟩ := hd
    have hlast := getLast_of_directive h hne
    obtain ⟨-, rest, -, rfl, hhead, -⟩ := lexemesFrom_directive h
    rw [flatMap_bytes_lexemesFrom]
    have hds : ds ≠ [] := ne_nil_of_directive (h ▸ List.mem_cons_self)
    exact settled_of_newline hl (isEscaped_run hds hlast) hhead
  have h := (lexemesFrom_of_ne_directive h (not_exists.1 hd)).1
  cases bs with
  | nil => simp [lexemesFrom_nil] at h
  | cons b bs =>
    -- A newline, a comment, a literal or other code: in the order in which they are looked for.
    by_cases hn : b = newline
    · subst hn
      obtain ⟨rfl, rfl⟩ := List.cons.inj (lexemesFrom_newline bs ▸ h)
      exact settled_code _
    by_cases hs : b = slash ∧ bs.head? = some slash
    · obtain ⟨rfl, rfl⟩ := List.cons.inj (lexemesFrom_slash_slash hs ▸ h)
      obtain ⟨rfl, hs⟩ := hs
      obtain ⟨bs, rfl⟩ := List.head?_eq_some_iff.1 hs
      rw [flatMap_bytes_lexemesFrom] at hl ⊢
      exact settled_lineComment hl
    by_cases hs' : b = slash ∧ bs.head? = some star
    · obtain ⟨rfl, rfl⟩ := List.cons.inj (lexemesFrom_slash_star hs' ▸ h)
      obtain ⟨rfl, -⟩ := hs'
      rw [flatMap_bytes_lexemesFrom] at hne
      have hcontext : contextAfter (slash :: star :: (splitComment bs.tail).1) = .code false :=
        run_blockComment (fun h => absurd h Bool.false_ne_true) hne
      rw [Lexeme.bytes, hcontext]
      exact settled_code _
    by_cases hq : b = doubleQuote ∨ b = singleQuote
    · obtain ⟨rfl, rfl⟩ := List.cons.inj (lexemesFrom_quote hq ▸ h)
      rw [flatMap_bytes_lexemesFrom] at hne ⊢
      exact settled_literal hq hne
    · obtain ⟨rfl, rfl⟩ := List.cons.inj (lexemesFrom_other hn hs hs' hq ▸ h)
      rw [flatMap_bytes_lexemesFrom]
      exact settled_other hq hs hs'

/-! ### Behind any number of lexemes -/

/-- Blanks open no block comment. -/
theorem inBlock_run_blanks {c : Context} {bs : List UInt8} (h : ∀ b ∈ bs, isLineBlank b)
    (hc : c.inBlock = false) : (c.run bs).inBlock = false := by
  induction bs generalizing c with
  | nil => exact hc
  | cons b bs ih =>
    rw [List.forall_mem_cons] at h
    refine ih h.2 (Bool.eq_false_iff.2 fun hnext => ?_)
    obtain ⟨-, rfl⟩ := Context.inBlock_next hc hnext
    exact absurd h.1 (by decide)

section Text

variable {t : String} {ls₁ ls₂ : List Lexeme}

/-- The text of a directive is what it starts with; blanks are cut off. -/
theorem encode_directiveText_of_append {ds : List UInt8}
    (h : lexemes (encode t) = ls₁ ++ .directive ds :: ls₂) :
    ∃ q, encode (directiveText ds) ++ q = ds ∧ ∀ b ∈ q, isLineBlank b := by
  have ht : (lexemes (encode t)).flatMap Lexeme.bytes = encode t := flatMap_bytes_lexemes _
  rw [h] at ht
  obtain ⟨-, hds, -⟩ := isText_of_directive (h ▸ allFit_lexemesFrom true _)
    (ht ▸ isText_encode t)
  obtain ⟨q, -, hq, he⟩ := encode_directiveText hds
  exact ⟨q, he, hq⟩

/-- Where a newline comes next between two lexemes, no directive goes on. -/
theorem not_in_directive (h : lexemes (encode t) = ls₁ ++ ls₂)
    (hb : (ls₂.flatMap Lexeme.bytes).head? = some newline) {e : Declaration}
    (he : e ∈ (extract t).directives) : ¬(e.order ≤ size ls₁ ∧ size ls₁ < e.stop) := by
  rintro ⟨hstart, hstop⟩
  obtain ⟨l₁, ds, l₂, hls, rfl⟩ := mem_directivesFrom.1 he
  obtain ⟨q, hq, -⟩ := encode_directiveText_of_append hls
  have hlen := congrArg List.length hq
  rw [List.length_append] at hlen
  simp only [Declaration.stop, Nat.zero_add] at hstart hstop
  have hfit : AllFit (l₁ ++ .directive ds :: l₂) := hls ▸ allFit_lexemesFrom true _
  obtain ⟨⟨b, hhead, hstarts⟩, -⟩ := hfit.of_append.1
  obtain ⟨ds, rfl⟩ := List.head?_eq_some_iff.1 hhead
  -- The directive would start where the newline stands.
  have hnot : ∀ m, m.flatMap Lexeme.bytes = [] → ls₂ ≠ m ++ .directive (b :: ds) :: l₂ := by
    rintro m hm rfl
    rw [List.flatMap_append, hm] at hb
    obtain rfl : b = newline := Option.some.inj hb
    exact absurd hstarts (by decide)
  rcases List.append_eq_append_iff.1 (h.symm.trans hls) with ⟨m, rfl, hm⟩ | ⟨m, rfl, hm⟩
  · refine hnot m (List.eq_nil_of_length_eq_zero ?_) hm
    rw [size, List.flatMap_append, List.length_append] at hstart
    rw [size] at hstart
    omega
  · cases m with
    | nil => exact hnot [] rfl hm.symm
    | cons l m =>
      obtain ⟨rfl, -⟩ := List.cons.inj hm
      rw [size, List.flatMap_append, List.flatMap_cons, List.length_append, List.length_append]
        at hstop
      rw [Lexeme.bytes, size] at hstop
      omega

variable {place : Nat} (hplace : (encode t)[place]? ≠ some newline)
  (hdirectives : ∀ e ∈ (extract t).directives, e.order < place → ClosesComments e.text)
  (hlines : ∀ n < place, ContinuesComment (encode t) n →
    ∃ e ∈ (extract t).directives, e.order ≤ n ∧ n < e.stop)

include hplace hdirectives hlines in
theorem isTidy_of_append {l : Lexeme} (h : lexemes (encode t) = ls₁ ++ l :: ls₂)
    (hsize : size (ls₁ ++ [l]) ≤ place) (hnil : l.bytes ≠ [])
    (hafter : contextAfter ((ls₁ ++ [l]).flatMap Lexeme.bytes) = contextAfter l.bytes) :
    l.IsTidy (ls₂.flatMap Lexeme.bytes) := by
  cases l with
  | directive ds =>
    have hlen : size (ls₁ ++ [.directive ds]) = size ls₁ + ds.length := by
      simp [size, Lexeme.bytes]
    have hpos := List.length_pos_iff.2 hnil
    rw [Lexeme.bytes] at hpos
    have hcloses := hdirectives _ (mem_directivesFrom.2 ⟨ls₁, ds, ls₂, h, rfl⟩)
      (by simp only; omega)
    obtain ⟨q, hq, hblanks⟩ := encode_directiveText_of_append h
    rw [Lexeme.IsTidy, ← hq, contextAfter, Context.run_append]
    exact inBlock_run_blanks hblanks hcloses
  | lineComment bs =>
    intro hhead hopen
    rw [List.append_cons] at h
    have ht : (lexemes (encode t)).flatMap Lexeme.bytes = encode t := flatMap_bytes_lexemes _
    rw [h, List.flatMap_append] at ht
    have hnewline : (encode t)[size (ls₁ ++ [.lineComment bs])]? = some newline := by
      rw [← ht, size, List.getElem?_append_right (Nat.le_refl _), Nat.sub_self,
        ← List.head?_eq_getElem?, hhead]
    have hne : size (ls₁ ++ [.lineComment bs]) ≠ place := fun he => hplace (he ▸ hnewline)
    have hcontinues : ContinuesComment (encode t) (size (ls₁ ++ [.lineComment bs])) := by
      refine ⟨hnewline, ?_⟩
      rw [← ht, size, List.take_left, hafter]
      exact hopen
    obtain ⟨e, he, hin⟩ := hlines _ (by omega) hcontinues
    exact not_in_directive h hhead he hin
  | _ => trivial

include hplace hdirectives hlines in
/-- Behind lexemes a reader of the language goes on as in code, unless a directive has left a
    comment open, or a line comment goes on in the next line. -/
theorem settled_of_append (h : lexemes (encode t) = ls₁ ++ ls₂) (hsize : size ls₁ ≤ place) :
    Settled (contextAfter (ls₁.flatMap Lexeme.bytes)) (ls₂.flatMap Lexeme.bytes) := by
  induction ls₁ using List.reverseRecOn generalizing ls₂ with
  | nil => exact settled_code _
  | append_singleton ls l ih =>
    rw [List.append_assoc, List.singleton_append] at h
    have hlen : size (ls ++ [l]) = size ls + l.bytes.length := by simp [size]
    have hbefore := ih h (by omega)
    rw [List.flatMap_cons] at hbefore
    have hbytes : (ls ++ [l]).flatMap Lexeme.bytes = ls.flatMap Lexeme.bytes ++ l.bytes := by
      simp
    by_cases hnil : l.bytes = []
    · rw [hnil, List.nil_append] at hbefore
      rwa [hbytes, hnil, List.append_nil]
    have hafter : contextAfter ((ls ++ [l]).flatMap Lexeme.bytes) = contextAfter l.bytes := by
      rw [hbytes, contextAfter, Context.run_append]
      exact hbefore.run hnil
    obtain ⟨lineStart, hsuffix⟩ := exists_lexemesFrom_suffix h
    rw [hafter]
    exact settled_of_lexemesFrom hsuffix
      (isTidy_of_append hplace hdirectives hlines h hsize hnil hafter)

end Text

/-- No definition and no prototype starts inside a block comment, if no directive before it leaves
    one open, and if the line comments before it that go on in the next line are in directives. -/
theorem not_inBlockComment_of_fragment {t : String} {d : Declaration}
    (hd : d ∈ (extract t).structsAndEnums ++ (extract t).prototypes)
    (hdirectives : ∀ e ∈ (extract t).directives, e.order < d.order → ClosesComments e.text)
    (hlines : ∀ n < d.order, ContinuesComment (encode t) n →
      ∃ e ∈ (extract t).directives, e.order ≤ n ∧ n < e.stop) :
    ¬InBlockComment (encode t) d.order := by
  have hfound : d ∈ (read (cells (encode t))).found := by
    rcases List.mem_append.1 hd with h | h <;> exact (List.mem_filter.1 h).1
  obtain ⟨front, c, back, hcells, horder, hword⟩ := exists_word_at_fragment hfound
  have hinert := isInert_of_word hword
  -- The fragment starts with a byte of a word, which is a lexeme of its own.
  obtain ⟨-, ls₁, ls₂, hls, hfront, -⟩ := exists_code_lexeme
    (fun q body closed h => quote_of_mem_lexemesFrom h) hcells (isBlank_of_word hword) hinert
  have hls : lexemes (encode t) = ls₁ ++ .code c.code :: ls₂ := hls
  have hsize : size ls₁ = d.order := by rw [horder, ← hfront, length_flatMap_cells]
  have ht : (lexemes (encode t)).flatMap Lexeme.bytes = encode t := flatMap_bytes_lexemes _
  rw [hls, List.flatMap_append, List.flatMap_cons] at ht
  have hplace : (encode t)[d.order]? ≠ some newline := by
    rw [← ht, ← hsize, size, List.getElem?_append_right (Nat.le_refl _), Nat.sub_self]
    intro h
    rw [show c.code = newline from Option.some.inj h] at hword
    exact absurd hword (by decide)
  have hsettled := settled_of_append hplace hdirectives hlines hls hsize.le
  rw [List.flatMap_cons] at hsettled
  have hnext : (contextAfter (ls₁.flatMap Lexeme.bytes)).next c.code = .code false := by
    have hquote : ¬(c.code = doubleQuote ∨ c.code = singleQuote) :=
      not_or.2 ⟨hinert.2.1, hinert.2.2.1⟩
    rw [hsettled c.code rfl]
    simp [Context.next, hquote, hinert.1]
  rintro ⟨k, hk, hblock⟩
  rw [← ht, ← hsize, size, List.take_length_add_append, contextAfter, Context.run_append,
    ← contextAfter] at hblock
  -- Neither before this byte nor behind it a comment is open, and the byte opens none.
  obtain rfl | rfl | rfl : k = 0 ∨ k = 1 ∨ k = 2 := by omega
  · exact absurd hblock (by simp [Context.run, hsettled.inBlock])
  · rw [Lexeme.bytes, List.singleton_append, List.take_succ_cons, Context.run_cons, hnext] at hblock
    exact absurd hblock (by simp [Context.run, Context.inBlock])
  · rw [Lexeme.bytes, List.singleton_append, List.take_succ_cons, Context.run_cons, hnext] at hblock
    cases hrest : ls₂.flatMap Lexeme.bytes with
    | nil =>
      rw [hrest] at hblock
      exact absurd hblock (by simp [Context.run, Context.inBlock])
    | cons b rest =>
      rw [hrest, List.take_succ_cons, List.take_zero] at hblock
      obtain ⟨hopening, -⟩ := Context.inBlock_next (c := .code false) rfl hblock
      exact absurd (Context.code.inj hopening) Bool.false_ne_true

/-- Comments that end in the directives where they start are no concern of what follows. -/
theorem not_inBlockComment_behind_closed :
    let t := "#define N 1 /* one */ // or \\\n  two\n/* int g(void); */\nint f(void);\n"
    ⟨.prototype, "int f(void);", 55⟩ ∈ (extract t).prototypes ∧ ¬InBlockComment (encode t) 55 :=
  have hd : ⟨.prototype, "int f(void);", 55⟩ ∈ (extract _).prototypes := by decide +kernel
  ⟨hd, not_inBlockComment_of_fragment (List.mem_append_right _ hd) (by decide +kernel)
    (by decide +kernel)⟩

/-- A prototype is found in a comment that a directive leaves open. -/
example : let t := "#define N 1 /* a\nint f(void);\n*/\n"
    ⟨.prototype, "int f(void);", 17⟩ ∈ (extract t).prototypes ∧ InBlockComment (encode t) 17 := by
  decide +kernel

end TestBench.Source
