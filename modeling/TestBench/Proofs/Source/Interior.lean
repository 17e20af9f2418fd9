import Mathlib.Data.List.Perm.Basic
import TestBench.SourceFile
import TestBench.Proofs.Source.Swap.Reading

/-!
# The inside of a comment

What a header says inside a block comment is of no consequence, whatever bytes it is made of: two
headers that differ there alone declare the same, but for the comment itself where it is part of a
declaration. The bytes need not spell a text. Their lenient reading starts anew at both marks of
the comment (`encode_lossy_commented`) and makes no mark of what is none
(`not_closing_lossy`), so that the comment is one in both headers if it is in one
(`exists_lexemes_commented`).

* `declarations_commented`: the declarations correspond, one by one;
* `extract_read_commented`: so they do if the headers are read from files.
-/

namespace TestBench.Source

open Utf8

/-- Bytes with a block comment in their middle. -/
def commented (before inside behind : List UInt8) : List UInt8 :=
  before ++ slash :: star :: (inside ++ star :: slash :: behind)

/-- Whether there is a block comment that many bytes into a text. -/
def CommentAt (bs : List UInt8) (n : Nat) : Prop :=
  ∃ ls comment rest, lexemes bs = ls ++ .blockComment comment :: rest ∧ size ls = n

/-- The block comment with an inside that is read leniently. -/
def commentText (inside : List UInt8) : String :=
  "/*" ++ lossy inside ++ "*/"

/-- Whether declarations of two headers are the same, or have the same text but for a comment. That
    starts `n` bytes into both headers. -/
def SameOutside (n : Nat) (comment comment' : String) (d d' : Declaration) : Prop :=
  d'.kind = d.kind ∧
    (d'.text = d.text ∨
      d'.order = d.order ∧ ∃ u v, d.order + (encode u).length = n ∧
        d.text = u ++ comment ++ v ∧ d'.text = u ++ comment' ++ v)

variable {p c c' q : List UInt8}

/-! ### Bytes -/

theorem lossyFrom_commented (p c q : List UInt8) :
    lossyFrom .between (commented p c q) = lossyFrom .between p ++
      '/' :: '*' :: (lossyFrom .between c ++ '*' :: '/' :: lossyFrom .between q) := by
  have hslash : slash < 0x80 := by decide
  have hstar : star < 0x80 := by decide
  rw [commented, lossyFrom_append_cons hslash, lossyFrom_ascii hstar, lossyFrom_append_cons hstar,
    lossyFrom_ascii hslash]
  rfl

/-- What stands on either side of a mark is read by itself. -/
theorem encode_lossy_commented (p c q : List UInt8) : encode (lossy (commented p c q)) =
    commented (encode (lossy p)) (encode (lossy c)) (encode (lossy q)) := by
  have hslash : String.utf8EncodeChar '/' = [slash] := by decide
  have hstar : String.utf8EncodeChar '*' = [star] := by decide
  rw [lossy, encode_ofList, lossyFrom_commented]
  simp only [commented, lossy, encode_ofList, encodeChars_append, encodeChars_cons, hslash, hstar,
    List.singleton_append]

/-- No mark is read that does not stand there. -/
theorem not_closing_lossy (h : ¬[star, slash] <:+: c) : ¬[star, slash] <:+: encode (lossy c) := by
  intro hread
  rw [lossy, encode_ofList] at hread
  have hchars : ['*', '/'] <:+: lossyFrom .between c :=
    infix_of_infix_encodeChars (by decide) (by decide) (by decide) (by decide) hread
  exact h (infix_of_infix_lossyFrom (by decide) (by decide) hchars)

/-! ### Cells of a comment -/

section Comments

variable {xs xs' front u l' : List Cell}

/-- Whether cells are those of a block comment: all of them are blank as code, and what is written
    starts and ends with a slash. -/
structure IsComment (xs : List Cell) : Prop where
  isBlank : ∀ c ∈ xs, c.isBlank
  ends : ∃ mid, xs.map Cell.raw = slash :: (mid ++ [slash])

theorem IsComment.isBlanks (h : IsComment xs) : IsBlanks xs := by
  refine ⟨?_, h.isBlank⟩
  rintro rfl
  obtain ⟨mid, hmid⟩ := h.ends
  cases hmid

/-- Whatever stands around a comment, its text is read by itself. -/
theorem IsComment.exists_rawText (h : IsComment xs) :
    ∃ mid : List Char, rawText xs = String.ofList ('/' :: (mid ++ ['/'])) ∧
      ∀ u v, rawText (u ++ (xs ++ v)) = rawText u ++ rawText xs ++ rawText v := by
  obtain ⟨mid, hmid⟩ := h.ends
  have hslash : slash < 0x80 := by decide
  have hread : ∀ p q, lossyFrom .between (p ++ slash :: (mid ++ slash :: q)) =
      lossyFrom .between p ++ '/' :: (lossyFrom .between mid ++ '/' :: lossyFrom .between q) := by
    intro p q
    rw [lossyFrom_append_cons hslash, lossyFrom_append_cons hslash]
    rfl
  have hself : rawText xs = String.ofList ('/' :: (lossyFrom .between mid ++ ['/'])) := by
    rw [rawText, hmid, lossy]
    exact congrArg String.ofList (hread [] [])
  refine ⟨lossyFrom .between mid, hself, fun u v => ?_⟩
  rw [hself, rawText, rawText, rawText, List.map_append, List.map_append, hmid, lossy, lossy, lossy,
    ← String.ofList_append, ← String.ofList_append]
  refine congrArg String.ofList ?_
  simpa using hread (u.map Cell.raw) (v.map Cell.raw)

/-- Blanks at the end of a text do not reach into a comment. -/
theorem IsComment.trimEnd (h : IsComment xs) (s t : String) :
    Text.trimEnd (s ++ rawText xs ++ t) = s ++ rawText xs ++ Text.trimEnd t := by
  obtain ⟨mid, hself, -⟩ := h.exists_rawText
  have hslash : Text.isBlank '/' = false := by decide
  apply String.toList_injective
  rw [hself]
  simp only [Text.trimEnd, Text.dropTail, String.toList_append, String.toList_ofList]
  simp [dropWhile_append_cons hslash]

/-- A comment is written with a slash, so that no block of C linkage opens behind it. -/
theorem Swap.opensLinkage {s : Statement} (h : Swap xs xs' u s.head l') (hxs : IsComment xs) :
    s.opensLinkage = false := by
  obtain ⟨v, hhead, -⟩ := h.exists_parts
  obtain ⟨mid, hself, hread⟩ := hxs.exists_rawText
  rw [← Bool.not_eq_true, Statement.opensLinkage, hhead, hread, beq_iff_eq]
  intro heq
  have hslash : '/' ∈ "extern\"C\"".toList := by
    rw [← heq, List.mem_filter, hself]
    exact ⟨by simp, by decide⟩
  exact absurd hslash (by decide)

theorem IsComment.interchangeable (hxs : IsComment xs) (hxs' : IsComment xs') :
    Interchangeable xs xs' where
  isBlanks := hxs.isBlanks
  isBlanks' := hxs'.isBlanks
  linkage h := by rw [h.opensLinkage hxs, h.symm.opensLinkage hxs']

/-- Of two texts that differ in the inside of a comment, both are the same up to the comment and
    from its end on. -/
inductive SwappedText (xs xs' front : List Cell) : Declaration → Declaration → Prop
  | moved {kind : DeclarationKind} {text : String} {a b : Nat} (h : Moves xs xs' front a b) :
    SwappedText xs xs' front ⟨kind, text, a⟩ ⟨kind, text, b⟩
  | across {kind : DeclarationKind} {u : List Cell} {v : String} {a : Nat}
      (hu : u <:+ front) (ha : a + u.length = front.length) :
    SwappedText xs xs' front ⟨kind, rawText u ++ rawText xs ++ v, a⟩
      ⟨kind, rawText u ++ rawText xs' ++ v, a⟩

theorem SwappedText.moves {d d' : Declaration} (h : SwappedText xs xs' front d d') :
    Moves xs xs' front d.order d'.order := by
  cases h with
  | moved h => exact h
  | across _ ha => exact .before (by simp only; omega)

/-- The fragments with the comment in them are read as such texts. -/
theorem IsComment.relates (hxs : IsComment xs) (hxs' : IsComment xs') :
    Relates xs xs' front (SwappedText xs xs' front) := by
  obtain ⟨-, -, hread⟩ := hxs.exists_rawText
  obtain ⟨-, -, hread'⟩ := hxs'.exists_rawText
  refine ⟨fun {d d'} hkind htext h => ?_, fun h => ?_, fun h => ?_⟩
  · obtain ⟨kind, text, b⟩ := d'
    obtain rfl : kind = d.kind := hkind
    obtain rfl : text = d.text := htext
    exact .moved h
  · cases h with
    | moved h => exact .moved h
    | across h hu ha =>
      obtain ⟨v, rfl, rfl⟩ := h.exists_parts
      rw [Excerpt.declaration, Excerpt.declaration, hread, hread']
      exact .across hu ha
  · cases h with
    | moved h => exact .moved h
    | across h hu ha =>
      obtain ⟨v, rfl, rfl⟩ := h.exists_parts
      rw [Excerpt.trimmed, Excerpt.trimmed, hread, hread', hxs.trimEnd, hxs'.trimEnd]
      exact .across hu ha

end Comments

/-! ### Lexemes and cells -/

theorem length_cells_lexeme (l : Lexeme) : l.cells.length = l.bytes.length := by
  rw [← raw_cells_lexeme, List.length_map]

/-- The cells of a block comment. -/
def commentCells (inside : List UInt8) : List Cell :=
  (Lexeme.blockComment (slash :: star :: (inside ++ [star, slash]))).cells

theorem isComment_commentCells (inside : List UInt8) : IsComment (commentCells inside) := by
  refine ⟨fun b hb => ?_, star :: (inside ++ [star]), ?_⟩
  · obtain ⟨x, -, rfl⟩ := List.mem_map.1 hb
    exact isBlank_blanked x
  · rw [commentCells, raw_cells_lexeme, Lexeme.bytes]
    simp

theorem rawText_commentCells (inside : List UInt8) :
    rawText (commentCells (encode (lossy inside))) = commentText inside := by
  have hcomment : slash :: star :: (encode (lossy inside) ++ [star, slash]) =
      encode (commentText inside) := by
    have hopen : encode "/*" = [slash, star] := by decide
    have hclose : encode "*/" = [star, slash] := by decide
    rw [commentText, encode_append, encode_append, hopen, hclose]
    simp
  rw [rawText, commentCells, raw_cells_lexeme, Lexeme.bytes, hcomment, lossy_encode]

/-- If there is a comment with one inside then there is one with any other. -/
theorem exists_lexemes_commented (h : CommentAt (commented p c q) p.length) :
    ∃ ls rest, ls.flatMap Lexeme.bytes = p ∧ ∀ c', ¬[star, slash] <:+: c' →
      lexemes (commented p c' q) =
        ls ++ .blockComment (slash :: star :: (c' ++ [star, slash])) :: rest := by
  obtain ⟨ls, comment, rest, hls, hsize⟩ := h
  have hbytes : ls.flatMap Lexeme.bytes ++ (comment ++ rest.flatMap Lexeme.bytes) =
      p ++ slash :: star :: (c ++ star :: slash :: q) := by
    have hall := flatMap_bytes_lexemes (commented p c q)
    rw [hls, List.flatMap_append, List.flatMap_cons] at hall
    exact hall
  obtain ⟨hp, hbehind⟩ := List.append_inj hbytes hsize
  -- The comment starts with its mark, and so what is in front of it does not depend on its inside.
  have hhead : comment.head? = some slash := by
    obtain ⟨_, hsuffix⟩ := exists_lexemesFrom_suffix hls
    have hcut := (lexemesFrom_of_ne_directive hsuffix (by simp)).1
    rw [List.flatMap_cons, Lexeme.bytes, hbehind, lexemesFrom_slash_star ⟨rfl, rfl⟩] at hcut
    obtain ⟨hcomment, -⟩ := List.cons.inj hcut
    rw [← Lexeme.blockComment.inj hcomment]
    rfl
  refine ⟨ls, lexemesFrom false q, hp, fun c' hc' => ?_⟩
  have hbehind' := lexemesFrom_behind hls (by simp) hhead (by decide)
    (r := slash :: star :: (c' ++ star :: slash :: q)) rfl
  rw [hp, lexemesFrom_blockComment hc'] at hbehind'
  exact hbehind'

/-! ### Merging -/

section Merge

variable {R : Declaration → Declaration → Prop} {ds ds' : List Declaration}

theorem exists_of_mem_right (h : List.Forall₂ R ds ds') : ∀ e' ∈ ds', ∃ e ∈ ds, R e e' := by
  induction h with
  | nil => exact fun _ h => absurd h List.not_mem_nil
  | @cons d d' _ _ hd _ ih =>
    refine List.forall_mem_cons.2 ⟨⟨d, List.mem_cons_self, hd⟩, fun e' he' => ?_⟩
    obtain ⟨e, he, hee⟩ := ih e' he'
    exact ⟨e, List.mem_cons_of_mem _ he, hee⟩

variable (hR : ∀ {d d' e e'}, R d d' → R e e' → d.order < e.order → d'.order < e'.order)
include hR

theorem inOrder_of_forall₂ (h : List.Forall₂ R ds ds') (hds : InOrder ds) : InOrder ds' := by
  induction h with
  | nil => exact .nil
  | cons hd hall ih =>
    obtain ⟨hfirst, hds⟩ := List.pairwise_cons.1 hds
    refine .cons (fun e' he' => ?_) (ih hds)
    obtain ⟨e, he, hee⟩ := exists_of_mem_right hall e' he'
    exact hR hd hee (hfirst e he)

/-- If the directives of two texts correspond, and what is found at file scope does, then merging
    puts both in the same order. -/
theorem forall₂_declarations {t t' : String}
    (h : List.Forall₂ R (directivesFrom 0 (lexemes (encode t)))
      (directivesFrom 0 (lexemes (encode t'))))
    (h' : List.Forall₂ R (read (cells (encode t))).found (read (cells (encode t'))).found) :
    List.Forall₂ R (extract t).declarations (extract t').declarations := by
  obtain ⟨ds, hds, hperm⟩ :=
    List.perm_comp_forall₂ (declarations_perm_found t) (List.rel_append h h')
  rwa [declarations_eq (inOrder_of_forall₂ hR hds (inOrder_declarations t)) hperm]

end Merge

/-! ### Headers -/

/-- The directives of two headers that differ in the inside of a comment are the same, only further
    on in one of them. -/
theorem directives_swapped {xs xs' front : List Cell} {ls rest : List Lexeme} {l l' : Lexeme}
    (hls : ∀ ds, .directive ds ∈ ls → ds ≠ []) (hl : ∀ ds, l ≠ .directive ds)
    (hl' : ∀ ds, l' ≠ .directive ds) (hfront : front.length = size ls)
    (hxs : xs.length = l.bytes.length) (hxs' : xs'.length = l'.bytes.length) :
    List.Forall₂ (SwappedText xs xs' front) (directivesFrom 0 (ls ++ l :: rest))
      (directivesFrom 0 (ls ++ l' :: rest)) := by
  have hcut : ∀ {l : Lexeme}, (∀ ds, l ≠ .directive ds) → directivesFrom 0 (ls ++ l :: rest) =
      directivesFrom 0 ls ++ (directivesFrom 0 rest).map (·.shift (size ls + l.bytes.length)) := by
    intro l hl
    have hnone : directivesFrom (0 + size ls) [l] = [] :=
      directivesFrom_eq_nil (fun ds hds => hl ds (List.mem_singleton.1 hds).symm) _
    have hsize : size (ls ++ [l]) = size ls + l.bytes.length := by simp [size]
    rw [List.append_cons, directivesFrom_append, directivesFrom_append, hnone, List.append_nil,
      hsize, directivesFrom_add]
  rw [hcut hl, hcut hl']
  refine List.rel_append (List.forall₂_same.2 fun d hd => ?_) ?_
  · have := order_lt_of_mem_directivesFrom hls hd
    exact .moved (.before (by omega))
  · refine List.forall₂_map_left_iff.2 (List.forall₂_map_right_iff.2 (List.forall₂_same.2 ?_))
    exact fun d _ => .moved (.behind (by omega) (by omega))

/-- If a declaration contains the comment then that is where the comment is in the header. -/
theorem SwappedText.sameOutside {t : String} {front xs xs' : List Cell} {d d' : Declaration}
    {rest : List UInt8} (h : SwappedText xs xs' front d d') (hd : d.IsSliceOf t)
    (ht : encode t = front.map Cell.raw ++ slash :: rest) :
    SameOutside front.length (rawText xs) (rawText xs') d d' := by
  cases h with
  | moved h => exact ⟨rfl, .inl rfl⟩
  | @across kind u v order hu horder =>
    refine ⟨rfl, .inr ⟨rfl, rawText u, v, ?_, rfl, rfl⟩⟩
    obtain ⟨a, b, hab, ha⟩ := hd.between
    obtain ⟨before, rfl⟩ := hu
    rw [List.length_append] at horder
    -- The bytes in front of the declaration are whole characters, and so are those up to the mark.
    have hbytes : before.map Cell.raw ++ (u.map Cell.raw ++ slash :: rest) =
        encode a ++ encode (rawText u ++ rawText xs ++ v ++ b) := by
      rw [← encode_append, ← String.append_assoc, hab, ht, List.map_append, List.append_assoc]
    obtain ⟨-, htail⟩ := List.append_inj hbytes (by rw [List.length_map, ha]; simp only; omega)
    obtain ⟨htext, -, -⟩ := IsText.split_ascii (htail ▸ isText_encode _) (by decide)
    rw [rawText, encode_lossy htext, List.length_map, List.length_append]
    simp only
    omega

/-- Two headers that differ in the inside of a block comment alone declare the same, one by one, but
    for that comment. -/
theorem declarations_commented (hc : ¬[star, slash] <:+: c) (hc' : ¬[star, slash] <:+: c')
    (h : CommentAt (encode (lossy (commented p c q))) (encode (lossy p)).length) :
    List.Forall₂ (SameOutside (encode (lossy p)).length (commentText c) (commentText c'))
      (extract (lossy (commented p c q))).declarations
      (extract (lossy (commented p c' q))).declarations := by
  have hencode := encode_lossy_commented p c q
  have hencode' := encode_lossy_commented p c' q
  rw [hencode] at h
  obtain ⟨ls, rest, hls, hlexemes⟩ := exists_lexemes_commented h
  have hlex := hlexemes _ (not_closing_lossy hc)
  have hlex' := hlexemes _ (not_closing_lossy hc')
  rw [← hencode] at hlex
  rw [← hencode'] at hlex'
  have hraw : (ls.flatMap Lexeme.cells).map Cell.raw = encode (lossy p) := by
    rw [raw_flatMap_cells, hls]
  have hfront : (ls.flatMap Lexeme.cells).length = (encode (lossy p)).length := by
    rw [← hraw, List.length_map]
  have hxs := isComment_commentCells (encode (lossy c))
  have hxs' := isComment_commentCells (encode (lossy c'))
  have hdirectives : List.Forall₂ (SwappedText (commentCells (encode (lossy c)))
      (commentCells (encode (lossy c'))) (ls.flatMap Lexeme.cells))
      (directivesFrom 0 (lexemes (encode (lossy (commented p c q)))))
      (directivesFrom 0 (lexemes (encode (lossy (commented p c' q))))) := by
    have hne : ∀ ds, .directive ds ∈ ls → ds ≠ [] := fun ds hds => by
      have hmem : .directive ds ∈ lexemesFrom true (encode (lossy (commented p c q))) := by
        rw [← lexemes, hlex]
        exact List.mem_append_left _ hds
      exact ne_nil_of_directive hmem
    rw [hlex, hlex']
    exact directives_swapped hne (by simp) (by simp) (length_flatMap_cells ls)
      (length_cells_lexeme _) (length_cells_lexeme _)
  have hfound : List.Forall₂ (SwappedText (commentCells (encode (lossy c)))
      (commentCells (encode (lossy c'))) (ls.flatMap Lexeme.cells))
      (read (cells (encode (lossy (commented p c q))))).found
      (read (cells (encode (lossy (commented p c' q))))).found := by
    rw [cells, cells, hlex, hlex', List.flatMap_append, List.flatMap_append, List.flatMap_cons,
      List.flatMap_cons]
    exact found_of_swap (hxs.interchangeable hxs') (hxs.relates hxs') _
  have hall := forall₂_declarations
    (fun h h' => (h.moves.lt_iff h'.moves hxs.isBlanks.1 hxs'.isBlanks.1).1) hdirectives hfound
  have hbytes : encode (lossy (commented p c q)) = (ls.flatMap Lexeme.cells).map Cell.raw ++
      slash :: star :: (encode (lossy c) ++ star :: slash :: encode (lossy q)) := by
    rw [hencode, hraw, commented]
  rw [← hfront, ← rawText_commentCells c, ← rawText_commentCells c']
  refine ((List.forall₂_and_left _ _).2 ⟨fun d hd => isSliceOf_of_mem hd, hall⟩).imp ?_
  rintro d d' ⟨hd, h⟩
  exact h.sameOutside hd hbytes

/-! ### Header files -/

theorem run_askAbout {σ α : Type} {w : World σ} {p : Path} {f : FileTree → Except Fault α} {a : α}
    (h : f w.files = .ok a) : (SourceFile.askAbout p f).run w = (.ok a, w) := by
  rw [SourceFile.askAbout, Action.run_bind, Action.files, Action.run_ofFunction]
  simp only [h]
  rfl

/-- Whatever its bytes are, a header is the text that they are read as leniently. -/
theorem exists_decode_header (bytes : List UInt8) :
    ∃ replaced, SourceFile.decode .header bytes = .ok (lossy bytes, replaced) := by
  cases h : decodeFrom 0 .between bytes with
  | error fault =>
    have hdecode : decode bytes = .error fault := by rw [decode, h]; rfl
    exact ⟨true, by simp only [SourceFile.decode, hdecode]⟩
  | ok cs =>
    have hdecode : decode bytes = .ok (lossy bytes) := by
      rw [decode, h, lossy, lossyFrom_eq_of_decodeFrom h]
      rfl
    exact ⟨false, SourceFile.decode_of_text hdecode .header⟩

theorem run_read_header {σ : Type} {w : World σ} {path full : Path} {bytes : List UInt8}
    (hpath : w.files.canonical path = .ok full) (hbytes : w.files.readBytes full = .ok bytes) :
    ((SourceFile.read path .header : Action σ SourceFile).run w).1 =
      .ok ⟨full, .header, lossy bytes⟩ := by
  obtain ⟨replaced, hdecode⟩ := exists_decode_header bytes
  rw [SourceFile.read, Action.run_bind, run_askAbout hpath]
  simp only
  rw [Action.run_bind, run_askAbout hbytes]
  simp only [hdecode]
  cases replaced <;> rfl

/-- What a header says inside a block comment is of no consequence. If two header files are the
    same but for the inside of a block comment, whatever bytes that is made of, then both are read,
    and what they declare corresponds, one by one: two declarations are of the same kind, and their
    texts are the same too, unless both contain the comment and differ in it alone. -/
theorem extract_read_commented {σ : Type} {p c c' q : List UInt8} (hc : ¬[star, slash] <:+: c)
    (hc' : ¬[star, slash] <:+: c')
    (hcomment : CommentAt (encode (lossy (commented p c q))) (encode (lossy p)).length)
    {w w' : World σ} {path full path' full' : Path} (hpath : w.files.canonical path = .ok full)
    (hbytes : w.files.readBytes full = .ok (commented p c q))
    (hpath' : w'.files.canonical path' = .ok full')
    (hbytes' : w'.files.readBytes full' = .ok (commented p c' q)) :
    ∃ header header' : SourceFile,
      ((SourceFile.read path .header : Action σ SourceFile).run w).1 = .ok header ∧
      ((SourceFile.read path' .header : Action σ SourceFile).run w').1 = .ok header' ∧
      List.Forall₂ (SameOutside (encode (lossy p)).length (commentText c) (commentText c'))
        (extract header.content).declarations (extract header'.content).declarations :=
  ⟨_, _, run_read_header hpath hbytes, run_read_header hpath' hbytes',
    declarations_commented hc hc' hcomment⟩

/-- Code that starts nothing leads up to a comment. -/
theorem commentAt_of_inert (hp : ∀ b ∈ p, IsInert b) (hc : ¬[star, slash] <:+: c) :
    CommentAt (commented p c q) p.length := by
  have hmark : NoDirective (slash :: star :: (c ++ star :: slash :: q)) :=
    noDirective_of_not_blank (by decide) (by decide) _
  have hno : NoDirective (commented p c q) :=
    noDirective_append (fun hm => (hp hash hm).2.2.2 rfl) hmark
  refine ⟨p.map codeLexeme, slash :: star :: (c ++ [star, slash]), lexemesFrom false q, ?_, ?_⟩
  · rw [lexemes, lexemesFrom_true hno, commented, lexemesFrom_inert hp hmark,
      lexemesFrom_blockComment hc]
  · have hcells : (p.map codeLexeme).flatMap Lexeme.cells = p.map .plain := by
      rw [List.flatMap_map, List.map_eq_flatMap]
      exact congrArg (List.flatMap · p) (funext cells_codeLexeme)
    rw [← length_flatMap_cells, hcells, List.length_map]

/-- A world with nothing in it but a header. -/
def headerWorld (bytes : List UInt8) : World Unit :=
  ⟨FileTree.empty.insert ["f.h"] (.file bytes false), [], (), []⟩

/-- So a parameter is found behind a comment, whether that is empty or has in it a byte that is no
    text, and a brace. -/
theorem extract_read_commented_prototype :
    CommentAt (encode (lossy (commented (encode "int f(") [] (encode "int a);\n"))))
        (encode (lossy (encode "int f("))).length ∧
      ∃ header header' : SourceFile,
        ((SourceFile.read ⟨"/f.h"⟩ .header : Action Unit SourceFile).run
          (headerWorld (commented (encode "int f(") [] (encode "int a);\n")))).1 = .ok header ∧
        ((SourceFile.read ⟨"/f.h"⟩ .header : Action Unit SourceFile).run
          (headerWorld (commented (encode "int f(") [0xFF, openBrace] (encode "int a);\n")))).1 =
            .ok header' ∧
        List.Forall₂ (SameOutside (encode (lossy (encode "int f("))).length (commentText [])
            (commentText [0xFF, openBrace]))
          (extract header.content).declarations (extract header'.content).declarations := by
  have hinert : ∀ b ∈ encode "int f(", IsInert b := by
    unfold IsInert
    decide +kernel
  have hnone : ¬[star, slash] <:+: ([] : List UInt8) := by decide
  have hcomment : CommentAt (encode (lossy (commented (encode "int f(") [] (encode "int a);\n"))))
      (encode (lossy (encode "int f("))).length := by
    rw [encode_lossy_commented, lossy_encode]
    exact commentAt_of_inert hinert (not_closing_lossy hnone)
  have hpath : ∀ c ∈ [[], [0xFF, openBrace]], (headerWorld (commented (encode "int f(") c
      (encode "int a);\n"))).files.canonical ⟨"/f.h"⟩ = .ok ⟨"/f.h"⟩ := by
    simp only [List.forall_mem_cons]
    decide +kernel
  have hbytes : ∀ c ∈ [[], [0xFF, openBrace]], (headerWorld (commented (encode "int f(") c
      (encode "int a);\n"))).files.readBytes ⟨"/f.h"⟩ =
        .ok (commented (encode "int f(") c (encode "int a);\n")) := by
    simp only [List.forall_mem_cons]
    decide +kernel
  exact ⟨hcomment, extract_read_commented hnone (by decide) hcomment (hpath _ (by simp))
    (hbytes _ (by simp)) (hpath _ (by simp)) (hbytes _ (by simp))⟩

end TestBench.Source
