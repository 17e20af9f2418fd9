import TestBench.Proofs.Source.Bytewise
import TestBench.Proofs.Source.Gathered

/-!
# Directives of a gathered text

Where no directive lies in a definition or in a prototype, the directives of a gathered text are
those of the header, each once: from the text of a directive nothing but the directive is
extracted again, and from the text of a fragment no directive at all. Whoever reads byte by byte
marks the text of a fragment as he did where the fragment stands, so that he can find a directive
only where there was one (`exists_directive_of_front`).

Unlike for all that is extracted, it does not matter here whether a definition has an end. One
without an end is the last declaration, since only blanks are behind its text.

* `directivesIn_of_fragment`: the text of a fragment has no directives;
* `isLine_of_mem_dropLast`: every declaration but the last is a line;
* `directivesIn_gathered`: the directives of a gathered text;
* `flatMap_gatheredTexts`: what else is read from the texts of directives only.
-/

namespace TestBench.Source

open Utf8

/-- The texts of the directives of a text. -/
def directivesIn (t : String) : List String :=
  (extract t).directives.map Declaration.text

/-- Whether no directive of a text shares a byte with a definition or a prototype. -/
def DirectivesApart (t : String) : Prop :=
  ∀ d ∈ (extract t).directives, ∀ f ∈ (extract t).structsAndEnums ++ (extract t).prototypes,
    d.Apart f

instance (t : String) : Decidable (DirectivesApart t) :=
  inferInstanceAs (Decidable (∀ d ∈ (extract t).directives,
    ∀ f ∈ (extract t).structsAndEnums ++ (extract t).prototypes, d.stop ≤ f.order ∨
      f.stop ≤ d.order))

/-! ### Directives among lexemes -/

/-- What is marked as a directive in front belongs to a directive that starts there. -/
theorem exists_directive_of_marks {ls : List Lexeme} {ms rest : List Marked}
    (h : ls.flatMap Lexeme.marks = ms ++ rest) {m : Marked} (hm : m ∈ ms)
    (hrole : m.2 = .directive) :
    ∃ la ds lb, ls = la ++ .directive ds :: lb ∧ size la < ms.length := by
  induction ls generalizing ms with
  | nil =>
    obtain ⟨rfl, -⟩ := List.append_eq_nil_iff.1 h.symm
    exact absurd hm List.not_mem_nil
  | cons l ls ih =>
    by_cases hl : ∃ ds, l = .directive ds
    · obtain ⟨ds, rfl⟩ := hl
      exact ⟨[], ds, ls, rfl, List.length_pos_of_mem hm⟩
    have hnot : m ∉ l.marks := fun h => ne_directive_of_mem_marks (not_exists.1 hl) m h hrole
    rw [List.flatMap_cons] at h
    rcases List.append_eq_append_iff.1 h with ⟨front, rfl, hfront⟩ | ⟨front, hfront, -⟩
    · obtain ⟨la, ds, lb, rfl, hlt⟩ := ih hfront ((List.mem_append.1 hm).resolve_left hnot)
      refine ⟨l :: la, ds, lb, rfl, ?_⟩
      rw [size_cons, List.length_append, ← map_fst_marks_lexeme, List.length_map]
      omega
    · exact absurd (hfront ▸ List.mem_append_left _ hm) hnot

/-- If a text starts with another one, a directive of this one starts in it in the whole text as
    well. -/
theorem exists_directive_of_front {bs ds : List UInt8} (bs' : List UInt8)
    (h : .directive ds ∈ lexemes bs) :
    ∃ la ds' lb, lexemes (bs ++ bs') = la ++ .directive ds' :: lb ∧ size la < bs.length := by
  have hmarks := fun bs => marks_eq_lexemesFrom true bs
  simp only [if_pos] at hmarks
  obtain ⟨ms, m', happend, hself⟩ := (Mode.margin []).marks_append bs bs'
  rw [hmarks] at happend hself
  obtain ⟨b, ds, rfl⟩ := List.exists_cons_of_ne_nil (ne_nil_of_directive h)
  have hmem : (b, Role.directive) ∈ (lexemesFrom true bs).flatMap Lexeme.marks :=
    List.mem_flatMap.2 ⟨_, h, List.mem_cons_self⟩
  -- It is not held back, since what is held back is code.
  have hms : (b, Role.directive) ∈ ms := by
    rw [hself] at hmem
    exact (List.mem_append.1 hmem).resolve_right (by simp)
  obtain ⟨la, ds', lb, hls, hlt⟩ := exists_directive_of_marks happend hms rfl
  refine ⟨la, ds', lb, hls, Nat.lt_of_lt_of_le hlt ?_⟩
  have hlength := congrArg List.length hself
  rw [length_flatMap_marks, size, flatMap_bytes_lexemesFrom, List.length_append] at hlength
  omega

theorem hash_mem_of_directive {lineStart : Bool} {bs ds : List UInt8} {ls : List Lexeme}
    (h : lexemesFrom lineStart bs = .directive ds :: ls) : hash ∈ ds := by
  obtain ⟨rfl, -⟩ := lexemesFrom_directive h
  by_cases hhash : (splitBlanks bs).2.head? = some hash
  · rw [lexemesFrom_of_hash hhash] at h
    obtain rfl := Lexeme.directive.inj (List.cons.inj h).1
    obtain ⟨rest, hrest⟩ := List.head?_eq_some_iff.1 hhash
    obtain ⟨cut, hcut⟩ := splitDirective_hash rest
    rw [hrest, hcut]
    exact List.mem_append_right _ List.mem_cons_self
  · exact absurd (lexemesFrom_true hhash ▸ h) (lexemesFrom_ne_directive bs ds ls)

/-! ### The text of a fragment -/

/-- Where a fragment starts there is a lexeme of code, and the bytes from there on start with the
    text of the fragment. -/
theorem exists_lexemes_at_fragment {t : String} {f : Declaration}
    (hf : f ∈ (read (cells (encode t))).found) :
    ∃ ls₁ ls₂ q, lexemes (encode t) = ls₁ ++ ls₂ ∧ f.order = size ls₁ ∧
      lexemes (encode f.text ++ q) = ls₂ ∧ ∃ b, ls₂.head? = some (.code b) := by
  have hcuts := cuts_read (cells (encode t))
  obtain ⟨front, mid, after, hcs, hfrag⟩ := hcuts.exists_fragment hf
  obtain ⟨c, hc, hword⟩ := hfrag.startsWord
  have hsound : ∀ c ∈ mid, c.IsSound := fun c hc =>
    isSound_of_mem_cells c (hcs ▸ List.mem_append_right _ (List.mem_append_left _ hc))
  have htext : IsText (front.map Cell.raw ++ (mid ++ after).map Cell.raw) := by
    rw [← List.map_append, hcs, raw_cells]
    exact isText_encode t
  obtain ⟨-, -, q, -, hq⟩ := hfrag.isText hsound htext
  obtain ⟨mid, rfl⟩ := List.head?_eq_some_iff.1 hc
  obtain ⟨hplain, ls₁, ls₂, hls, rfl, hls₂⟩ := exists_code_lexeme
    (fun _ _ _ => quote_of_mem_lexemesFrom) hcs.symm (isBlank_of_word hword) (isInert_of_word hword)
  have hbytes : (.code c.code :: ls₂).flatMap Lexeme.bytes =
      encode f.text ++ (q ++ after.map Cell.raw) := by
    rw [← List.append_assoc, hq, ← List.map_append, ← raw_flatMap_cells, List.flatMap_cons, hls₂,
      Lexeme.cells, ← hplain]
    rfl
  refine ⟨ls₁, .code c.code :: ls₂, q ++ after.map Cell.raw, hls, ?_, ?_, c.code, rfl⟩
  · rw [hfrag.order_eq, Nat.zero_add, length_flatMap_cells]
  · obtain ⟨lineStart, hsuffix⟩ := exists_lexemesFrom_suffix hls
    rw [← hbytes]
    exact (lexemesFrom_true (noDirective_of_word hword _)).trans
      (lexemesFrom_of_ne_directive hsuffix (by simp)).1

/-- The text of a fragment that no directive lies in has no directives. -/
theorem directivesIn_of_fragment {t : String} {f : Declaration}
    (hf : f ∈ (read (cells (encode t))).found) (h : ∀ d ∈ (extract t).directives, d.Apart f) :
    directivesIn f.text = [] := by
  obtain ⟨ls₁, ls₂, q, hls, horder, halone, b, hb⟩ := exists_lexemes_at_fragment hf
  have hnone : ∀ ds, .directive ds ∉ lexemes (encode f.text) := by
    intro ds hds
    obtain ⟨la, ds', lb, hls', hlt⟩ := exists_directive_of_front q hds
    obtain rfl := halone.symm.trans hls'
    have hd := h ⟨.directive, directiveText ds', 0 + size (ls₁ ++ la)⟩
      (mem_directivesFrom.2 ⟨ls₁ ++ la, ds', lb, by rw [hls, List.append_assoc], rfl⟩)
    -- It does not start where the fragment does, since there is code.
    have hpos : 0 < size la := by
      cases la with
      | nil => simp at hb
      | cons l la =>
        obtain rfl := Option.some.inj hb
        rw [size_cons]
        exact Nat.add_pos_left Nat.one_pos _
    have hsize : size (ls₁ ++ la) = size ls₁ + size la := by simp [size]
    simp only [Declaration.Apart, Declaration.stop, horder, hsize] at hd
    omega
  rw [directivesIn, show (extract f.text).directives = directivesFrom 0 (lexemes _) from rfl,
    directivesFrom_eq_nil hnone, List.map_nil]

/-! ### Lines -/

theorem Row.exists_of_mem {n : Nat} {cs : List Cell} {es : List Excerpt} (h : Row n cs es)
    {e : Excerpt} (he : e ∈ es) :
    ∃ gap after, cs = gap ++ (e.cells ++ after) ∧ Whole e.kind e.cells := by
  induction h with
  | nil => exact absurd he List.not_mem_nil
  | @cons n k gap mid after es hw _ ih =>
    rcases List.mem_cons.1 he with rfl | he
    · exact ⟨gap, after, rfl, hw⟩
    · obtain ⟨gap', after', rfl, hw'⟩ := ih he
      exact ⟨gap ++ (mid ++ gap'), after', by simp, hw'⟩

/-- The text of a whole fragment is a line. -/
theorem isLine_of_whole {t : String} {k : DeclarationKind} {gap mid after : List Cell}
    (h : cells (encode t) = gap ++ (mid ++ after)) (hw : Whole k mid) : IsLine (rawText mid) := by
  have hlexemes : lexemesFrom true (encode t) = lexemes (encode t) := rfl
  obtain ⟨lg, lm, la, hls, rfl, rfl, rfl, hlm, -⟩ := hw.exists_lexemes hlexemes h
  have ht : IsText ((lexemes (encode t)).flatMap Lexeme.bytes) := by
    rw [flatMap_bytes_lexemes]
    exact isText_encode t
  exact hw.isLine hlm (hw.isText_lexemes (hls ▸ ht)).1

/-- The text of a directive is a line, unless the directive is the last declaration. -/
theorem isLine_or_last_directive {t : String} {d : Declaration} (hd : d ∈ (extract t).directives) :
    IsLine d.text ∨ ∀ e ∈ (extract t).declarations, e.order ≤ d.order := by
  obtain ⟨ls₁, ds, ls₂, hls, rfl⟩ := mem_directivesFrom.1 hd
  by_cases hnil : ls₂ = []
  · subst hnil
    refine .inr fun e he => ?_
    rcases List.mem_append.1 ((declarations_perm_found t).mem_iff.1 he) with he | he
    · rw [hls, directivesFrom_append] at he
      rcases List.mem_append.1 he with he | he
      · exact (order_lt_of_mem_directivesFrom (fun _ hmem => ne_nil_of_directive
          (hls ▸ List.mem_append_left _ hmem : _ ∈ lexemes (encode t))) he).le
      · rw [List.mem_singleton.1 he]
    · -- A fragment does not start behind the last directive.
      obtain ⟨la, lb, -, hls', horder, -, b, hb⟩ := exists_lexemes_at_fragment he
      rcases List.append_eq_append_iff.1 (hls'.symm.trans hls) with ⟨x, rfl, -⟩ | ⟨x, rfl, hx⟩
      · rw [horder]
        simp only [size, List.flatMap_append, List.length_append]
        omega
      · rcases List.singleton_eq_append_iff.1 hx with ⟨rfl, rfl⟩ | ⟨rfl, rfl⟩
        · simp at hb
        · simp at hb
  · have hmem : ⟨.directive, directiveText ds, 0 + size ls₁⟩ ∈
        directivesFrom 0 (ls₁ ++ [.directive ds]) := mem_directivesFrom.2 ⟨ls₁, ds, [], rfl, rfl⟩
    have hsplit : lexemesFrom true (encode t) = (ls₁ ++ [.directive ds]) ++ ls₂ := by
      rw [List.append_assoc]
      exact hls
    exact .inl ((isUnit_directive hsplit (isText_encode t) hmem).2.2 hnil)

theorem mem_fragments_of_found {t : String} {f : Declaration}
    (hf : f ∈ (read (cells (encode t))).found) :
    f ∈ (extract t).structsAndEnums ++ (extract t).prototypes := by
  rcases kind_of_fragment hf with hk | hk
  · exact List.mem_append_left _ (List.mem_filter.2 ⟨hf, beq_iff_eq.2 hk⟩)
  · exact List.mem_append_right _ (List.mem_filter.2 ⟨hf, beq_iff_eq.2 hk⟩)

/-- Behind the text of a definition without an end there are only the blanks that are taken off its
    end. -/
theorem exists_of_endless {t : String} {front mid : List Cell} (h : cells (encode t) = front ++ mid)
    (hmid : StartsWord mid) : ∃ tail : List Char, (∀ c ∈ tail, Text.isBlank c) ∧
      (encode t).drop (front.length + (encode (Text.trimEnd (rawText mid))).length) =
        encodeChars tail := by
  have hsound : ∀ c ∈ mid, c.IsSound := fun c hc =>
    isSound_of_mem_cells c (h ▸ List.mem_append_right _ hc)
  have hraw : front.map Cell.raw ++ mid.map Cell.raw = encode t := by
    rw [← List.map_append, ← h, raw_cells]
  have hfresh := hmid.begins.startsFresh hsound []
  rw [List.append_nil] at hfresh
  have htext : IsText (front.map Cell.raw ++ mid.map Cell.raw) := hraw ▸ isText_encode t
  obtain ⟨-, cs, hcs⟩ := htext.split hfresh
  obtain ⟨tail, htail, hblank⟩ := exists_of_dropTail Text.isBlank cs
  refine ⟨tail, hblank, ?_⟩
  rw [rawText, ← hcs, lossy_encodeChars, Text.trimEnd, String.toList_ofList, encode_ofList, ← hraw,
    ← hcs]
  nth_rewrite 2 [htail]
  rw [encodeChars_append, ← List.append_assoc]
  exact List.drop_left' (by rw [List.length_append, List.length_map])

/-- Where only blanks are left, no directive starts. -/
theorem order_lt_of_blanks {t : String} {d : Declaration} {n : Nat} {tail : List Char}
    (hd : d ∈ (extract t).directives) (hdrop : (encode t).drop n = encodeChars tail)
    (hblank : ∀ c ∈ tail, Text.isBlank c) : d.order < n := by
  obtain ⟨ls₁, ds, ls₂, hls, rfl⟩ := mem_directivesFrom.1 hd
  obtain ⟨lineStart, hsuffix⟩ := exists_lexemesFrom_suffix hls
  have hhash := hash_mem_of_directive hsuffix
  have hbytes : ls₁.flatMap Lexeme.bytes ++ (ds ++ ls₂.flatMap Lexeme.bytes) = encode t := by
    rw [← flatMap_bytes_lexemes (encode t), hls, List.flatMap_append]
    rfl
  by_contra hle
  obtain ⟨k, hk⟩ := Nat.exists_eq_add_of_le (Nat.le_of_not_lt hle)
  have hrest : (encodeChars tail).drop k = ds ++ ls₂.flatMap Lexeme.bytes := by
    rw [← hdrop, List.drop_drop, ← hk, ← hbytes]
    exact List.drop_left' (by rw [Nat.zero_add, size])
  have hmem : hash ∈ encodeChars tail :=
    List.mem_of_mem_drop (hrest ▸ List.mem_append_left _ hhash)
  exact absurd (hblank _ (mem_of_mem_encodeChars hmem (by decide))) (by decide)

/-- No directive starts behind the text of a definition without an end. -/
theorem order_lt_of_unterminated {t : String} {p w rest : List Cell} {es : List Excerpt}
    {s : Statement} (hcs : p ++ (w ++ rest) = cells (encode t))
    (hrun : Run (.startingAt 0) p (w ++ rest) es s) (hw : IsWord w) {d : Declaration}
    (hd : d ∈ (extract t).directives) : d.order <
      (Excerpt.trimmed ⟨.structOrEnum, s.lead ++ w ++ rest, s.stop - s.lead.length⟩).stop := by
  have hread : s.read.reverse <:+ p := hrun.read_suffix
  have hstop : s.stop = 0 + p.length := hrun.stop_eq
  obtain ⟨front, rfl⟩ : s.lead <:+ p := (lead_suffix s).trans hread
  rw [List.length_append] at hstop
  obtain ⟨c, w, rfl⟩ := List.exists_cons_of_ne_nil hw.1
  have hsplit : cells (encode t) = front ++ (s.lead ++ c :: w ++ rest) := by
    rw [← hcs]
    simp
  have hstarts : StartsWord (s.lead ++ c :: w ++ rest) := by
    rw [List.append_assoc]
    exact startsWord_of_lead (hw.2 c List.mem_cons_self) _
  obtain ⟨tail, hblank, hdrop⟩ := exists_of_endless hsplit hstarts
  have hlt := order_lt_of_blanks hd hdrop hblank
  simp only [Declaration.stop, Excerpt.trimmed]
  omega

/-- So is the text of a fragment, unless it is a definition without an end; this one is the last
    declaration. -/
theorem isLine_or_last_fragment {t : String} (h : DirectivesApart t) {f : Declaration}
    (hf : f ∈ (read (cells (encode t))).found) :
    IsLine f.text ∨ ∀ e ∈ (extract t).declarations, e.order ≤ f.order := by
  have hapart := fun d hd => h d hd f (mem_fragments_of_found hf)
  obtain ⟨p, rest, es, s, fs, w, hcs, hrun, hstop⟩ := exists_run (.startingAt 0) (cells (encode t))
  have hfound : (read (cells (encode t))).found =
      es.map Excerpt.declaration ++ fs.map Excerpt.trimmed := by
    rw [read, ← hcs]
    exact (readFrom_of_run hrun hstop 0).1
  rw [hfound] at hf
  rcases List.mem_append.1 hf with hf | hf
  · obtain ⟨e, he, rfl⟩ := List.mem_map.1 hf
    have hrow := hrun.row (Statement.isSound_startingAt 0) (by simp [Statement.startingAt])
      (n := 0) rfl
    obtain ⟨gap, after, hp, hw⟩ := (hrow.append rest).exists_of_mem he
    exact .inl (isLine_of_whole (hcs.symm.trans hp) hw)
  refine .inr fun e he => ?_
  have hinOrder := (follow_found t).inOrder
  rw [hfound] at hinOrder
  cases hstop with
  | done => exact absurd hf List.not_mem_nil
  | unbalanced => exact absurd hf List.not_mem_nil
  | @unterminated w rest hw =>
    obtain rfl := List.mem_singleton.1 hf
    rcases List.mem_append.1 ((declarations_perm_found t).mem_iff.1 he) with he | he
    · refine (hapart e he).elim (fun hle => Nat.le_trans (Nat.le_add_right _ _) hle) fun hle => ?_
      exact absurd (order_lt_of_unterminated hcs hrun hw he) (Nat.not_lt.2 hle)
    · rw [hfound] at he
      rcases List.mem_append.1 he with he | he
      · exact ((List.pairwise_append.1 hinOrder).2.2 e he _ List.mem_cons_self).le
      · rw [List.mem_singleton.1 he]

/-- All declarations but the last one are lines. -/
theorem isLine_of_mem_dropLast {t : String} (h : DirectivesApart t) :
    ∀ u ∈ ((extract t).declarations.map Declaration.text).dropLast, IsLine u := by
  have hline : ∀ d ∈ (extract t).declarations,
      IsLine d.text ∨ ∀ e ∈ (extract t).declarations, e.order ≤ d.order := by
    intro d hd
    rcases List.mem_append.1 ((declarations_perm_found t).mem_iff.1 hd) with hd | hd
    · exact isLine_or_last_directive hd
    · exact isLine_or_last_fragment h hd
  intro u hu
  rw [← List.map_dropLast] at hu
  obtain ⟨d, hd, rfl⟩ := List.mem_map.1 hu
  rcases List.eq_nil_or_concat' (extract t).declarations with hnil | ⟨ds, last, hds⟩
  · rw [hnil] at hd
    exact absurd hd List.not_mem_nil
  · rw [hds, List.dropLast_concat] at hd
    have hlt : d.order < last.order :=
      (List.pairwise_append.1 (hds ▸ inOrder_declarations t)).2.2 d hd last List.mem_cons_self
    refine (hline d (hds ▸ List.mem_append_left _ hd)).resolve_right fun hlast => ?_
    have := hlast last (hds ▸ List.mem_concat_self)
    omega

/-! ### Directives of a gathered text -/

theorem filter_directives (t : String) :
    (extract t).declarations.filter (·.kind == .directive) = (extract t).directives :=
  filter_sortByOrder (pairwise_order_ne t) (follow_directives t).inOrder
    ((isSorted_extract t).filter_append .directive)

theorem directivesIn_eq (t : String) : directivesIn t =
    ((fragments t).filter fun x => x.1 == .directive).map Prod.snd := by
  rw [directivesIn, ← filter_directives, fragments, List.filter_map, List.map_map]
  rfl

/-- A declaration is a directive among the lexemes, or it was found at file scope. -/
theorem mem_directives_or_found {t : String} {d : Declaration} (hd : d ∈ (extract t).declarations) :
    d.kind = .directive ∧ d ∈ (extract t).directives ∨
      d.kind ≠ .directive ∧ d ∈ (read (cells (encode t))).found := by
  rcases List.mem_append.1 ((declarations_perm_found t).mem_iff.1 hd) with hd | hd
  · exact .inl ⟨kind_of_directive hd, hd⟩
  · refine .inr ⟨?_, hd⟩
    rcases kind_of_fragment hd with hk | hk <;> rw [hk] <;> exact nofun

/-- From the text of a directive that one is extracted, and from the text of a fragment none. -/
theorem directivesIn_of_mem {t : String} (h : DirectivesApart t) {d : Declaration}
    (hd : d ∈ (extract t).declarations) :
    directivesIn d.text = if d.kind = .directive then [d.text] else [] := by
  rcases mem_directives_or_found hd with ⟨hk, hd⟩ | ⟨hk, hd⟩
  · have hunit := isUnit_directive (List.append_nil _).symm (isText_encode t) hd
    rw [if_pos hk, directivesIn_eq, hunit.1, hk]
    rfl
  · rw [if_neg hk]
    exact directivesIn_of_fragment hd fun e he => h e he d (mem_fragments_of_found hd)

/-- The texts of directives are told from the others by what is extracted from them. -/
theorem text_mem_directivesIn {t : String} (h : DirectivesApart t) {d : Declaration}
    (hd : d ∈ (extract t).declarations) : d.text ∈ directivesIn t ↔ d.kind = .directive := by
  constructor
  · intro hmem
    obtain ⟨e, he, htext⟩ := List.mem_map.1 hmem
    rw [← filter_directives, List.mem_filter, beq_iff_eq] at he
    have hother := directivesIn_of_mem h he.1
    rw [if_pos he.2, htext, directivesIn_of_mem h hd] at hother
    by_contra hk
    rw [if_neg hk] at hother
    exact absurd hother.symm (List.cons_ne_nil _ _)
  · intro hk
    rw [directivesIn, ← filter_directives]
    exact List.mem_map_of_mem (List.mem_filter.2 ⟨hd, beq_iff_eq.2 hk⟩)

theorem filter_gatheredTexts {t : String} (h : DirectivesApart t) :
    (gatheredTexts t).filter (· ∈ directivesIn t) = firstOccurrences [] (directivesIn t) := by
  have hsame : (extract t).declarations.filter ((· ∈ directivesIn t) ∘ Declaration.text) =
      (extract t).directives := by
    rw [← filter_directives]
    refine List.filter_congr fun d hd => ?_
    rw [Function.comp_apply, decide_eq_decide.2 (text_mem_directivesIn h hd)]
    exact (beq_eq_decide _ _).symm
  rw [gatheredTexts, filter_firstOccurrences, List.filter_map, hsame, directivesIn]

/-- What is read from the texts of directives only is read from them in a gathered text, each
    taken once. -/
theorem flatMap_gatheredTexts {α : Type} {t : String} (h : DirectivesApart t)
    {f g : String → List α} (hf : ∀ d ∈ (extract t).declarations,
      f d.text = if d.kind = .directive then g d.text else []) :
    (gatheredTexts t).flatMap f = (firstOccurrences [] (directivesIn t)).flatMap g := by
  have hflat : ∀ l ⊆ gatheredTexts t, l.flatMap f = (l.filter (· ∈ directivesIn t)).flatMap g := by
    intro l hl
    induction l with
    | nil => rfl
    | cons u l ih =>
      obtain ⟨hu, hl'⟩ := List.cons_subset.1 hl
      obtain ⟨d, hd, rfl⟩ := List.mem_map.1 (mem_firstOccurrences.1 hu).1
      have hmem := text_mem_directivesIn h hd
      rw [List.flatMap_cons, ih hl', hf d hd, List.filter_cons]
      by_cases hk : d.kind = .directive
      · rw [if_pos hk, if_pos (decide_eq_true (hmem.2 hk)), List.flatMap_cons]
      · rw [if_neg hk, if_neg (by simpa using mt hmem.1 hk), List.nil_append]
  rw [← filter_gatheredTexts h]
  exact hflat _ (List.Subset.refl _)

/-- The directives of a gathered text are those of the header, each once. -/
theorem directivesIn_gathered {t : String} (h : DirectivesApart t) :
    directivesIn (gathered t) = firstOccurrences [] (directivesIn t) := by
  have hfragments : fragments (gathered t) = (gatheredTexts t).flatMap fragments := by
    rw [gathered_eq]
    exact fragments_intercalate fun u hu =>
      isLine_of_mem_dropLast h u (mem_dropLast_firstOccurrences hu)
  have hflat : directivesIn (gathered t) = (gatheredTexts t).flatMap directivesIn := by
    rw [directivesIn_eq, hfragments, List.filter_flatMap, List.map_flatMap]
    exact congrArg (List.flatMap · _) (funext fun u => (directivesIn_eq u).symm)
  rw [hflat, flatMap_gatheredTexts (g := fun u => [u]) h fun d hd => directivesIn_of_mem h hd,
    List.flatMap_singleton']

end TestBench.Source
