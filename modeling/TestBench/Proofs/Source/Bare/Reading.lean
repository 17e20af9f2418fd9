import TestBench.Proofs.Source.Alike
import TestBench.Proofs.Source.Bare
import TestBench.Proofs.Source.Nesting

/-!
# Reading a bare text

A bare text has the code of the text as written, so that reading takes the same steps in both and
finds the same fragments. One question alone is put to the text as written and not to its code:
whether a statement opens a block of C linkage. So both readings agree unless there is a comment or
a directive in the head of such a statement (`LinkageShows`), where the block is taken for a group
as written and for what it is in the bare text.

* `opensLinkage_bare`: where the text as written opens a block, the bare one does;
* `extract_bare`: what is extracted from a bare text.
-/

namespace TestBench.Source

open Utf8

/-! ### Blocks of C linkage -/

/-- Whether a text, blanks apart, is what opens a block of C linkage. -/
def IsLinkage (x : String) : Prop :=
  (x.toList.filter fun c => !Text.isBlank c) = "extern\"C\"".toList

theorem opensLinkage_iff (s : Statement) : s.opensLinkage ↔ IsLinkage (rawText s.head) := by
  rw [Statement.opensLinkage, beq_iff_eq, IsLinkage]

/-- Whether every statement that opens a block of C linkage in the bare text does so as written:
    at each brace that reading comes to, what is between the start of the statement and the brace
    reads so as written if it does without comments and directives. -/
def LinkageShows (t : String) : Prop :=
  ∀ front c after es s, cells (encode t) = front ++ c :: after → c.code = openBrace →
    Run (.startingAt 0) front (c :: after) es s →
      IsLinkage (lossy ((bareBytes t).extract s.headStart s.stop)) → s.opensLinkage

theorem mem_bareBytes {t : String} {b : UInt8} (h : b ∈ bareBytes t) :
    b ∈ encode t ∨ b = newline ∨ b = 0x20 := by
  obtain ⟨l, hl, h⟩ := List.mem_flatMap.1 h
  by_cases hb : l.IsBlank
  · obtain ⟨x, rfl⟩ : ∃ x, b = (Cell.blanked x).code := by
      cases l with
      | directive | lineComment | blockComment =>
        obtain ⟨x, -, rfl⟩ := List.mem_map.1 h
        exact ⟨x, rfl⟩
      | _ => exact hb.elim
    exact .inr (code_blanked x)
  · rw [bare_eq_bytes hb] at h
    rw [← flatMap_bytes_lexemes (encode t)]
    exact .inl (List.mem_flatMap.2 ⟨l, hl, h⟩)

/-- Without a double quote nothing opens a block, not even in the bare text. -/
theorem linkageShows_of_not_mem {t : String} (hascii : ∀ b ∈ encode t, b < 0x80)
    (h : doubleQuote ∉ encode t) : LinkageShows t := by
  intro front c after es s _ _ _ hl
  have hbare : ∀ b ∈ (bareBytes t).extract s.headStart s.stop, b < 0x80 ∧ b ≠ doubleQuote := by
    intro b hb
    rw [List.extract_eq_take_drop] at hb
    rcases mem_bareBytes (List.mem_of_mem_drop (List.mem_of_mem_take hb)) with hb | rfl | rfl
    · exact ⟨hascii b hb, fun he => h (he ▸ hb)⟩
    · decide
    · decide
  have hquote : '"' ∈ (lossy ((bareBytes t).extract s.headStart s.stop)).toList := by
    have hmem : '"' ∈ "extern\"C\"".toList := by decide
    rw [IsLinkage] at hl
    rw [← hl] at hmem
    exact (List.mem_filter.1 hmem).1
  rw [lossy, String.toList_ofList, lossyFrom_of_ascii fun b hb => (hbare b hb).1] at hquote
  obtain ⟨b, hb, hbq⟩ := List.mem_map.1 hquote
  refine absurd ?_ (hbare b hb).2
  have hn := congrArg Char.toNat hbq
  rcases toNat_ofNat b.toNat with h | h <;> rw [h] at hn
  · exact UInt8.toNat_inj.1 hn
  · exact absurd hn (by decide)

/-- The head of the statement so far is the last that a run has taken. -/
theorem Run.exists_head {s : Statement} {p rest : List Cell} {es : List Excerpt}
    (h : Run (.startingAt 0) p rest es s) :
    ∃ base, p = base ++ s.head ∧ s.headStart = base.length ∧ s.stop = (base ++ s.head).length := by
  obtain ⟨base, rfl⟩ := s.head_suffix.trans h.read_suffix
  have hstop : s.stop = (base ++ s.head).length := by
    rw [h.stop_eq, Statement.startingAt, Nat.zero_add]
  refine ⟨base, rfl, ?_, hstop⟩
  rw [Statement.headStart, hstop, List.length_append, Nat.add_sub_cancel]

/-- A head that opens a block has neither a comment nor a directive in it. -/
theorem not_mark_of_isLinkage {t : String} {base head after : List Cell} {c : Cell}
    (hcs : cells (encode t) = base ++ (head ++ c :: after)) (hc : c.code = openBrace)
    (hl : IsLinkage (rawText head)) : ∀ x ∈ head, ¬IsMark x.raw := by
  have hraw : c.raw = openBrace := by
    rcases isSound_of_mem_cells c (by rw [hcs]; simp) with h | h
    · rw [Cell.isBlank, hc] at h
      exact absurd h (by decide)
    · rw [← h, hc]
  -- A head that started inside a character would not read so.
  have hfresh : StartsFresh (head.map Cell.raw) := by
    intro b hb
    obtain ⟨bs, hbs⟩ := List.head?_eq_some_iff.1 hb
    by_contra hk
    rw [Bool.not_eq_false] at hk
    rw [IsLinkage, rawText, lossy, String.toList_ofList, hbs, lossyFrom_of_continues hk,
      List.filter_cons_of_pos (by decide)] at hl
    exact absurd (List.cons.inj hl).1 (by decide)
  have htext : IsText (head.map Cell.raw) := by
    have h := isText_encode t
    rw [← raw_cells (encode t), hcs] at h
    simp only [List.map_append, List.map_cons, ← List.append_assoc] at h
    exact ((h.split_ascii (by rw [hraw]; decide)).1.split hfresh).2
  obtain ⟨cs, hcs⟩ := htext
  rw [IsLinkage, rawText, ← hcs, lossy_encodeChars, String.toList_ofList] at hl
  have hall : ∀ x ∈ cs, (!Text.isBlank x) = true → x ∈ "extern\"C\"".toList :=
    fun x hx hb => hl ▸ List.mem_filter.2 ⟨hx, hb⟩
  intro x hx hm
  have hmem : x.raw ∈ encodeChars cs := hcs ▸ List.mem_map_of_mem hx
  rcases hm with hm | hm <;> rw [hm] at hmem <;>
    exact absurd (hall _ (mem_of_mem_encodeChars hmem (by decide)) (by decide)) (by decide)

/-- Where the text as written opens a block, the bare text has the head as it is written. -/
theorem bare_head {t : String} {p after : List Cell} {c : Cell} {es : List Excerpt} {s : Statement}
    (hcs : cells (encode t) = p ++ c :: after) (hc : c.code = openBrace)
    (hrun : Run (.startingAt 0) p (c :: after) es s) (hl : s.opensLinkage) :
    (bareBytes t).extract s.headStart s.stop = s.head.map Cell.raw := by
  obtain ⟨base, rfl, hstart, hstop⟩ := hrun.exists_head
  rw [List.append_assoc] at hcs
  rw [opensLinkage_iff] at hl
  have hmark := not_mark_of_isLinkage hcs hc hl
  rw [hstart, hstop]
  cases hh : s.head with
  | nil =>
    rw [hh] at hl
    exact absurd (congrArg List.length hl) (by decide)
  | cons x cs =>
    have hx : x.isBlank = false := by
      have := List.head?_dropWhile_not Cell.isBlank s.read.reverse
      rw [show s.read.reverse.dropWhile Cell.isBlank = s.head from rfl, hh] at this
      simpa using this
    rw [hh] at hcs hmark
    obtain ⟨before, rest, hb, hlen⟩ := exists_bare_between exists_mark hcs hx
      (by rw [Cell.isBlank, hc]; decide) hmark
    rw [bareBytes, lexemes, hb, ← hlen, List.length_append, ← hlen,
      ← List.length_map (f := Cell.raw), ← List.length_append]
    exact extract_middle _ _ _

/-- Whether cells have the same code. -/
def SameCell (c c' : Cell) : Prop :=
  c'.code = c.code

/-- A statement that reading comes to in the bare text has the head that the bare text has there. -/
theorem head_of_bare {t : String} {p rest : List Cell} {es : List Excerpt} {s : Statement}
    (hcs : p ++ rest = cells (encode (bare t))) (hrun : Run (.startingAt 0) p rest es s) :
    (bareBytes t).extract s.headStart s.stop = s.head.map Cell.raw := by
  obtain ⟨base, rfl, hstart, hstop⟩ := hrun.exists_head
  rw [hstart, hstop, ← encode_bare, ← raw_cells (encode (bare t)), ← hcs, List.append_assoc]
  exact extract_map_middle _ _ _ _

/-- Statements with the same code open a block of C linkage in both texts or in none. -/
theorem opensLinkage_bare {t : String} (hlink : LinkageShows t) {p p' after after' : List Cell}
    {c c' : Cell} {es es' : List Excerpt} {s s' : Statement}
    (hcs : p ++ c :: after = cells (encode t)) (hcs' : p' ++ c' :: after' = cells (encode (bare t)))
    (hrun : Run (.startingAt 0) p (c :: after) es s)
    (hrun' : Run (.startingAt 0) p' (c' :: after') es' s') (h : s.Alike SameCell 0 s')
    (hc : c.code = openBrace) : s'.opensLinkage = s.opensLinkage := by
  have hstop : s'.stop = s.stop := h.stop
  have hstart : s'.headStart = s.headStart := by
    rw [Statement.headStart, Statement.headStart, hstop, h.head.length_eq]
  have hhead := head_of_bare hcs' hrun'
  rw [hstart, hstop] at hhead
  rw [Bool.eq_iff_iff, opensLinkage_iff s', rawText, ← hhead]
  refine ⟨hlink p c after es s hcs.symm hc hrun, fun hl => ?_⟩
  rw [bare_head hcs.symm hc hrun hl]
  exact (opensLinkage_iff s).1 hl

/-! ### What is extracted -/

/-- Whether declarations of two texts are of one kind, start at one place and have the same code
    there, or are both the definition that has no end. -/
structure SameCode (t t' : String) (d d' : Declaration) : Prop where
  kind : d'.kind = d.kind
  order : d'.order = d.order
  code : codeAt t' d' = codeAt t d ∨
    (∃ k, (read (cells (encode t))).warning = some (.unterminated k d.order)) ∧
      TakesRest t d ∧ TakesRest t' d'

theorem forall₂_of_mem {α β : Type} {R S : α → β → Prop} {l : List α} {l' : List β}
    (h : List.Forall₂ R l l') (hS : ∀ a ∈ l, ∀ b ∈ l', R a b → S a b) : List.Forall₂ S l l' := by
  refine List.forall₂_iff_zip.2 ⟨h.length_eq, fun hab => ?_⟩
  obtain ⟨ha, hb⟩ := List.of_mem_zip hab
  exact hS _ ha _ hb ((List.forall₂_iff_zip.1 h).2 hab)

/-- Reading a bare text finds what reading the text as written does. -/
theorem sameCode_found {t : String} (hhash : NoHashBehind (lexemes (encode t)))
    (hlink : LinkageShows t) : List.Forall₂ (SameCode t (bare t))
      (read (cells (encode t))).found (read (cells (encode (bare t)))).found := by
  have hcode : ∀ c c' : Cell, SameCell c c' → c'.code = c.code := fun _ _ h => h
  have hzero := Statement.isSound_startingAt 0
  have hcells : List.Forall₂ SameCell (cells (encode t)) (cells (encode (bare t))) := by
    have h : (cells (encode t)).map Cell.code = (cells (encode (bare t))).map Cell.code :=
      (codeBytes_bare hhash).symm
    rw [← List.forall₂_eq_eq_eq, List.forall₂_map_left_iff, List.forall₂_map_right_iff] at h
    exact h.imp fun _ _ => Eq.symm
  -- The run over the text as written, step by step over the bare one.
  obtain ⟨p, rest, es, s, fs, w, hcs, hrun, hstop⟩ := exists_run (.startingAt 0) (cells (encode t))
  rw [← hcs] at hcells
  obtain ⟨p', rest', es', s', hcs', hp, hrest, hrun', hes, hs⟩ :=
    hrun.alike hcode (.startingAt rfl) hzero hcells fun hq hq' _ hr hr' hu hb =>
      opensLinkage_bare hlink (hq.trans hcs) hq' hr hr' hu hb
  obtain ⟨fs', hstop', hfs⟩ := hstop.alike hcode hs (hrun.isSound hzero) hrest fun c hc hb => by
    obtain ⟨after, rfl⟩ := List.head?_eq_some_iff.1 hc
    obtain ⟨c', after', -, -, rfl⟩ := List.forall₂_cons_left_iff.1 hrest
    exact opensLinkage_bare hlink hcs hcs'.symm hrun hrun' hs hb
  -- What both find stands in the same places of texts that have the same code.
  have hfinds := finds_of_run hcs hrun hstop
  have hfinds' := finds_of_run hcs'.symm hrun' hstop'
  rw [hfinds.found, hfinds'.found]
  refine List.rel_append ?_ ?_
  · rw [List.forall₂_map_left_iff, List.forall₂_map_right_iff]
    refine forall₂_of_mem hes fun e he e' he' h => ⟨h.kind, h.start, .inl ?_⟩
    obtain ⟨_, _, -, -, -, hat⟩ := exists_code (hfinds.whole e he).1 (hfinds.whole e he).2
    obtain ⟨_, _, -, -, -, hat'⟩ := exists_code (hfinds'.whole e' he').1 (hfinds'.whole e' he').2
    rw [hat, hat', map_code_of_alike hcode h.cells]
  · rw [List.forall₂_map_left_iff, List.forall₂_map_right_iff]
    refine forall₂_of_mem hfs fun e he e' he' h =>
      ⟨h.kind, h.start, .inr ⟨hfinds.warned e he, ?_, ?_⟩⟩
    · obtain ⟨-, -, -, hbegins, base, hbase, hstart⟩ := hfinds.endless e he
      exact takesRest hbase hstart hbegins
    · obtain ⟨-, -, -, hbegins, base, hbase, hstart⟩ := hfinds'.endless e' he'
      exact takesRest hbase hstart hbegins

/-- Comments and directives are blanks to what is extracted besides directives. With blanks in
    their place a text has the same code, no directive, and its definitions and prototypes in the
    same places with the same code; unless a comment stands in front of a `#` on its line or hides
    that a block of C linkage opens. -/
theorem extract_bare {t : String} (hhash : NoHashBehind (lexemes (encode t)))
    (hlink : LinkageShows t) :
    (extract (bare t)).directives = [] ∧ codeBytes (bare t) = codeBytes t ∧
      List.Forall₂ (SameCode t (bare t)) (extract t).structsAndEnums
        (extract (bare t)).structsAndEnums ∧
      List.Forall₂ (SameCode t (bare t)) (extract t).prototypes (extract (bare t)).prototypes := by
  have hfound := sameCode_found hhash hlink
  have hkind : ∀ k : DeclarationKind, List.Forall₂ (SameCode t (bare t))
      ((read (cells (encode t))).found.filter (·.kind == k))
      ((read (cells (encode (bare t)))).found.filter (·.kind == k)) :=
    fun k => List.rel_filter (fun d d' h => by simp only [h.kind]) hfound
  exact ⟨directives_bare hhash, codeBytes_bare hhash, hkind .structOrEnum, hkind .prototype⟩

/-- So it is no matter to a definition that there is a comment in its head. -/
theorem extract_bare_definition :
    NoHashBehind (lexemes (encode "struct /* a */ point { int x; };")) ∧
    LinkageShows "struct /* a */ point { int x; };" ∧
    List.Forall₂ (SameCode "struct /* a */ point { int x; };"
        (bare "struct /* a */ point { int x; };"))
      (extract "struct /* a */ point { int x; };").structsAndEnums
      (extract (bare "struct /* a */ point { int x; };")).structsAndEnums := by
  have hhash : NoHashBehind (lexemes (encode "struct /* a */ point { int x; };")) :=
    noHashBehind_of_not_mem (by decide +kernel)
  have hlink : LinkageShows "struct /* a */ point { int x; };" :=
    linkageShows_of_not_mem (by decide +kernel) (by decide +kernel)
  exact ⟨hhash, hlink, (extract_bare hhash hlink).2.2.1⟩

end TestBench.Source
