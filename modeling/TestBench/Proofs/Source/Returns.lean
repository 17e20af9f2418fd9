import TestBench.Proofs.Source.Returns.Lexing
import TestBench.Proofs.Source.Swap.Reading

/-!
# Line endings

What a header declares does not depend on whether its lines end in a newline or in a carriage return
and a newline: the same is found in the same order, and the texts differ in carriage returns alone.
As code, a carriage return in front of a newline is a blank next to a blank, so that reading takes
no notice of it; and so for all of them, one after the other.

* `found_returned`: what is found at file scope is the same;
* `extract_withReturns`: so is all that a header declares, if no literal goes on in the next line.
-/

namespace TestBench.Source

open Utf8

/-- A text with a carriage return in front of every newline. -/
def withReturns (s : String) : String :=
  String.ofList (s.toList.flatMap fun c => if c = '\n' then ['\r', '\n'] else [c])

/-- What a declaration says, carriage returns apart. -/
def spelled (d : Declaration) : DeclarationKind × String :=
  (d.kind, withoutReturns d.text)

/-! ### Blanks at the end -/

/-- What is left out by a filter is passed by a test that all of it satisfies. -/
theorem filter_dropWhile {α : Type} {p q : α → Bool} (h : ∀ c, q c = false → p c) (l : List α) :
    (l.dropWhile p).filter q = (l.filter q).dropWhile p := by
  induction l with
  | nil => rfl
  | cons c l ih =>
    cases hp : p c with
    | true =>
      rw [List.dropWhile_cons_of_pos hp, ih, List.filter_cons]
      split
      · rw [List.dropWhile_cons_of_pos hp]
      · rfl
    | false =>
      have hq : q c = true := by
        cases hq : q c with
        | true => rfl
        | false => rw [h c hq] at hp; cases hp
      rw [List.dropWhile_cons_of_neg (by simp [hp]), List.filter_cons_of_pos hq,
        List.dropWhile_cons_of_neg (by simp [hp])]

theorem withoutReturns_trimEnd (s : String) :
    withoutReturns (Text.trimEnd s) = Text.trimEnd (withoutReturns s) := by
  have hblank : ∀ c : Char, (c != '\r') = false → Text.isBlank c := by
    intro c hc
    obtain rfl : c = '\r' := by simpa using hc
    decide
  rw [Text.trimEnd, Text.trimEnd, withoutReturns_ofList, withoutReturns, String.toList_ofList,
    Text.dropTail, Text.dropTail, List.filter_reverse, filter_dropWhile hblank, List.filter_reverse]

/-! ### One carriage return -/

section Insertion

variable {x : Cell} (hx : x.raw = carriageReturn) (hblank : x.isBlank)
include hx

/-- Whatever stands around a newline, its text is read by itself, and so is that of a carriage
    return in front of it. -/
theorem exists_rawText_newline (u v : List Cell) :
    ∃ p q : List Char, rawText (u ++ ([.plain newline] ++ v)) = String.ofList (p ++ '\n' :: q) ∧
      rawText (u ++ ([x, .plain newline] ++ v)) = String.ofList (p ++ '\r' :: '\n' :: q) := by
  have hreturn : carriageReturn < 0x80 := by decide
  have hnewline : newline < 0x80 := by decide
  refine ⟨lossyFrom .between (u.map Cell.raw), lossyFrom .between (v.map Cell.raw), ?_, ?_⟩
  · rw [rawText, lossy]
    simp only [List.map_append, List.map_cons, List.singleton_append, Cell.plain]
    rw [lossyFrom_append_cons hnewline]
    rfl
  · rw [rawText, lossy]
    simp only [List.map_append, List.map_cons, List.cons_append, List.nil_append, Cell.plain, hx]
    rw [lossyFrom_append_cons hreturn, lossyFrom_ascii hnewline]
    rfl

include hblank

theorem interchangeable_newline : Interchangeable [.plain newline] [x, .plain newline] where
  isBlanks := ⟨by simp, List.forall_mem_singleton.2 (by decide)⟩
  isBlanks' := ⟨by simp, List.forall_mem_cons.2
    ⟨hblank, List.forall_mem_singleton.2 (by decide)⟩⟩
  linkage h := by
    obtain ⟨v, hhead, hhead'⟩ := h.exists_parts
    obtain ⟨p, q, hread, hread'⟩ := exists_rawText_newline hx _ v
    have hfilter : (String.ofList (p ++ '\r' :: '\n' :: q)).toList.filter (!Text.isBlank ·) =
        (String.ofList (p ++ '\n' :: q)).toList.filter (!Text.isBlank ·) := by
      rw [String.toList_ofList, String.toList_ofList, List.filter_append, List.filter_append,
        List.filter_cons_of_neg (by decide)]
    rw [Statement.opensLinkage, Statement.opensLinkage, hhead, hhead', hread, hread', hfilter]

omit hblank

/-- A declaration with the newline in it says the same with the carriage return. -/
theorem relates_newline (front : List Cell) :
    Relates [.plain newline] [x, .plain newline] front fun d d' => spelled d = spelled d' := by
  have hread : ∀ u v : List Cell, withoutReturns (rawText (u ++ ([.plain newline] ++ v))) =
      withoutReturns (rawText (u ++ ([x, .plain newline] ++ v))) := by
    intro u v
    obtain ⟨p, q, hread, hread'⟩ := exists_rawText_newline hx u v
    rw [hread, hread', withoutReturns_ofList, withoutReturns_ofList, List.filter_append,
      List.filter_append, List.filter_cons_of_neg (a := '\r') (by decide)]
  refine ⟨fun hkind htext _ => ?_, fun h => ?_, fun h => ?_⟩
  · rw [spelled, spelled, hkind, htext]
  · cases h with
    | moved => rfl
    | across h =>
      obtain ⟨v, rfl, rfl⟩ := h.exists_parts
      rw [spelled, spelled, Excerpt.declaration, Excerpt.declaration]
      simp only [hread]
  · cases h with
    | moved => rfl
    | across h =>
      obtain ⟨v, rfl, rfl⟩ := h.exists_parts
      rw [spelled, spelled, Excerpt.trimmed, Excerpt.trimmed]
      simp only [withoutReturns_trimEnd, hread]

end Insertion

/-! ### All of them -/

/-- What is found at file scope is the same but for carriage returns. -/
theorem found_returned {l l' : List Cell} (h : Returned l l') (front : List Cell) :
    (read (front ++ l)).found.map spelled = (read (front ++ l')).found.map spelled := by
  induction h generalizing front with
  | nil => rfl
  | cons c _ ih => simpa using ih (front ++ [c])
  | @insert x hx hblank l l' _ ih =>
    have hone := found_of_swap (interchangeable_newline hx hblank) (relates_newline hx front) l
    have hothers := ih (front ++ [x, .plain newline])
    have hmap := List.forall₂_map_left_iff.2 (List.forall₂_map_right_iff.2 hone)
    rw [List.forall₂_eq_eq_eq] at hmap
    exact hmap.trans (by simpa using hothers)

/-! ### Headers -/

theorem encode_withReturns (t : String) : encode (withReturns t) = returned (encode t) := by
  rw [withReturns, encode_ofList, ← encodeChars_toList t]
  induction t.toList with
  | nil => rfl
  | cons c cs ih =>
    rw [List.flatMap_cons, encodeChars_append, ih, encodeChars_cons, returned_append]
    by_cases hc : c = '\n'
    · subst hc
      rfl
    · have hnone : newline ∉ String.utf8EncodeChar c :=
        fun hm => hc (eq_of_mem_ascii hm (by decide))
      rw [if_neg hc, returned_of_not_mem hnone, encodeChars_cons, encodeChars_nil, List.append_nil]

theorem withoutReturns_of_not_mem {s : String} (h : '\r' ∉ s.toList) : withoutReturns s = s := by
  have hall : ∀ c ∈ s.toList, (c != '\r') = true := by
    intro c hc
    exact bne_iff_ne.2 (ne_of_mem_of_not_mem hc h)
  rw [withoutReturns, List.filter_eq_self.2 hall, String.ofList_toList]

/-- A declaration has no carriage returns unless its header has. -/
theorem withoutReturns_of_isSliceOf {t : String} {d : Declaration} (ht : '\r' ∉ t.toList)
    (h : d.IsSliceOf t) : withoutReturns d.text = d.text := by
  obtain ⟨a, b, rfl, -⟩ := h.between
  refine withoutReturns_of_not_mem fun hm => ht ?_
  simp [hm]

/-- What says the same does so among the declarations of each kind. -/
theorem texts_of_spelled {ds ds' : List Declaration} (h : ds'.map spelled = ds.map spelled)
    (kind : DeclarationKind) :
    (ds'.filter (·.kind == kind)).map (withoutReturns ·.text) =
      (ds.filter (·.kind == kind)).map (withoutReturns ·.text) := by
  have hcut : ∀ ds : List Declaration, (ds.filter (·.kind == kind)).map (withoutReturns ·.text) =
      ((ds.map spelled).filter (·.1 == kind)).map Prod.snd := by
    intro ds
    rw [List.filter_map, List.map_map]
    rfl
  rw [hcut, hcut, h]

/-- What a header declares does not depend on how its lines end, as long as no literal goes on in
    the next line. With a carriage return in front of every newline, each of the three lists has
    the same texts but for the carriage returns. -/
theorem extract_withReturns {t : String} (ht : '\r' ∉ t.toList)
    (hline : OnLine (lexemes (encode t))) :
    (extract (withReturns t)).directives.map (withoutReturns ·.text) =
        (extract t).directives.map (·.text) ∧
      (extract (withReturns t)).structsAndEnums.map (withoutReturns ·.text) =
        (extract t).structsAndEnums.map (·.text) ∧
      (extract (withReturns t)).prototypes.map (withoutReturns ·.text) =
        (extract t).prototypes.map (·.text) := by
  have hlexemes := lexemesFrom_returned true (encode t) hline
  rw [← encode_withReturns] at hlexemes
  have hfound := found_returned hlexemes.cells []
  have hsame : ∀ ds : List Declaration, (∀ d ∈ ds, d.IsSliceOf t) →
      ds.map (withoutReturns ·.text) = ds.map (·.text) :=
    fun ds hds => List.map_congr_left fun d hd => withoutReturns_of_isSliceOf ht (hds d hd)
  refine ⟨?_, ?_, ?_⟩
  · have hdirectives := hlexemes.directives
    rw [directiveTexts, directiveTexts, List.map_map, List.map_map] at hdirectives
    exact hdirectives.trans (hsame _ fun d hd => isSliceOf_directive hd)
  · exact (texts_of_spelled hfound.symm .structOrEnum).trans
      (hsame _ fun d hd => isSliceOf_fragment (List.mem_filter.1 hd).1)
  · exact (texts_of_spelled hfound.symm .prototype).trans
      (hsame _ fun d hd => isSliceOf_fragment (List.mem_filter.1 hd).1)

/-- Where there are no quotes, there are no literals. -/
theorem onLine_of_no_quotes {bs : List UInt8} (h : ∀ b ∈ bs, b ≠ doubleQuote ∧ b ≠ singleQuote) :
    OnLine (lexemes bs) := by
  intro q body closed hm
  have hq : q ∈ bs := by
    rw [← flatMap_bytes_lexemes bs]
    exact List.mem_flatMap_of_mem hm List.mem_cons_self
  rcases quote_of_mem_lexemesFrom hm with rfl | rfl
  · exact absurd rfl (h _ hq).1
  · exact absurd rfl (h _ hq).2

/-- A header in which a directive and a prototype go on in the next line. -/
def foldedHeader : String :=
  "#define N \\\n 1\nint f(int a,\n int b);\n"

/-- So what goes on in the next line is found, however the lines end. -/
theorem extract_withReturns_lines :
    '\r' ∉ foldedHeader.toList ∧
      OnLine (lexemes (encode foldedHeader)) ∧
      (extract (withReturns foldedHeader)).directives.map (withoutReturns ·.text) =
        (extract foldedHeader).directives.map (·.text) ∧
      (extract (withReturns foldedHeader)).prototypes.map (withoutReturns ·.text) =
        (extract foldedHeader).prototypes.map (·.text) := by
  have ht : '\r' ∉ foldedHeader.toList := by decide +kernel
  have hline : OnLine (lexemes (encode foldedHeader)) := onLine_of_no_quotes (by decide +kernel)
  have h := extract_withReturns ht hline
  exact ⟨ht, hline, h.1, h.2.2⟩

end TestBench.Source
