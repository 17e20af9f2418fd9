import TestBench.Proofs.Source.Line

/-!
# Gathering declarations

What stands for a header in a module are the texts of its declarations, each once, one below the
other. Extracting from that text gathers the same texts again (`gathered_gathered`), although a
directive inside a definition is there twice then: in the definition and, unless it was seen
before, on a line behind it.

A header is read as *units*: what is found at file scope, with the directives in it, and the
directives in between (`Row.exists_listing`). The gathered text has a line for each text of a unit,
from which the unit is extracted again.

* `firstOccurrences_flatMap`: lists of units, each text once;
* `gathered_gathered`: gathering declarations from what has been gathered.
-/

namespace TestBench

/-! ### Lists of units -/

theorem flatMap_of_parts_self {parts : String → List String} {ds : List String}
    (h : ∀ d ∈ ds, parts d = [d]) : ds.flatMap parts = ds := by
  induction ds with
  | nil => rfl
  | cons d ds ih =>
    rw [List.forall_mem_cons] at h
    rw [List.flatMap_cons, h.1, ih h.2]
    rfl

/-- What is new among the parts of a unit has these parts, or none at all. -/
theorem firstOccurrences_parts {parts : String → List String} {u : String} {ds seen : List String}
    (hu : parts u = u :: ds) (hds : ∀ d ∈ ds, parts d = [d]) (hseen : u ∈ seen → parts u ⊆ seen) :
    firstOccurrences seen ((firstOccurrences seen (parts u)).flatMap parts) =
        firstOccurrences seen (parts u) ∧
      ∀ t, t ∈ (firstOccurrences seen (parts u)).flatMap parts ++ seen ↔ t ∈ parts u ++ seen := by
  by_cases h : u ∈ seen
  · rw [firstOccurrences_eq_nil (hseen h)]
    refine ⟨rfl, fun t => ?_⟩
    rw [List.flatMap_nil, List.nil_append, List.mem_append]
    exact ⟨.inr, fun ht => ht.elim (fun ht => hseen h ht) id⟩
  · obtain ⟨new, hnew⟩ : ∃ new, new = firstOccurrences (u :: seen) ds := ⟨_, rfl⟩
    have hsub : new ⊆ ds := fun d hd => (mem_firstOccurrences.1 (hnew ▸ hd)).1
    have hfirst : firstOccurrences seen (parts u) = u :: new := by
      rw [hu, firstOccurrences, if_neg h, hnew]
    have hflat : (u :: new).flatMap parts = parts u ++ new := by
      rw [List.flatMap_cons, flatMap_of_parts_self fun d hd => hds d (hsub hd)]
    have hin : new ⊆ parts u := hu ▸ List.subset_cons_of_subset u hsub
    rw [hfirst, hflat]
    constructor
    · rw [firstOccurrences_append,
        firstOccurrences_eq_nil (List.subset_append_of_subset_left _ hin), List.append_nil, hfirst]
    · intro t
      rw [List.append_assoc, List.mem_append, List.mem_append, List.mem_append]
      exact ⟨fun ht => ht.elim .inl fun ht => ht.imp_left fun ht => hin ht,
        fun ht => ht.imp_right .inr⟩

/-- Let each unit have its own text as its first part, and as the others texts that have no parts
    but themselves. Of the parts of units, take each once: the parts of these, each taken once, are
    the same. -/
theorem firstOccurrences_flatMap {parts : String → List String} {us seen : List String}
    (hparts : ∀ u ∈ us, ∃ ds, parts u = u :: ds ∧ ∀ d ∈ ds, parts d = [d])
    (hseen : ∀ u ∈ us, u ∈ seen → parts u ⊆ seen) :
    firstOccurrences seen ((firstOccurrences seen (us.flatMap parts)).flatMap parts) =
      firstOccurrences seen (us.flatMap parts) := by
  induction us generalizing seen with
  | nil => rfl
  | cons u us ih =>
    rw [List.forall_mem_cons] at hparts hseen
    obtain ⟨⟨ds, hu, hds⟩, hparts⟩ := hparts
    -- Behind the unit all its parts have been seen, and they have no others.
    have hclosed : ∀ v ∈ us, v ∈ parts u ++ seen → parts v ⊆ parts u ++ seen := by
      intro v hv hmem
      rcases List.mem_append.1 hmem with h | h
      · rw [hu] at h
        rcases List.mem_cons.1 h with rfl | hd
        · exact List.subset_append_left _ _
        · rw [hds v hd]
          exact List.cons_subset.2 ⟨hmem, List.nil_subset _⟩
      · exact List.Subset.trans (hseen.2 v hv h) (List.subset_append_right _ _)
    obtain ⟨hself, hmem⟩ := firstOccurrences_parts hu hds hseen.1
    rw [List.flatMap_cons, firstOccurrences_append, List.flatMap_append, firstOccurrences_append,
      hself, firstOccurrences_congr hmem, ih hparts hclosed]

/-- All that is taken but the last text is taken from all texts but the last one. -/
theorem mem_dropLast_firstOccurrences {ts : List String} {t : String}
    (h : t ∈ (firstOccurrences [] ts).dropLast) : t ∈ ts.dropLast := by
  rcases List.eq_nil_or_concat ts with rfl | ⟨us, u, rfl⟩
  · exact absurd h (by simp [firstOccurrences])
  · rw [List.concat_eq_append] at h ⊢
    rw [List.dropLast_concat]
    have hus : t ∈ firstOccurrences [] us := by
      rw [firstOccurrences_append, firstOccurrences] at h
      split at h
      · rw [firstOccurrences, List.append_nil] at h
        exact List.dropLast_subset _ h
      · rwa [firstOccurrences, List.dropLast_concat] at h
    exact (mem_firstOccurrences.1 hus).1

namespace Source

open Utf8

/-! ### A text is made of units -/

/-- What is extracted from a stretch of text, in order and in units: from lexemes, the first of
    which has an offset, and fragments found among them. Only the last of all may be no line. -/
structure Listing (n : Nat) (ls : List Lexeme) (es : List Excerpt) (ds : List Declaration)
    (us : List String) : Prop where
  perm : ds.Perm (directivesFrom n ls ++ es.map Excerpt.declaration)
  inOrder : InOrder ds
  le_order : ∀ d ∈ ds, n ≤ d.order
  order_lt : ∀ d ∈ ds, d.order < n + size ls
  fragments : (ds.map fun d => (d.kind, d.text)) = us.flatMap fragments
  isUnit : ∀ u ∈ us, IsUnit u
  isLine : ∀ u ∈ (ds.map Declaration.text).dropLast, IsLine u

/-- Stretches may be put together, if there are only lines in the first one. -/
theorem Listing.append {n : Nat} {ls ls' : List Lexeme} {es es' : List Excerpt}
    {ds ds' : List Declaration} {us us' : List String} (h : Listing n ls es ds us)
    (hline : ∀ d ∈ ds, IsLine d.text) (h' : Listing (n + size ls) ls' es' ds' us') :
    Listing n (ls ++ ls') (es ++ es') (ds ++ ds') (us ++ us') where
  perm := by
    rw [directivesFrom_append, List.map_append]
    refine (h.perm.append h'.perm).trans ?_
    rw [List.append_assoc, List.append_assoc]
    exact List.Perm.append_left _ (List.perm_append_comm_assoc _ _ _)
  inOrder := List.pairwise_append.2 ⟨h.inOrder, h'.inOrder, fun d hd e he =>
    Nat.lt_of_lt_of_le (h.order_lt d hd) (h'.le_order e he)⟩
  le_order d hd := (List.mem_append.1 hd).elim (h.le_order d) fun hd =>
    Nat.le_trans (Nat.le_add_right _ _) (h'.le_order d hd)
  order_lt d hd := by
    have hsize : size (ls ++ ls') = size ls + size ls' := by
      rw [size, List.flatMap_append, List.length_append, size, size]
    rw [hsize, ← Nat.add_assoc]
    exact (List.mem_append.1 hd).elim
      (fun hd => Nat.lt_of_lt_of_le (h.order_lt d hd) (Nat.le_add_right _ _)) (h'.order_lt d)
  fragments := by rw [List.map_append, h.fragments, h'.fragments, List.flatMap_append]
  isUnit u hu := (List.mem_append.1 hu).elim (h.isUnit u) (h'.isUnit u)
  isLine u hu := by
    have hfirst : ∀ v ∈ ds.map Declaration.text, IsLine v := by
      intro v hv
      obtain ⟨d, hd, rfl⟩ := List.mem_map.1 hv
      exact hline d hd
    rw [List.map_append] at hu
    by_cases hnil : ds'.map Declaration.text = []
    · rw [hnil, List.append_nil] at hu
      exact hfirst u (List.dropLast_subset _ hu)
    · rw [List.dropLast_append_of_ne_nil hnil] at hu
      exact (List.mem_append.1 hu).elim (hfirst u) (h'.isLine u)

/-- A directive is a unit, and a line if anything follows it. -/
theorem isUnit_directive {lineStart : Bool} {bs : List UInt8} {ls ls' : List Lexeme} {n : Nat}
    {d : Declaration} (h : lexemesFrom lineStart bs = ls ++ ls') (ht : IsText bs)
    (hd : d ∈ directivesFrom n ls) :
    fragments d.text = [(d.kind, d.text)] ∧ IsUnit d.text ∧ (ls' ≠ [] → IsLine d.text) := by
  obtain ⟨ls₁, ds, ls₂, rfl, rfl⟩ := mem_directivesFrom.1 hd
  rw [List.append_assoc, List.cons_append] at h
  have hds : IsText ds := by
    rw [← flatMap_bytes_lexemesFrom lineStart bs, h] at ht
    exact (isText_of_directive (h ▸ allFit_lexemesFrom lineStart bs) ht).2.1
  have halone := fragments_directiveText h hds
  exact ⟨halone, ⟨.directive, [], halone, by simp⟩, fun hne =>
    isLine_directiveText h hds fun hnil => hne (List.append_eq_nil_iff.1 hnil).2⟩

theorem map_eq_flatMap_fragments {ds : List Declaration}
    (h : ∀ d ∈ ds, fragments d.text = [(d.kind, d.text)]) :
    (ds.map fun d => (d.kind, d.text)) = (ds.map Declaration.text).flatMap fragments := by
  induction ds with
  | nil => rfl
  | cons d ds ih =>
    rw [List.forall_mem_cons] at h
    rw [List.map_cons, List.map_cons, List.flatMap_cons, h.1, ih h.2]
    rfl

/-- Directives in between are units. -/
theorem listing_directives {lineStart : Bool} {bs : List UInt8} {ls ls' : List Lexeme} (n : Nat)
    (h : lexemesFrom lineStart bs = ls ++ ls') (ht : IsText bs) :
    Listing n ls [] (directivesFrom n ls) ((directivesFrom n ls).map Declaration.text) := by
  have hne : ∀ ds, .directive ds ∈ ls → ds ≠ [] :=
    fun ds hds => ne_nil_of_directive (h ▸ List.mem_append_left _ hds)
  have hunit : ∀ d ∈ directivesFrom n ls, _ := fun d hd => isUnit_directive h ht hd
  refine ⟨by simp, inOrder_directivesFrom hne, fun d hd => le_order_of_mem_directivesFrom hd,
    fun d hd => order_lt_of_mem_directivesFrom hne hd,
    map_eq_flatMap_fragments fun d hd => (hunit d hd).1, ?_, ?_⟩
  · intro u hu
    obtain ⟨d, hd, rfl⟩ := List.mem_map.1 hu
    exact (hunit d hd).2.1
  · intro u hu
    rcases List.eq_nil_or_concat ls with rfl | ⟨ls, l, rfl⟩
    · exact absurd hu (by simp [directivesFrom])
    · -- All but the last directive are among the first lexemes, and a lexeme follows them.
      rw [List.concat_eq_append] at h hu
      obtain ⟨d, hd, rfl⟩ : ∃ d ∈ directivesFrom n ls, d.text = u := by
        rw [directivesFrom_append, List.map_append] at hu
        cases l with
        | directive => exact List.mem_map.1 (by simpa [directivesFrom] using hu)
        | _ => exact List.mem_map.1 (List.dropLast_subset _ (by simpa [directivesFrom] using hu))
      exact (isUnit_directive (h.trans (List.append_assoc _ _ _)) ht hd).2.2 (by simp)

section Block

variable {k : DeclarationKind} {ls : List Lexeme} (hw : Whole k (ls.flatMap Lexeme.cells))
  (h : StandsAlone ls) (ht : IsText (ls.flatMap Lexeme.bytes))

include hw h ht

/-- What is extracted from the text of a whole fragment is what the fragment contributes where it
    stands. -/
theorem Whole.map_shift_declarations (n : Nat) :
    (extract (rawText (ls.flatMap Lexeme.cells))).declarations.map (·.shift n) =
      Excerpt.declaration ⟨k, ls.flatMap Lexeme.cells, n⟩ :: directivesFrom n ls := by
  rw [hw.declarations_eq h ht, List.map_cons, ← directivesFrom_add, Nat.zero_add,
    Declaration.shift, Nat.zero_add]
  rfl

/-- Each text in it is a line. -/
theorem Whole.isLine_of_mem {d : Declaration}
    (hd : d ∈ (extract (rawText (ls.flatMap Lexeme.cells))).declarations) : IsLine d.text := by
  rw [hw.declarations_eq h ht] at hd
  rcases List.mem_cons.1 hd with rfl | hd
  · exact hw.isLine h ht
  · -- Behind a directive there is the code at the end at least.
    obtain ⟨b, ls', hls⟩ := h.last
    rw [hls, directivesFrom_append] at hd
    have hd : d ∈ directivesFrom 0 ls' := by simpa [directivesFrom] using hd
    exact (isUnit_directive (h.lexemes_bytes.trans hls) ht hd).2.2 (by simp)

/-- A whole fragment is a unit with the directives in it. -/
theorem Whole.listing (n : Nat) :
    Listing n ls [⟨k, ls.flatMap Lexeme.cells, n⟩]
      ((extract (rawText (ls.flatMap Lexeme.cells))).declarations.map (·.shift n))
      [rawText (ls.flatMap Lexeme.cells)] where
  perm := by
    rw [hw.map_shift_declarations h ht]
    exact (List.perm_append_singleton _ _).symm
  inOrder := inOrder_shift (inOrder_declarations _) n
  le_order d hd := by
    obtain ⟨d, -, rfl⟩ := List.mem_map.1 hd
    exact Nat.le_add_left _ _
  order_lt d hd := by
    obtain ⟨d, hmem, rfl⟩ := List.mem_map.1 hd
    have := order_lt_length hmem
    rw [encode_rawText ht] at this
    exact (Nat.add_comm n _) ▸ Nat.add_lt_add_right this n
  fragments := by
    rw [List.map_map, List.flatMap_singleton]
    rfl
  isUnit u hu := by
    rw [List.mem_singleton.1 hu]
    exact hw.isUnit h ht
  isLine u hu := by
    obtain ⟨d, hd, rfl⟩ := List.mem_map.1 (List.dropLast_subset _ hu)
    obtain ⟨d, hmem, rfl⟩ := List.mem_map.1 hd
    exact hw.isLine_of_mem (d := d) h ht hmem

end Block

/-- So all that is found is listed in units, and the directives with it. -/
theorem Row.exists_listing {n : Nat} {cs : List Cell} {es : List Excerpt} (h : Row n cs es)
    {lineStart : Bool} {bs : List UInt8} {ls : List Lexeme} (hls : lexemesFrom lineStart bs = ls)
    (hcs : ls.flatMap Lexeme.cells = cs) (ht : IsText bs) : ∃ ds us, Listing n ls es ds us := by
  induction h generalizing lineStart bs ls with
  | nil => exact ⟨_, _, listing_directives _ (hls.trans (List.append_nil _).symm) ht⟩
  | @cons n k gap mid after es hw _ ih =>
    -- Three stretches: directives in front, the fragment, and all that is behind.
    obtain ⟨lg, lm, la, rfl, rfl, rfl, rfl, hlm, hrest⟩ := hw.exists_lexemes hls hcs
    have hbytes : (lg ++ (lm ++ la)).flatMap Lexeme.bytes = bs := by
      rw [← hls, flatMap_bytes_lexemesFrom]
    obtain ⟨htm, hta⟩ := hw.isText_lexemes (hbytes ▸ ht)
    obtain ⟨ds, us, hlisting⟩ := ih hrest rfl hta
    rw [length_flatMap_cells, length_flatMap_cells] at hlisting
    rw [length_flatMap_cells]
    have hunit := (hw.listing hlm htm (n + size lg)).append (fun d hd => ?_) hlisting
    · have hne : lm ++ la ≠ [] := by
        obtain ⟨b, lm', rfl⟩ := hlm.first
        exact List.cons_ne_nil _ _
      exact ⟨_, _, (listing_directives n hls ht).append
        (fun d hd => (isUnit_directive hls ht hd).2.2 hne) hunit⟩
    · obtain ⟨d, hmem, rfl⟩ := List.mem_map.1 hd
      exact hw.isLine_of_mem (d := d) hlm htm hmem

theorem Row.append {n : Nat} {cs : List Cell} {es : List Excerpt} (h : Row n cs es)
    (rest : List Cell) : Row n (cs ++ rest) es := by
  induction h with
  | nil => exact .nil
  | cons hw _ ih =>
    rw [List.append_assoc, List.append_assoc]
    exact .cons hw ih

/-- If no definition is without an end, what is extracted from a text is what is extracted from its
    units. Each of the texts is a line, unless it is the last one. -/
theorem exists_units {t : String}
    (h : ∀ k n, (read (cells (encode t))).warning ≠ some (.unterminated k n)) :
    ∃ us : List String, fragments t = us.flatMap fragments ∧ (∀ u ∈ us, IsUnit u) ∧
      ∀ u ∈ ((extract t).declarations.map Declaration.text).dropLast, IsLine u := by
  obtain ⟨p, rest, es, s, fs, w, hcs, hrun, hstop⟩ := exists_run (.startingAt 0) (cells (encode t))
  obtain ⟨hfound, hwarning⟩ := readFrom_of_run hrun hstop 0
  rw [hcs] at hfound hwarning
  -- Only a definition without an end is found where reading stops.
  obtain rfl : fs = [] := by
    cases hstop with
    | unterminated => exact absurd hwarning (h _ _)
    | _ => rfl
  have hrow := hrun.row (Statement.isSound_startingAt 0) (by simp [Statement.startingAt])
    (n := 0) rfl
  have hlexemes : lexemesFrom true (encode t) = lexemes (encode t) := rfl
  obtain ⟨ds, us, hlisting⟩ := (hrow.append rest).exists_listing hlexemes hcs.symm (isText_encode t)
  have hds : (extract t).declarations = ds := by
    refine declarations_eq hlisting.inOrder ?_
    rw [read, hfound, List.map_nil, List.append_nil]
    exact hlisting.perm
  rw [fragments, hds]
  exact ⟨us, hlisting.fragments, hlisting.isUnit, hlisting.isLine⟩

/-! ### Gathering -/

/-- The texts that stand for a header in a module, one below the other. -/
def gathered (t : String) : String :=
  headerDefinitions (extract t).declarations

/-- The texts of the declarations of a header, each once. -/
def gatheredTexts (t : String) : List String :=
  firstOccurrences [] ((extract t).declarations.map Declaration.text)

theorem gathered_eq (t : String) : gathered t = "\n".intercalate (gatheredTexts t) := by
  have hsort : sortByOrder (extract t).declarations = (extract t).declarations :=
    (inOrder_sortByOrder ((inOrder_declarations t).imp Nat.ne_of_lt)).eq_of_perm
      (inOrder_declarations t) (perm_sortByOrder _)
  rw [gathered, headerDefinitions, hsort, gatheredTexts]

theorem gatheredTexts_eq (t : String) :
    gatheredTexts t = firstOccurrences [] ((fragments t).map Prod.snd) := by
  rw [gatheredTexts, fragments, List.map_map]
  rfl

theorem mem_gatheredTexts {t u : String} :
    u ∈ gatheredTexts t ↔ u ∈ (fragments t).map Prod.snd := by
  rw [gatheredTexts_eq, mem_firstOccurrences]
  exact and_iff_left List.not_mem_nil

/-- What is extracted from the texts of units is what is extracted from the units. -/
theorem mem_fragments_of_units {us : List String} (h : ∀ u ∈ us, IsUnit u)
    {x : DeclarationKind × String} :
    (∃ u ∈ (us.flatMap fragments).map Prod.snd, x ∈ fragments u) ↔ x ∈ us.flatMap fragments := by
  constructor
  · rintro ⟨_, htext, hx⟩
    obtain ⟨⟨k, u⟩, hmem, rfl⟩ := List.mem_map.1 htext
    obtain ⟨v, hv, hu⟩ := List.mem_flatMap.1 hmem
    obtain ⟨k', ds, hfrag, hds⟩ := h v hv
    refine List.mem_flatMap.2 ⟨v, hv, ?_⟩
    rw [hfrag] at hu
    rcases List.mem_cons.1 hu with hu | hu
    · obtain ⟨rfl, rfl⟩ := Prod.mk.inj hu
      exact hx
    · -- A directive in the unit has no fragment but itself.
      obtain ⟨d, hd, he⟩ := List.mem_map.1 hu
      obtain ⟨rfl, rfl⟩ := Prod.mk.inj he
      rw [hds d hd, List.mem_singleton] at hx
      rw [hx, hfrag]
      exact List.mem_cons_of_mem _ hu
  · intro hx
    obtain ⟨u, hu, hx⟩ := List.mem_flatMap.1 hx
    obtain ⟨k, ds, hfrag, -⟩ := h u hu
    refine ⟨u, List.mem_map.2 ⟨(k, u), List.mem_flatMap.2 ⟨u, hu, ?_⟩, rfl⟩, hx⟩
    rw [hfrag]
    exact List.mem_cons_self

/-- Gathering from what has been gathered finds the same fragments in the same order, and gathers
    the same text: unless a definition was read without an end. -/
theorem gathered_gathered {t : String}
    (h : ∀ k n, (read (cells (encode t))).warning ≠ some (.unterminated k n)) :
    gathered (gathered t) = gathered t ∧ gatheredTexts (gathered t) = gatheredTexts t ∧
      ∀ x, x ∈ fragments (gathered t) ↔ x ∈ fragments t := by
  obtain ⟨us, hus, hunit, hline⟩ := exists_units h
  have hfragments : fragments (gathered t) = (gatheredTexts t).flatMap fragments := by
    rw [gathered_eq]
    exact fragments_intercalate fun u hu => hline u (mem_dropLast_firstOccurrences hu)
  -- The gathered texts are lines, the last one apart, so that what is extracted from each is known.
  have htexts : gatheredTexts (gathered t) = gatheredTexts t := by
    rw [gatheredTexts_eq, gatheredTexts_eq, hfragments, gatheredTexts_eq, hus, List.map_flatMap,
      List.map_flatMap]
    refine firstOccurrences_flatMap (fun u hu => ?_) fun u _ hu => absurd hu List.not_mem_nil
    obtain ⟨k, ds, hu, hds⟩ := hunit u hu
    exact ⟨ds, by simp [hu, Function.comp_def], fun d hd => by simp [hds d hd]⟩
  refine ⟨by rw [gathered_eq (gathered t), htexts, ← gathered_eq], htexts, fun x => ?_⟩
  rw [hfragments, List.mem_flatMap, hus, ← mem_fragments_of_units hunit, ← hus]
  exact exists_congr fun u => and_congr_left fun _ => mem_gatheredTexts

/-- So it is with a closed text, as there is nothing wrong with it. -/
theorem gathered_gathered_definition :
    (∀ k n, (read (cells (encode "struct point { int x; };\n"))).warning ≠
      some (.unterminated k n)) ∧
    gathered (gathered "struct point { int x; };\n") = gathered "struct point { int x; };\n" := by
  have hwarning : ∀ k n, (read (cells (encode "struct point { int x; };\n"))).warning ≠
      some (.unterminated k n) := by
    rw [isClosed_definition.warning_eq_none]
    exact fun k n => (Option.some_ne_none _).symm
  exact ⟨hwarning, (gathered_gathered hwarning).1⟩

end Source

end TestBench
