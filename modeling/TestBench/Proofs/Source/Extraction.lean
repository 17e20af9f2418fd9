import TestBench.Proofs.Source.Directive
import TestBench.Proofs.Source.Fragment
import TestBench.Proofs.Source.Merge

/-!
# What is extracted

An extraction is a cut of the text as written. Directives come from the lexemes and fragments
from file scope, two readings that know nothing of each other; what joins them is that a fragment
starts at code and a directive where there is none (`order_ne_of_fragment`), so that the merged
declarations have each a place of their own.

* `extract_isCut`: every declaration is a slice, no two of one reading share a byte, and merging
  keeps the three lists.
-/

namespace TestBench

namespace Source

open Utf8

/-! ### Code as written -/

/-- The code of a text. -/
def codeBytes (t : String) : List UInt8 :=
  (cells (encode t)).map Cell.code

/-- Whether a cell shows what is written, unless it is blank as code. -/
def Cell.IsSound (c : Cell) : Prop :=
  c.isBlank ∨ c.code = c.raw

theorem isBlank_blanked (b : UInt8) : (Cell.blanked b).isBlank := by
  simp only [Cell.isBlank, Cell.blanked]
  split <;> rfl

theorem isSound_of_mem_cells_lexeme {l : Lexeme} : ∀ c ∈ l.cells, c.IsSound := by
  intro c hc
  have hblank : ∀ bs : List UInt8, c ∈ bs.map Cell.blanked → c.IsSound := by
    intro bs h
    obtain ⟨b, _, rfl⟩ := List.mem_map.1 h
    exact .inl (isBlank_blanked b)
  have hplain : ∀ b, c = .plain b → c.IsSound := by
    rintro b rfl
    exact .inr rfl
  cases l with
  | newline => exact hplain _ (List.mem_singleton.1 hc)
  | code b => exact hplain _ (List.mem_singleton.1 hc)
  | literal q body closed =>
    rcases List.mem_append.1 hc with hc | hc
    · rcases List.mem_cons.1 hc with hc | hc
      · exact hplain _ hc
      · exact hblank _ hc
    · cases closed
      · exact absurd hc List.not_mem_nil
      · exact hplain _ (List.mem_singleton.1 hc)
  | _ => exact hblank _ hc

theorem isSound_of_mem_cells {bs : List UInt8} : ∀ c ∈ cells bs, c.IsSound := by
  intro c hc
  obtain ⟨l, _, hc⟩ := List.mem_flatMap.1 hc
  exact isSound_of_mem_cells_lexeme c hc

/-! ### Fragments as written -/

theorem Fragment.startsWord {n : Nat} {cs after : List Cell} {d : Declaration}
    (h : Fragment n cs after d) : StartsWord cs := by
  cases h with
  | prototype starts => exact starts
  | definition starts => exact starts
  | endless starts => exact starts

theorem Fragment.begins {n : Nat} {cs after : List Cell} {d : Declaration}
    (h : Fragment n cs after d) : Begins cs :=
  h.startsWord.begins

theorem Fragment.order_eq {n : Nat} {cs after : List Cell} {d : Declaration}
    (h : Fragment n cs after d) : d.order = n := by
  cases h <;> rfl

/-- Cells that begin with code do not begin inside a character. -/
theorem Begins.startsFresh {cs : List Cell} (h : Begins cs) (hs : ∀ c ∈ cs, c.IsSound)
    (rest : List UInt8) : StartsFresh (cs.map Cell.raw ++ rest) := by
  obtain ⟨c, hc, hb, hk⟩ := h
  intro b hb'
  have hraw : b = c.raw := by
    rw [List.head?_append, List.head?_map, hc] at hb'
    exact (Option.some.inj hb').symm
  -- The cell holds code, so its code is the byte as written.
  rcases hs c (List.mem_of_mem_head? hc) with h | h
  · rw [hb] at h
    exact absurd h (by decide)
  · rwa [hraw, ← h]

/-- Behind the semicolon that ends a fragment, the text may be cut. -/
theorem isText_of_ends {cs after : List Cell} {last : Cell} (hl : last.code = semicolon)
    (hs : last.IsSound) (ht : IsText (((cs ++ [last]) ++ after).map Cell.raw)) :
    IsText ((cs ++ [last]).map Cell.raw) ∧ IsText (after.map Cell.raw) := by
  have hraw : last.raw = semicolon := by
    rcases hs with h | h
    · rw [Cell.isBlank, hl] at h
      exact absurd h (by decide)
    · rw [← h, hl]
  rw [List.append_assoc, List.map_append, List.singleton_append, List.map_cons] at ht
  obtain ⟨hfront, _, hafter⟩ := ht.split_ascii (by rw [hraw]; decide)
  have hlast : IsText [last.raw] := ⟨[';'], by rw [hraw]; rfl⟩
  exact ⟨by rw [List.map_append]; exact hfront.append hlast, hafter⟩

theorem exists_encode_trimEnd (cs : List Char) :
    ∃ q, IsText q ∧ encode (Text.trimEnd (String.ofList cs)) ++ q = encodeChars cs := by
  obtain ⟨tail, ht⟩ := Text.dropTail_prefix Text.isBlank cs
  refine ⟨encodeChars tail, ⟨tail, rfl⟩, ?_⟩
  rw [Text.trimEnd, String.toList_ofList, encode_ofList, ← encodeChars_append, ht]

/-- No character spans an end of a fragment, and its text is what its cells start with. -/
theorem Fragment.isText {n : Nat} {cs after : List Cell} {d : Declaration} {p : List UInt8}
    (h : Fragment n cs after d) (hs : ∀ c ∈ cs, c.IsSound)
    (ht : IsText (p ++ (cs ++ after).map Cell.raw)) :
    IsText p ∧ IsText (after.map Cell.raw) ∧
      ∃ q, IsText q ∧ encode d.text ++ q = cs.map Cell.raw := by
  rw [List.map_append] at ht
  obtain ⟨hp, hm⟩ := ht.split (h.begins.startsFresh hs _)
  rw [← List.map_append] at hm
  cases h with
  | prototype _ hl =>
    obtain ⟨h₁, h₂⟩ := isText_of_ends hl (hs _ (by simp)) hm
    exact ⟨hp, h₂, [], isText_nil, by rw [List.append_nil, rawText, encode_lossy h₁]⟩
  | definition _ hl =>
    obtain ⟨h₁, h₂⟩ := isText_of_ends hl (hs _ (by simp)) hm
    exact ⟨hp, h₂, [], isText_nil, by rw [List.append_nil, rawText, encode_lossy h₁]⟩
  | endless =>
    -- It reaches to the end of the text, and loses only the blanks there.
    rw [List.append_nil] at hm
    obtain ⟨xs, hxs⟩ := hm
    obtain ⟨q, hq, he⟩ := exists_encode_trimEnd xs
    exact ⟨hp, isText_nil, q, hq, by rw [rawText, ← hxs, lossy_encodeChars, he]⟩

theorem Cuts.le_order {n : Nat} {cs : List Cell} {ds : List Declaration} (h : Cuts n cs ds) :
    ∀ d ∈ ds, n ≤ d.order := by
  induction h with
  | done => simp
  | next hf _ ih =>
    intro e he
    rcases List.mem_cons.1 he with rfl | he
    · rw [hf.order_eq]
      exact Nat.le_add_right _ _
    · exact Nat.le_trans (by omega) (ih e he)

/-- Each declaration that is cut out of cells is a fragment of them. -/
theorem Cuts.exists_fragment {n : Nat} {cs : List Cell} {ds : List Declaration} {d : Declaration}
    (h : Cuts n cs ds) (hd : d ∈ ds) : ∃ front mid after, front ++ (mid ++ after) = cs ∧
      Fragment (n + front.length) mid after d := by
  induction h with
  | done => exact absurd hd List.not_mem_nil
  | @next n gap mid after e ds hf _ ih =>
    rcases List.mem_cons.1 hd with rfl | hd
    · exact ⟨gap, mid, after, rfl, hf⟩
    · obtain ⟨front, mid', after', rfl, hf'⟩ := ih hd
      refine ⟨gap ++ (mid ++ front), mid', after', by simp, ?_⟩
      rwa [List.length_append, List.length_append, ← Nat.add_assoc, ← Nat.add_assoc]

/-- What is cut out in order lies in order, apart from each other. -/
theorem Cuts.follow {p : List UInt8} {n : Nat} {cs : List Cell} {ds : List Declaration}
    (h : Cuts n cs ds) (hs : ∀ c ∈ cs, c.IsSound) (ht : IsText (p ++ cs.map Cell.raw)) :
    Follow ds := by
  induction h generalizing p with
  | done => exact List.Pairwise.nil
  | @next n gap mid after d ds hf hc ih =>
    simp only [List.mem_append] at hs
    rw [List.map_append, ← List.append_assoc] at ht
    obtain ⟨_, hafter, q, _, hq⟩ := hf.isText (fun c hc => hs c (.inr (.inl hc))) ht
    refine .cons (fun e he => ?_)
      (ih (p := []) (fun c hc => hs c (.inr (.inr hc))) hafter)
    have hle := hc.le_order e he
    have hlen := congrArg List.length hq
    rw [List.length_append, List.length_map] at hlen
    -- A fragment has a cell, so that it starts before the next one and not where that does.
    have hpos : 0 < mid.length := by
      obtain ⟨c, hc, _⟩ := hf.begins
      exact List.length_pos_of_mem (List.mem_of_mem_head? hc)
    rw [Declaration.stop, hf.order_eq]
    omega

/-- The declarations found at file scope are slices of the text. -/
theorem isSliceOf_fragment {t : String} {d : Declaration}
    (h : d ∈ (read (cells (encode t))).found) : d.IsSliceOf t := by
  have hcuts := cuts_read (cells (encode t))
  obtain ⟨front, mid, after, hcs, hf⟩ := hcuts.exists_fragment h
  have hraw : (front ++ (mid ++ after)).map Cell.raw = encode t := by rw [hcs, raw_cells]
  have hs : ∀ c ∈ mid, c.IsSound := fun c hc =>
    isSound_of_mem_cells c (hcs ▸ List.mem_append_right _ (List.mem_append_left _ hc))
  rw [List.map_append] at hraw
  obtain ⟨hp, hafter, q, hq, he⟩ := hf.isText hs (hraw ▸ isText_encode t)
  refine Declaration.isSliceOf_of_append ?_ hp (hq.append hafter) (by simp [hf.order_eq])
  rw [← hraw, List.map_append, ← he]
  simp [List.append_assoc]

/-! ### The two readings together -/

/-- A fragment starts at a word. -/
theorem exists_word_at_fragment {bs : List UInt8} {d : Declaration}
    (h : d ∈ (read (cells bs)).found) :
    ∃ front c back, cells bs = front ++ c :: back ∧ d.order = front.length ∧
      isWordByte c.code := by
  have hcuts := cuts_read (cells bs)
  obtain ⟨front, mid, after, hcs, hf⟩ := hcuts.exists_fragment h
  obtain ⟨c, hc, hword⟩ := hf.startsWord
  obtain ⟨mid', rfl⟩ := List.head?_eq_some_iff.1 hc
  exact ⟨front, c, mid' ++ after, hcs.symm, by rw [hf.order_eq, Nat.zero_add], hword⟩

/-- Where a fragment starts, there is code. -/
theorem code_at_fragment {bs : List UInt8} {d : Declaration} (h : d ∈ (read (cells bs)).found) :
    ∃ c ∈ (cells bs)[d.order]?, c.isBlank = false := by
  obtain ⟨front, c, back, hcs, hd, hword⟩ := exists_word_at_fragment h
  exact ⟨c, by simp [hcs, hd], isBlank_of_word hword⟩

/-- A fragment does not start where a directive does: there is code at one and none at the
    other. -/
theorem order_ne_of_fragment {bs : List UInt8} {d e : Declaration}
    (hd : d ∈ directivesFrom 0 (lexemes bs)) (he : e ∈ (read (cells bs)).found) :
    d.order ≠ e.order := by
  obtain ⟨c, hc, hblank⟩ := blank_at_directive (allFit_lexemesFrom true bs) hd
  obtain ⟨c', hc', hcode⟩ := code_at_fragment he
  intro h
  -- The same cell would be blank and code.
  rw [← h] at hc'
  obtain rfl : c' = c := Option.some.inj (hc'.symm.trans hc)
  rw [hblank] at hcode
  exact absurd hcode (by decide)

theorem kind_of_directive {n : Nat} {ls : List Lexeme} {d : Declaration}
    (h : d ∈ directivesFrom n ls) : d.kind = .directive := by
  obtain ⟨_, _, _, _, rfl⟩ := mem_directivesFrom.1 h
  rfl

theorem kind_of_fragment {bs : List UInt8} {d : Declaration} (h : d ∈ (read (cells bs)).found) :
    d.kind = .structOrEnum ∨ d.kind = .prototype := by
  have hcuts := cuts_read (cells bs)
  obtain ⟨_, _, _, _, hf⟩ := hcuts.exists_fragment h
  cases hf with
  | prototype => exact .inr rfl
  | definition => exact .inl rfl
  | endless => exact .inl rfl

theorem follow_directives (t : String) : Follow (extract t).directives := by
  refine follow_directivesFrom (allFit_lexemesFrom true _) fun bs hbs => ?_
  obtain ⟨ls₁, ls₂, hls⟩ := List.append_of_mem hbs
  have ht : (lexemes (encode t)).flatMap Lexeme.bytes = encode t := flatMap_bytes_lexemes _
  rw [hls] at ht
  exact (isText_of_directive (hls ▸ allFit_lexemesFrom true _) (ht ▸ isText_encode t)).2.1

theorem follow_found (t : String) : Follow (read (cells (encode t))).found := by
  have hcuts := cuts_read (cells (encode t))
  refine hcuts.follow (p := []) isSound_of_mem_cells ?_
  rw [List.nil_append, raw_cells]
  exact isText_encode t

/-- The parts of a list by two properties that exclude each other, put one behind the other,
    are related as the list is. -/
theorem pairwise_filter_append {α : Type} {R : α → α → Prop} {l : List α} {p q : α → Bool}
    (hR : ∀ {a b}, R a b → R b a) (hl : l.Pairwise R) (hpq : ∀ a, p a → q a = false) :
    (l.filter p ++ l.filter q).Pairwise R := by
  have : Std.Symm R := ⟨fun _ _ => hR⟩
  refine List.pairwise_append.2 ⟨hl.filter p, hl.filter q, fun a ha b hb => ?_⟩
  obtain ⟨ha, hpa⟩ := List.mem_filter.1 ha
  obtain ⟨hb, hqb⟩ := List.mem_filter.1 hb
  refine hl.forall ha hb ?_
  rintro rfl
  rw [hpq a hpa] at hqb
  exact absurd hqb (by decide)

/-- No two declarations of an extraction start at one place. -/
theorem pairwise_order_ne (t : String) :
    ((extract t).directives ++ (extract t).structsAndEnums ++ (extract t).prototypes).Pairwise
      fun d e => d.order ≠ e.order := by
  rw [List.append_assoc]
  refine List.pairwise_append.2 ⟨(follow_directives t).imp fun h => Nat.ne_of_lt h.1, ?_, ?_⟩
  · exact pairwise_filter_append (fun h => h.symm) ((follow_found t).imp fun h => Nat.ne_of_lt h.1)
      fun d hd => by simp_all
  · intro d hd e he
    refine order_ne_of_fragment hd ?_
    rcases List.mem_append.1 he with he | he <;> exact (List.mem_filter.1 he).1

/-- The declarations of a text are its directives and what is found at file scope. -/
theorem declarations_perm_found (t : String) : (extract t).declarations.Perm
    (directivesFrom 0 (lexemes (encode t)) ++ (read (cells (encode t))).found) := by
  refine (extract t).declarations_perm.trans ?_
  rw [List.append_assoc]
  refine List.Perm.append_left _ ?_
  have hkinds : (extract t).prototypes =
      (read (cells (encode t))).found.filter fun d => !(d.kind == .structOrEnum) := by
    refine List.filter_congr fun d hd => ?_
    rcases kind_of_fragment hd with h | h <;> rw [h] <;> rfl
  rw [hkinds]
  exact List.filter_append_perm _ _

theorem inOrder_declarations (t : String) : InOrder (extract t).declarations :=
  inOrder_sortByOrder (pairwise_order_ne t)

/-- So they are known from any list of these that is in order. -/
theorem declarations_eq {t : String} {ds : List Declaration} (hds : InOrder ds)
    (h : ds.Perm (directivesFrom 0 (lexemes (encode t)) ++ (read (cells (encode t))).found)) :
    (extract t).declarations = ds :=
  (inOrder_declarations t).eq_of_perm hds ((declarations_perm_found t).trans h.symm)

/-- Every declaration is a slice of the text. -/
theorem isSliceOf_of_mem {t : String} {d : Declaration} (h : d ∈ (extract t).declarations) :
    d.IsSliceOf t := by
  rcases List.mem_append.1 ((declarations_perm_found t).mem_iff.1 h) with h | h
  · exact isSliceOf_directive h
  · exact isSliceOf_fragment h

/-- Every declaration starts inside the text. -/
theorem order_lt_length {t : String} {d : Declaration} (h : d ∈ (extract t).declarations) :
    d.order < (encode t).length := by
  obtain ⟨c, hc⟩ : ∃ c, c ∈ (cells (encode t))[d.order]? := by
    rcases List.mem_append.1 ((declarations_perm_found t).mem_iff.1 h) with h | h
    · obtain ⟨c, hc, -⟩ := blank_at_directive (allFit_lexemesFrom true _) h
      exact ⟨c, hc⟩
    · obtain ⟨c, hc, -⟩ := code_at_fragment h
      exact ⟨c, hc⟩
  rw [← length_cells]
  exact (List.getElem?_eq_some_iff.1 hc).1

theorem isSorted_extract (t : String) : (extract t).IsSorted :=
  ⟨fun _ hd => kind_of_directive hd, fun _ hd => beq_iff_eq.1 (List.mem_filter.1 hd).2,
    fun _ hd => beq_iff_eq.1 (List.mem_filter.1 hd).2⟩

/-- An extraction is a cut of the text as written. Every declaration is what the text has at its
    place, between whole characters. In each of the three lists the declarations are in order;
    directives are apart from each other, and so are definitions and prototypes taken together.
    Merged, all of them are in order, and each of the three lists is found again by its kind. -/
theorem extract_isCut (t : String) :
    (∀ d ∈ (extract t).declarations, d.IsSliceOf t) ∧
      (InOrder (extract t).directives ∧ InOrder (extract t).structsAndEnums ∧
        InOrder (extract t).prototypes) ∧
      ((extract t).directives.Pairwise Declaration.Apart ∧
        ((extract t).structsAndEnums ++ (extract t).prototypes).Pairwise Declaration.Apart) ∧
      InOrder (extract t).declarations ∧
      (extract t).declarations.filter (·.kind == .directive) = (extract t).directives ∧
      (extract t).declarations.filter (·.kind == .structOrEnum) = (extract t).structsAndEnums ∧
      (extract t).declarations.filter (·.kind == .prototype) = (extract t).prototypes := by
  have hdir := (follow_directives t).inOrder
  have hstructs : InOrder (extract t).structsAndEnums := (follow_found t).inOrder.filter _
  have hprotos : InOrder (extract t).prototypes := (follow_found t).inOrder.filter _
  have hne := pairwise_order_ne t
  refine ⟨fun d hd => isSliceOf_of_mem hd, ⟨hdir, hstructs, hprotos⟩,
    ⟨(follow_directives t).apart, ?_⟩, inOrder_sortByOrder hne, ?_, ?_, ?_⟩
  · exact pairwise_filter_append (fun h => h.symm) (follow_found t).apart fun d hd => by simp_all
  · exact filter_sortByOrder hne hdir ((isSorted_extract t).filter_append .directive)
  · exact filter_sortByOrder hne hstructs ((isSorted_extract t).filter_append .structOrEnum)
  · exact filter_sortByOrder hne hprotos ((isSorted_extract t).filter_append .prototype)

end Source

end TestBench
