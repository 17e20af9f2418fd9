import TestBench.Proofs.Source.Alike

/-!
# Looking ahead over blanks

Cells may differ in one stretch of blanks, which may even be longer in one place than in the other
(`Swap`). Looking ahead takes no notice of it: a search over such cells fails in both or in none,
and if it does not fail then it cuts both in the same place (`CutSwap`), so that the stretch is
either in what was found or still ahead.

* `Swap.group?`, `Swap.toSemicolon?`, `Swap.opening?`: searches cut in the same place;
* `Swap.definition`: so a definition is absent, endless or complete in both.
-/

namespace TestBench.Source

/-- Whether cells are a stretch of blanks. -/
def IsBlanks (xs : List Cell) : Prop :=
  xs ≠ [] ∧ ∀ c ∈ xs, c.isBlank

/-- Whether cells are the same but for `xs`, which stands behind `u` in one list, and `xs'`, which
    stands in its place in the other one. -/
inductive Swap (xs xs' : List Cell) : List Cell → List Cell → List Cell → Prop
  | here (l : List Cell) : Swap xs xs' [] (xs ++ l) (xs' ++ l)
  | later (c : Cell) {u l l' : List Cell} (h : Swap xs xs' u l l') :
    Swap xs xs' (c :: u) (c :: l) (c :: l')

/-- Whether two lists are cut in the same place: the difference is in what follows, or in what was
    cut off. -/
inductive CutSwap (xs xs' : List Cell) :
    List Cell → List Cell × List Cell → List Cell × List Cell → Prop
  | ahead {g rest rest' u : List Cell} (h : Swap xs xs' u rest rest') :
    CutSwap xs xs' (g ++ u) (g, rest) (g, rest')
  | inside {g g' rest u : List Cell} (h : Swap xs xs' u g g') :
    CutSwap xs xs' u (g, rest) (g', rest)

variable {xs xs' u l l' : List Cell}

namespace IsBlanks

variable (h : IsBlanks xs)
include h

theorem exists_cons : ∃ c rest, xs = c :: rest ∧ c.isBlank := by
  obtain ⟨c, rest, rfl⟩ := List.exists_cons_of_ne_nil h.1
  exact ⟨c, rest, rfl, h.2 c List.mem_cons_self⟩

/-- What comes first in front of other cells is blank. -/
theorem exists_head (l : List Cell) : ∃ c rest, xs ++ l = c :: rest ∧ c.isBlank := by
  obtain ⟨c, rest, rfl, hc⟩ := h.exists_cons
  exact ⟨c, rest ++ l, rfl, hc⟩

theorem isFlat : ∀ c ∈ xs, c.IsFlat := fun c hc => isFlat_of_isBlank (h.2 c hc)

theorem isNeutral : IsNeutral xs :=
  isNeutral_of_code fun c hc => (h.isFlat c hc).2

theorem not_startsWord (l : List Cell) : ¬StartsWord (xs ++ l) := by
  obtain ⟨c, rest, heq, hc⟩ := h.exists_head l
  rw [heq]
  exact not_startsWord_cons (not_word_of_isBlank hc) rest

end IsBlanks

/-- Blanks are passed on the way to the semicolon. -/
theorem toSemicolon?_append (h : ∀ c ∈ xs, c.isBlank) (depth : Nat) (l : List Cell) :
    toSemicolon? depth (xs ++ l) = (toSemicolon? depth l).map fun g => (xs ++ g.1, g.2) := by
  induction xs with
  | nil => simp
  | cons c xs ih =>
    rw [List.forall_mem_cons] at h
    obtain ⟨hs, ho, hc⟩ := isFlat_of_isBlank h.1
    rw [List.cons_append, toSemicolon?, if_neg fun hn => hs hn.1]
    simp only [if_neg ho, if_neg hc, ih h.2, Option.map_map]
    rfl

/-! ### Cells with a difference -/

namespace Swap

theorem exists_parts (h : Swap xs xs' u l l') :
    ∃ v, l = u ++ (xs ++ v) ∧ l' = u ++ (xs' ++ v) := by
  induction h with
  | here l => exact ⟨l, rfl, rfl⟩
  | later c _ ih =>
    obtain ⟨v, rfl, rfl⟩ := ih
    exact ⟨v, rfl, rfl⟩

theorem append_right (h : Swap xs xs' u l l') (m : List Cell) :
    Swap xs xs' u (l ++ m) (l' ++ m) := by
  induction h with
  | here l =>
    rw [List.append_assoc, List.append_assoc]
    exact .here (l ++ m)
  | later c _ ih => exact .later c ih

theorem append_left (h : Swap xs xs' u l l') (m : List Cell) :
    Swap xs xs' (m ++ u) (m ++ l) (m ++ l') := by
  induction m with
  | nil => exact h
  | cons c m ih => exact .later c ih

theorem of_parts (u v : List Cell) : Swap xs xs' u (u ++ (xs ++ v)) (u ++ (xs' ++ v)) := by
  have h : Swap xs xs' (u ++ []) (u ++ (xs ++ v)) (u ++ (xs' ++ v)) := append_left (.here v) u
  rwa [List.append_nil] at h

theorem length_eq (h : Swap xs xs' u l l') : l.length + xs'.length = l'.length + xs.length := by
  obtain ⟨v, rfl, rfl⟩ := h.exists_parts
  simp only [List.length_append]
  omega

theorem le_length (h : Swap xs xs' u l l') : u.length + xs.length ≤ l.length := by
  obtain ⟨v, rfl, -⟩ := h.exists_parts
  simp only [List.length_append]
  omega

theorem symm (h : Swap xs xs' u l l') : Swap xs' xs u l' l := by
  induction h with
  | here l => exact .here l
  | later c _ ih => exact .later c ih

theorem ne_nil (h : Swap xs xs' u l l') (hxs : IsBlanks xs) : l ≠ [] := by
  cases h with
  | here l => exact List.append_ne_nil_of_left_ne_nil hxs.1 l
  | later => exact List.cons_ne_nil _ _

/-- What does not hold of all cells in one list does not in the other one. -/
theorem all_isBlank (h : Swap xs xs' u l l') (hxs' : IsBlanks xs') (hl : ∀ c ∈ l, c.isBlank) :
    ∀ c ∈ l', c.isBlank := by
  obtain ⟨v, rfl, rfl⟩ := h.exists_parts
  intro c hc
  simp only [List.mem_append] at hl hc
  rcases hc with hc | hc | hc
  · exact hl c (.inl hc)
  · exact hxs'.2 c hc
  · exact hl c (.inr (.inr hc))

theorem startsWord_iff (h : Swap xs xs' u l l') (hxs : IsBlanks xs) (hxs' : IsBlanks xs') :
    StartsWord l ↔ StartsWord l' := by
  cases h with
  | here l => exact iff_of_false (hxs.not_startsWord l) (hxs'.not_startsWord l)
  | later => exact Iff.rfl

/-- A word in front is the same, and the difference is behind it. -/
theorem exists_behind_word {w : List Cell} (h : Swap xs xs' u (w ++ l) l') (hxs : IsBlanks xs)
    (hw : ∀ c ∈ w, isWordByte c.code) :
    ∃ m rest, u = w ++ m ∧ l' = w ++ rest ∧ Swap xs xs' m l rest := by
  induction w generalizing u l' with
  | nil => exact ⟨u, l', rfl, rfl, h⟩
  | cons c w ih =>
    rw [List.forall_mem_cons] at hw
    generalize hl : c :: w ++ l = cs at h
    cases h with
    | here v =>
      obtain ⟨b, rest, heq, hb⟩ := hxs.exists_head v
      rw [heq] at hl
      obtain ⟨rfl, -⟩ := List.cons.inj hl
      exact absurd hw.1 (by rw [not_word_of_isBlank hb]; decide)
    | later d h =>
      obtain ⟨rfl, rfl⟩ := List.cons.inj hl
      obtain ⟨m, rest, rfl, rfl, hrest⟩ := ih h hw.2
      exact ⟨m, rest, rfl, rfl, hrest⟩

end Swap

/-! ### Cuts in the same place -/

namespace CutSwap

variable {a a' b b' c c' d d' g g' rest rest' : List Cell} {found found' : List Cell × List Cell}

theorem cons (h : CutSwap xs xs' u (g, rest) (g', rest')) (c : Cell) :
    CutSwap xs xs' (c :: u) (c :: g, rest) (c :: g', rest') := by
  cases h with
  | ahead h => exact .ahead (g := c :: g) h
  | inside h => exact .inside (.later c h)

/-- With the same cells in front, a cut is in the same place. -/
theorem append_left (h : CutSwap xs xs' u (c, d) (c', d')) (a : List Cell) :
    CutSwap xs xs' (a ++ u) (a ++ c, d) (a ++ c', d') := by
  cases h with
  | inside h => exact .inside (h.append_left a)
  | ahead h =>
    rw [← List.append_assoc]
    exact .ahead h

/-- One cut behind another is in the same place if the second one is whenever its cells have a
    difference. -/
theorem append (h : CutSwap xs xs' u (a, b) (a', b'))
    (hcut : ∀ m, Swap xs xs' m b b' → CutSwap xs xs' m (c, d) (c', d'))
    (heq : b = b' → (c, d) = (c', d')) : CutSwap xs xs' u (a ++ c, d) (a' ++ c', d') := by
  cases h with
  | inside h =>
    obtain ⟨rfl, rfl⟩ := Prod.mk.inj (heq rfl)
    exact .inside (h.append_right c)
  | ahead h => exact (hcut _ h).append_left a

/-- A search behind a cut in the same place. -/
theorem search {f : List Cell → Option (List Cell × List Cell)}
    (hf : ∀ {m l l'}, Swap xs xs' m l l' → Option.Rel (CutSwap xs xs' m) (f l) (f l'))
    (h : CutSwap xs xs' u found found') : Option.Rel (CutSwap xs xs' u)
      ((f found.2).map fun g => (found.1 ++ g.1, g.2))
      ((f found'.2).map fun g => (found'.1 ++ g.1, g.2)) := by
  cases h with
  | @inside _ _ rest _ h =>
    cases f rest with
    | none => exact .none
    | some g => exact .some (.inside (h.append_right g.1))
  | @ahead _ rest rest' _ h =>
    have hsearch := hf h
    simp only
    generalize f rest = g at hsearch
    generalize f rest' = g' at hsearch
    cases hsearch with
    | none => exact .none
    | some hg => exact .some (hg.append_left _)

end CutSwap

theorem rel_map_cons {found found' : Option (List Cell × List Cell)}
    (h : Option.Rel (CutSwap xs xs' u) found found') (c : Cell) :
    Option.Rel (CutSwap xs xs' (c :: u)) (found.map fun g => (c :: g.1, g.2))
      (found'.map fun g => (c :: g.1, g.2)) := by
  cases h with
  | none => exact .none
  | some h => exact .some (h.cons c)

theorem rel_map_here {found : Option (List Cell × List Cell)} :
    Option.Rel (CutSwap xs xs' []) (found.map fun g => (xs ++ g.1, g.2))
      (found.map fun g => (xs' ++ g.1, g.2)) := by
  cases found with
  | none => exact .none
  | some g => exact .some (.inside (.here g.1))

/-! ### Looking ahead -/

namespace Swap

variable (hxs : IsBlanks xs) (hxs' : IsBlanks xs')
include hxs hxs'

/-- Cells that all pass a test, or none of which do, do not change where a list is cut by it. -/
theorem span (h : Swap xs xs' u l l') {p : Cell → Bool} {b : Bool}
    (hp : ∀ c : Cell, c.isBlank → p c = b) :
    CutSwap xs xs' u (l.takeWhile p, l.dropWhile p) (l'.takeWhile p, l'.dropWhile p) := by
  induction h with
  | here l =>
    -- All of the blanks pass the test, and the cut is behind them, or the first one stops it.
    cases b with
    | true =>
      have hall : ∀ {xs}, IsBlanks xs → ∀ c ∈ xs, p c = true := fun h c hc => hp c (h.2 c hc)
      rw [List.takeWhile_append_of_pos (hall hxs), List.takeWhile_append_of_pos (hall hxs'),
        List.dropWhile_append_of_pos (hall hxs), List.dropWhile_append_of_pos (hall hxs')]
      exact .inside (.here _)
    | false =>
      have hnone : ∀ {xs}, IsBlanks xs →
          (xs ++ l).takeWhile p = [] ∧ (xs ++ l).dropWhile p = xs ++ l := by
        intro xs h
        obtain ⟨c, rest, heq, hc⟩ := h.exists_head l
        simp [heq, hp c hc]
      rw [(hnone hxs).1, (hnone hxs).2, (hnone hxs').1, (hnone hxs').2]
      exact .ahead (g := []) (.here l)
  | @later c u l l' h ih =>
    rw [List.takeWhile_cons, List.takeWhile_cons, List.dropWhile_cons, List.dropWhile_cons]
    split
    · exact ih.cons c
    · exact .ahead (g := []) (.later c h)

theorem group? (h : Swap xs xs' u l l') (depth : Nat) :
    Option.Rel (CutSwap xs xs' u) (Source.group? depth l) (Source.group? depth l') := by
  induction h generalizing depth with
  | here l =>
    rw [hxs.isNeutral, hxs'.isNeutral]
    exact rel_map_here
  | @later c u l l' h ih =>
    by_cases ho : c.code = openBrace
    · rw [group?_open _ _ ho, group?_open _ _ ho]
      exact rel_map_cons (ih _) c
    by_cases hc : c.code = closeBrace
    · cases depth with
      | zero =>
        rw [group?_end _ hc, group?_end _ hc]
        exact .some (.ahead (g := [c]) h)
      | succ depth =>
        rw [group?_close _ _ hc, group?_close _ _ hc]
        exact rel_map_cons (ih _) c
    · rw [group?_code _ _ ho hc, group?_code _ _ ho hc]
      exact rel_map_cons (ih _) c

theorem toSemicolon? (h : Swap xs xs' u l l') (depth : Nat) :
    Option.Rel (CutSwap xs xs' u) (Source.toSemicolon? depth l) (Source.toSemicolon? depth l') := by
  induction h generalizing depth with
  | here l =>
    rw [toSemicolon?_append hxs.2, toSemicolon?_append hxs'.2]
    exact rel_map_here
  | @later c u l l' h ih =>
    rw [Source.toSemicolon?, Source.toSemicolon?]
    split
    · exact .some (.ahead (g := [c]) h)
    · exact rel_map_cons (ih _) c

theorem splitTag (h : Swap xs xs' u l l') :
    CutSwap xs xs' u (Source.splitTag l) (Source.splitTag l') := by
  have hnone : ∀ {c : Cell} (l : List Cell), isTagStart c.code = false →
      Source.splitTag (c :: l) = ([], c :: l) := by
    intro c l hc
    rw [Source.splitTag, hc]
    rfl
  have hstart : ∀ {c : Cell}, isWordByte c.code = false → isTagStart c.code = false := by
    intro c hc
    rw [← Bool.not_eq_true] at hc ⊢
    exact mt isWordByte_of_isTagStart hc
  cases h with
  | here l =>
    have hblanks : ∀ {xs}, IsBlanks xs → Source.splitTag (xs ++ l) = ([], xs ++ l) := by
      intro xs h
      obtain ⟨c, rest, heq, hc⟩ := h.exists_head l
      rw [heq, hnone rest (hstart (not_word_of_isBlank hc))]
    rw [hblanks hxs, hblanks hxs']
    exact .ahead (g := []) (.here l)
  | @later c u l l' h =>
    cases hc : isTagStart c.code with
    | false =>
      rw [hnone l hc, hnone l' hc]
      exact .ahead (g := []) (.later c h)
    | true =>
      have hword := (Swap.later c h).span hxs hxs' fun c hc => not_word_of_isBlank hc
      rw [Source.splitTag, Source.splitTag, if_pos hc, if_pos hc]
      exact hword.append (fun k hk => hk.span hxs hxs' fun c hc => hc) fun heq => by rw [heq]

/-- Headings end in the same brace. -/
theorem opening? (h : Swap xs xs' u l l') :
    Option.Rel (CutSwap xs xs' u) (Source.opening? l) (Source.opening? l') := by
  have hcut : CutSwap xs xs' u
      (l.takeWhile Cell.isBlank ++ (Source.splitTag (l.dropWhile Cell.isBlank)).1,
        (Source.splitTag (l.dropWhile Cell.isBlank)).2)
      (l'.takeWhile Cell.isBlank ++ (Source.splitTag (l'.dropWhile Cell.isBlank)).1,
        (Source.splitTag (l'.dropWhile Cell.isBlank)).2) :=
    (h.span hxs hxs' fun c hc => hc).append (fun k hk => hk.splitTag hxs hxs') fun heq => by
      rw [heq]
  rw [Source.opening?, Source.opening?]
  generalize (Source.splitTag (l.dropWhile Cell.isBlank)).2 = rest at hcut
  generalize (Source.splitTag (l'.dropWhile Cell.isBlank)).2 = rest' at hcut
  generalize l.takeWhile Cell.isBlank ++ (Source.splitTag (l.dropWhile Cell.isBlank)).1 = g at hcut
  generalize l'.takeWhile Cell.isBlank ++ (Source.splitTag (l'.dropWhile Cell.isBlank)).1 = g'
    at hcut
  cases hcut with
  | inside hg =>
    cases rest with
    | nil => exact .none
    | cons c rest =>
      simp only
      split
      · exact .some (.inside (hg.append_right [c]))
      · exact .none
  | ahead hrest =>
    cases hrest with
    | here v =>
      -- The swapped blanks are next, so in neither list a brace is.
      have hblanks : ∀ {xs}, IsBlanks xs → ∃ c rest, xs ++ v = c :: rest ∧ c.code ≠ openBrace := by
        intro xs h
        obtain ⟨c, rest, heq, hc⟩ := h.exists_head v
        exact ⟨c, rest, heq, (isFlat_of_isBlank hc).2.1⟩
      obtain ⟨c, rest, heq, hc⟩ := hblanks hxs
      obtain ⟨c', rest', heq', hc'⟩ := hblanks hxs'
      simp only [heq, heq', if_neg hc, if_neg hc']
      exact .none
    | @later c _ _ _ hrest =>
      simp only
      split
      · rw [List.append_cons]
        exact .some (.ahead hrest)
      · exact .none

end Swap

/-! ### Definitions -/

/-- A definition is its heading, its group and what follows up to the semicolon, one search behind
    another. -/
theorem definition_eq (cs : List Cell) : definition cs =
    match opening? cs with
    | none => .absent
    | some head =>
      match (group? 0 head.2).map fun g => (head.1 ++ g.1, g.2) with
      | none => .endless
      | some front =>
        match (toSemicolon? 0 front.2).map fun g => (front.1 ++ g.1, g.2) with
        | none => .endless
        | some whole => .complete whole.1 whole.2 := by
  rw [definition]
  cases opening? cs with
  | none => rfl
  | some head =>
    simp only
    cases group? 0 head.2 with
    | none => rfl
    | some body =>
      simp only [Option.map_some]
      cases toSemicolon? 0 body.2 <;> rfl

/-- Whether two definitions are absent, endless or complete together, and end in the same place. -/
inductive Definition.Swap (xs xs' u : List Cell) : Definition → Definition → Prop
  | absent : Definition.Swap xs xs' u .absent .absent
  | endless : Definition.Swap xs xs' u .endless .endless
  | complete {cells cells' rest rest' : List Cell}
      (h : CutSwap xs xs' u (cells, rest) (cells', rest')) :
    Definition.Swap xs xs' u (.complete cells rest) (.complete cells' rest')

theorem Swap.definition (h : Swap xs xs' u l l') (hxs : IsBlanks xs) (hxs' : IsBlanks xs') :
    (Source.definition l).Swap xs xs' u (Source.definition l') := by
  -- The three searches fail together in both lists, or go on behind cuts in the same place.
  have hopen := h.opening? hxs hxs'
  rw [definition_eq, definition_eq]
  generalize Source.opening? l = head at hopen
  generalize Source.opening? l' = head' at hopen
  cases hopen with
  | none => exact .absent
  | @some head head' hhead =>
    have hgroup := hhead.search fun h => h.group? hxs hxs' 0
    simp only
    generalize (Source.group? 0 head.2).map (fun g => (head.1 ++ g.1, g.2)) = front at hgroup
    generalize (Source.group? 0 head'.2).map (fun g => (head'.1 ++ g.1, g.2)) = front' at hgroup
    cases hgroup with
    | none => exact .endless
    | @some front front' hfront =>
      have hend := hfront.search fun h => h.toSemicolon? hxs hxs' 0
      simp only
      generalize (Source.toSemicolon? 0 front.2).map (fun g => (front.1 ++ g.1, g.2)) = whole
        at hend
      generalize (Source.toSemicolon? 0 front'.2).map (fun g => (front'.1 ++ g.1, g.2)) = whole'
        at hend
      cases hend with
      | none => exact .endless
      | some hwhole => exact .complete hwhole

end TestBench.Source
