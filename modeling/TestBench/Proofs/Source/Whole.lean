import TestBench.Proofs.Source.Extraction
import TestBench.Proofs.Source.Run

/-!
# Fragments that stand alone

What is found at file scope, unless it has no end, is *whole* (`Whole`): its own cells show that it
is a prototype or a definition, whatever stands around it. So it is found again from any place
where a statement starts (`Whole.run`), and all that a run finds is whole (`Run.row`).

Looking ahead from inside such a fragment never looks beyond it: what a group, a heading or a
definition is does not depend on the cells behind it (`group?_replace`, `opening?_replace`,
`definition_replace`).
-/

namespace TestBench.Source

open Utf8

/-! ### Looking ahead goes no further than it has to -/

/-- What a search that passes a cell has found behind it. -/
theorem exists_of_map_cons {c : Cell} {found : Option (List Cell × List Cell)}
    {g rest : List Cell} (h : (found.map fun g => (c :: g.1, g.2)) = some (g, rest)) :
    ∃ g', g = c :: g' ∧ found = some (g', rest) := by
  obtain ⟨⟨g', rest'⟩, hg, he⟩ := Option.map_eq_some_iff.1 h
  obtain ⟨rfl, rfl⟩ := Prod.mk.inj he
  exact ⟨g', rfl, hg⟩

theorem group?_replace {depth : Nat} {cs g rest : List Cell}
    (h : group? depth cs = some (g, rest)) (r : List Cell) :
    group? depth (g ++ r) = some (g, r) := by
  fun_induction group? depth cs generalizing g with
  | case1 => simp at h
  | case2 depth c cs ho ih =>
    obtain ⟨g, rfl, hg⟩ := exists_of_map_cons h
    rw [List.cons_append, group?_open _ _ ho, ih hg]
    rfl
  | case3 c cs ho hc =>
    obtain ⟨rfl, rfl⟩ := Prod.mk.inj (Option.some.inj h)
    exact group?_end _ hc
  | case4 c cs ho hc depth ih =>
    obtain ⟨g, rfl, hg⟩ := exists_of_map_cons h
    rw [List.cons_append, group?_close _ _ hc, ih hg]
    rfl
  | case5 depth c cs ho hc ih =>
    obtain ⟨g, rfl, hg⟩ := exists_of_map_cons h
    rw [List.cons_append, group?_code _ _ ho hc, ih hg]
    rfl

theorem group?_self {depth : Nat} {cs g rest : List Cell}
    (h : group? depth cs = some (g, rest)) : group? depth g = some (g, []) := by
  have := group?_replace h []
  rwa [List.append_nil] at this

/-- A group ends in a closing brace. -/
theorem exists_last_of_group {depth : Nat} {cs g rest : List Cell}
    (h : group? depth cs = some (g, rest)) :
    ∃ front last, g = front ++ [last] ∧ last.code = closeBrace := by
  have hcons : ∀ (c : Cell) {g : List Cell},
      (∃ front last, g = front ++ [last] ∧ last.code = closeBrace) →
        ∃ front last, c :: g = front ++ [last] ∧ last.code = closeBrace := by
    rintro c _ ⟨front, last, rfl, hl⟩
    exact ⟨c :: front, last, rfl, hl⟩
  fun_induction group? depth cs generalizing g with
  | case1 => simp at h
  | case3 c cs ho hc =>
    obtain ⟨rfl, rfl⟩ := Prod.mk.inj (Option.some.inj h)
    exact ⟨[], c, rfl, hc⟩
  | case2 _ _ _ _ ih | case4 _ _ _ _ _ ih | case5 _ _ _ _ _ ih =>
    obtain ⟨g, rfl, hg⟩ := exists_of_map_cons h
    exact hcons _ (ih hg)

theorem toSemicolon?_replace {depth : Nat} {cs g rest : List Cell}
    (h : toSemicolon? depth cs = some (g, rest)) (r : List Cell) :
    toSemicolon? depth (g ++ r) = some (g, r) := by
  induction cs generalizing depth g with
  | nil => simp [toSemicolon?] at h
  | cons c cs ih =>
    rw [toSemicolon?] at h
    split at h
    next hc =>
      obtain ⟨rfl, rfl⟩ := Prod.mk.inj (Option.some.inj h)
      rw [List.singleton_append, toSemicolon?, if_pos hc]
    next hc =>
      obtain ⟨g, rfl, hg⟩ := exists_of_map_cons h
      rw [List.cons_append, toSemicolon?, if_neg hc]
      simp only [ih hg]
      rfl

/-- A tag and the blanks behind it, or nothing at all. -/
theorem splitTag_eq (cs : List Cell) : ∃ tag gap, (splitTag cs).1 = tag ++ gap ∧
    (tag = [] ∧ gap = [] ∨ IsTag tag) ∧ ∀ b ∈ gap, b.isBlank := by
  cases cs with
  | nil => exact ⟨[], [], rfl, .inl ⟨rfl, rfl⟩, by simp⟩
  | cons c cs =>
    rw [splitTag]
    split
    next ht =>
      refine ⟨_, _, rfl, .inr ⟨⟨c, ?_, ht⟩, fun d hd =>
        List.mem_takeWhile_imp (p := fun x : Cell => isWordByte x.code) hd⟩,
        fun b hb => List.mem_takeWhile_imp hb⟩
      rw [List.head?_takeWhile, List.head?_cons]
      simp [isWordByte_of_isTagStart ht]
    next => exact ⟨[], [], rfl, .inl ⟨rfl, rfl⟩, by simp⟩

theorem opening?_replace {cs head rest : List Cell} (h : opening? cs = some (head, rest))
    (r : List Cell) : opening? (head ++ r) = some (head, r) := by
  simp only [opening?] at h
  split at h
  · simp at h
  next c rest' hs =>
    split at h
    next hc =>
      obtain ⟨rfl, rfl⟩ := Prod.mk.inj (Option.some.inj h)
      obtain ⟨tag, gap, hsplit, htag, hgap⟩ := splitTag_eq (cs.dropWhile Cell.isBlank)
      have := opening_heading hc (fun b hb => List.mem_takeWhile_imp (l := cs) hb) htag hgap r
      rw [hsplit]
      simpa using this
    · simp at h

/-- A heading is flat up to its brace. -/
theorem exists_of_opening {cs head rest : List Cell} (h : opening? cs = some (head, rest)) :
    ∃ front c, head = front ++ [c] ∧ c.code = openBrace ∧ ∀ x ∈ front, x.IsFlat := by
  simp only [opening?] at h
  split at h
  · simp at h
  next c rest' _ =>
    split at h
    next hc =>
      obtain ⟨rfl, rfl⟩ := Prod.mk.inj (Option.some.inj h)
      obtain ⟨tag, gap, hsplit, htag, hgap⟩ := splitTag_eq (cs.dropWhile Cell.isBlank)
      refine ⟨_, c, rfl, hc, fun x hx => ?_⟩
      rw [hsplit] at hx
      simp only [List.mem_append] at hx
      rcases hx with hx | hx | hx
      · exact isFlat_of_isBlank (List.mem_takeWhile_imp hx)
      · rcases htag with ⟨rfl, _⟩ | htag
        · exact absurd hx List.not_mem_nil
        · exact not_flat_of_word (htag.2 x hx)
      · exact isFlat_of_isBlank (hgap x hx)
    · simp at h

/-- A definition with an end: its heading, its group and what follows up to the semicolon. -/
theorem definition_eq_complete {cs cells rest : List Cell}
    (h : definition cs = .complete cells rest) :
    ∃ head body tail, cells = head ++ (body ++ tail) ∧
      opening? cs = some (head, body ++ (tail ++ rest)) ∧
      group? 0 (body ++ (tail ++ rest)) = some (body, tail ++ rest) ∧
      toSemicolon? 0 (tail ++ rest) = some (tail, rest) := by
  unfold definition at h
  split at h
  · simp at h
  next head after ho =>
  split at h
  · simp at h
  next body after' hg =>
  split at h
  · simp at h
  next tail rest' hs =>
    obtain ⟨rfl, rfl⟩ := Definition.complete.inj h
    obtain ⟨rfl, _⟩ := append_of_toSemicolon hs
    obtain rfl := append_of_group hg
    exact ⟨head, body, tail, List.append_assoc .., ho, hg, hs⟩

theorem definition_replace {cs cells rest : List Cell} (h : definition cs = .complete cells rest)
    (r : List Cell) : definition (cells ++ r) = .complete cells r := by
  obtain ⟨head, body, tail, rfl, ho, hg, hs⟩ := definition_eq_complete h
  rw [List.append_assoc, List.append_assoc, definition, opening?_replace ho]
  simp only [group?_replace hg, toSemicolon?_replace hs, List.append_assoc]

/-! ### The statement so far -/

/-- What every run keeps about the statement so far. Before a group its cells are flat, and a
    group among them shows. -/
structure Statement.IsSound (s : Statement) : Prop where
  length_le : s.read.length ≤ s.stop
  flat : s.hasGroup = false → ∀ c ∈ s.read, c.IsFlat
  brace : s.hasGroup → ∃ c ∈ s.read, c.code = openBrace

theorem Statement.isSound_startingAt (n : Nat) : (Statement.startingAt n).IsSound :=
  ⟨Nat.zero_le _, fun _ => by simp [startingAt], fun h => absurd h Bool.false_ne_true⟩

theorem Statement.IsSound.append {s : Statement} (h : s.IsSound) {cs : List Cell}
    (hc : ∀ c ∈ cs, c.IsFlat) : (s.append cs).IsSound := by
  refine ⟨?_, fun hg c hm => ?_, fun hg => ?_⟩
  · have := h.length_le
    simp only [Statement.append, List.length_append, List.length_reverse]
    omega
  · rcases List.mem_append.1 hm with hm | hm
    · exact hc c (List.mem_reverse.1 hm)
    · exact h.flat hg c hm
  · obtain ⟨c, hm, hb⟩ := h.brace hg
    exact ⟨c, List.mem_append_right _ hm, hb⟩

theorem Step.stop_eq {s s' : Statement} {p rest : List Cell} {es : List Excerpt}
    (h : Step s p rest es s') : s'.stop = s.stop + p.length := by
  cases h <;> rfl

theorem Run.stop_eq {s s' : Statement} {p rest : List Cell} {es : List Excerpt}
    (h : Run s p rest es s') : s'.stop = s.stop + p.length := by
  induction h with
  | nil => rfl
  | step hs _ ih => rw [ih, hs.stop_eq, List.length_append, Nat.add_assoc]

/-- A step ends the statement, or it makes it longer by what it takes. -/
theorem Step.read_eq {s s' : Statement} {p rest : List Cell} {es : List Excerpt}
    (h : Step s p rest es s') : s'.read = [] ∨ s'.read = p.reverse ++ s.read := by
  cases h with
  | group => exact .inr rfl
  | word => exact .inr rfl
  | code => exact .inr rfl
  | _ => exact .inl rfl

theorem Step.isSound {s s' : Statement} {p rest : List Cell} {es : List Excerpt}
    (h : Step s p rest es s') (hs : s.IsSound) : s'.IsSound := by
  cases h with
  | @group c g _ hc =>
    refine ⟨?_, fun hg => absurd hg.symm Bool.false_ne_true, fun _ => ⟨c, by simp [Statement.pass,
      Statement.append], hc⟩⟩
    have := hs.length_le
    simp only [Statement.pass, Statement.append, List.length_append, List.length_reverse]
    omega
  | word hw => exact hs.append fun c hc => not_flat_of_word (hw.2 c hc)
  | code hc => exact hs.append (List.forall_mem_singleton.2 hc)
  | _ => exact Statement.isSound_startingAt _

theorem Run.isSound {s s' : Statement} {p rest : List Cell} {es : List Excerpt}
    (h : Run s p rest es s') (hs : s.IsSound) : s'.IsSound := by
  induction h with
  | nil => exact hs
  | step hstep _ ih => exact ih (hstep.isSound hs)

/-- The statement so far is the last that a run has taken. -/
theorem Run.read_suffix {s s' : Statement} {p rest : List Cell} {es : List Excerpt}
    (h : Run s p rest es s') : s'.read.reverse <:+ s.read.reverse ++ p := by
  induction h with
  | nil => simp
  | @step s t s' p q _ _ _ hstep _ ih =>
    refine ih.trans ?_
    rcases hstep.read_eq with h | h <;> rw [h]
    · exact ⟨s.read.reverse ++ p, by simp⟩
    · simp

/-- A step does not end inside a word. -/
theorem Step.parted {s s' : Statement} {p rest : List Cell} {es : List Excerpt}
    (h : Step s p rest es s') : ∀ c ∈ s'.read.head?, isWordByte c.code → ¬StartsWord rest := by
  cases h with
  | group hc hl hg hp =>
    -- A group ends in its brace.
    obtain ⟨front, last, rfl, hlast⟩ := exists_last_of_group hg
    intro c hm hw
    obtain rfl : last = c := by simpa [Statement.pass, Statement.append] using hm
    rw [hlast] at hw
    exact absurd hw (by decide)
  | word hw hr => exact fun _ _ _ => hr
  | @code c _ hc hw =>
    intro d hm hd
    obtain rfl := Option.some.inj hm
    rw [hw] at hd
    exact absurd hd (by decide)
  | _ => exact fun _ hm => absurd hm (by simp [Statement.startingAt])

/-! ### Whole fragments -/

/-- What may stand in front of the keyword of a definition and belong to it: nothing, or the word
    that makes it a type name, with blanks behind. -/
def IsLead (cs : List Cell) : Prop :=
  cs = [] ∨ ∃ w gap, cs = w ++ gap ∧ w.map Cell.code = encode "typedef" ∧ gap ≠ [] ∧
    ∀ c ∈ gap, c.isBlank

/-- Cells that are a fragment by themselves. -/
inductive Whole : DeclarationKind → List Cell → Prop
  | prototype {cs : List Cell} {last : Cell} (flat : ∀ c ∈ cs, c.IsFlat)
      (ends : last.code = semicolon) (shape : isPrototype (codeText (cs ++ [last]))) :
    Whole .prototype (cs ++ [last])
  | definition {lead w cells : List Cell} (isLead : IsLead lead) (isWord : IsWord w)
      (isKeyword : IsKeyword w) (parted : ¬StartsWord cells)
      (complete : definition cells = .complete cells []) :
    Whole .structOrEnum (lead ++ w ++ cells)

/-- What makes a definition a type name is one word, and maybe blanks. -/
theorem Statement.exists_of_isTypedef {s : Statement} (h : s.isTypedef) :
    ∃ w gap, s.head = w ++ gap ∧ w.map Cell.code = encode "typedef" ∧ ∀ c ∈ gap, c.isBlank := by
  rw [isTypedef, beq_iff_eq] at h
  have hbytes : Text.dropTail Text.isBlankByte (s.head.map Cell.code) = encode "typedef" :=
    (lossy_eq_iff (by simp)).1 h
  obtain ⟨tail, hcode, htail⟩ := exists_of_dropTail Text.isBlankByte (s.head.map Cell.code)
  rw [hbytes] at hcode
  obtain ⟨w, gap, hhead, hw, rfl⟩ := List.map_eq_append_iff.1 hcode
  exact ⟨w, gap, hhead, hw, fun c hc => htail _ (List.mem_map_of_mem hc)⟩

/-- A statement is this word if nothing but blanks follow it. -/
theorem Statement.isTypedef_iff {s : Statement} : s.isTypedef ↔
    ∃ w gap, s.head = w ++ gap ∧ w.map Cell.code = encode "typedef" ∧ ∀ c ∈ gap, c.isBlank := by
  refine ⟨s.exists_of_isTypedef, ?_⟩
  rintro ⟨w, gap, hhead, hw, hgap⟩
  have hb : ∀ b ∈ (gap.map Cell.code).reverse, Text.isBlankByte b := by
    intro b hb
    obtain ⟨c, hc, rfl⟩ := List.mem_map.1 (List.mem_reverse.1 hb)
    exact hgap c hc
  rw [Statement.isTypedef, hhead, List.map_append, Text.dropTail, List.reverse_append,
    List.dropWhile_append_of_pos hb, hw]
  decide

/-- Unless it is where a word goes on, there are blanks behind the word. -/
theorem Statement.isLead_lead {s : Statement} {rest : List Cell} (hrest : StartsWord rest)
    (hp : ∀ c ∈ s.read.head?, isWordByte c.code → ¬StartsWord rest) : IsLead s.lead := by
  rw [Statement.lead]
  split
  next ht =>
    obtain ⟨w, gap, hhead, hw, hgap⟩ := s.exists_of_isTypedef ht
    refine .inr ⟨w, gap, hhead, hw, ?_, hgap⟩
    -- Without blanks behind it, the word would go on in the keyword.
    rintro rfl
    obtain ⟨front, hfront⟩ := s.head_suffix
    have hlast : (w.getLast?.map Cell.code) = some 0x66 := by
      rw [← List.getLast?_map, hw]
      decide
    obtain ⟨c, hc, hcode⟩ := Option.map_eq_some_iff.1 hlast
    refine hp c ?_ (by rw [hcode]; decide) hrest
    rw [← List.getLast?_reverse, ← hfront, hhead, List.append_nil, List.getLast?_append, hc]
    rfl
  next => exact .inl rfl

theorem isWord_typedef {w : List Cell} (h : w.map Cell.code = encode "typedef") : IsWord w := by
  refine ⟨by rintro rfl; exact absurd h (by decide), fun c hc => ?_⟩
  have hmem : c.code ∈ encode "typedef" := h ▸ List.mem_map_of_mem hc
  exact List.all_eq_true.1 (show (encode "typedef").all isWordByte = true by decide) _ hmem

theorem Statement.isFlat_lead {s : Statement} : ∀ c ∈ s.lead, c.IsFlat := by
  rw [Statement.lead]
  split
  next ht =>
    obtain ⟨w, gap, hhead, hw, hgap⟩ := s.exists_of_isTypedef ht
    intro c hc
    rw [hhead, List.mem_append] at hc
    rcases hc with hc | hc
    · exact not_flat_of_word ((isWord_typedef hw).2 c hc)
    · exact isFlat_of_isBlank (hgap c hc)
  next => exact fun c hc => absurd hc List.not_mem_nil

/-- What a step finds is whole, and ends the statement. -/
theorem Step.whole {s s' : Statement} {p rest : List Cell} {es : List Excerpt}
    (h : Step s p rest es s') (hs : s.IsSound)
    (hp : ∀ c ∈ s.read.head?, isWordByte c.code → ¬StartsWord (p ++ rest)) :
    es = [] ∨ ∃ k gap mid, es = [⟨k, mid, s.stop + p.length - mid.length⟩] ∧
      Whole k mid ∧ gap ++ mid = s.read.reverse ++ p ∧ s'.read = [] := by
  cases h with
  | @semicolon c _ hc =>
    cases he : s.excerpt? c with
    | none => exact .inl rfl
    | some e =>
      obtain ⟨hg, hshape, rfl⟩ := Statement.eq_of_excerpt he
      obtain ⟨front, hfront⟩ := s.head_suffix
      have hflat : ∀ x ∈ s.head, x.IsFlat := fun x hx =>
        hs.flat hg x (List.mem_reverse.1 (s.head_suffix.subset hx))
      refine .inr ⟨_, front, s.head ++ [c], ?_, .prototype hflat hc hshape, ?_, rfl⟩
      · rw [Statement.headStart, List.length_append, List.length_singleton, Nat.add_sub_add_right]
        rfl
      · rw [← List.append_assoc, hfront]
  | @definition w cells _ hw hr hk hd =>
    obtain ⟨front, hfront⟩ := lead_suffix s
    have hstart : StartsWord ((w ++ cells) ++ rest) := by
      rw [List.append_assoc]
      exact hw.startsWord _
    refine .inr ⟨_, front, s.lead ++ w ++ cells, ?_, .definition (s.isLead_lead hstart hp) hw hk ?_
      (by simpa using definition_replace hd []), ?_, rfl⟩
    · simp only [List.append_assoc]
      have hlen : (s.lead ++ (w ++ cells)).length = s.lead.length + (w ++ cells).length :=
        List.length_append
      rw [hlen, Nat.add_sub_add_right]
    · exact mt (startsWord_append (ne_nil_of_complete hd) rest).2 hr
    · rw [List.append_assoc, ← List.append_assoc, Statement.lead, hfront]
  | _ => exact .inl rfl

/-- A whole fragment starts with a word. -/
theorem Whole.startsWord {k : DeclarationKind} {cs : List Cell} (h : Whole k cs) :
    StartsWord cs := by
  cases h with
  | prototype _ _ shape => exact startsWord_of_isPrototype shape
  | @definition lead w cells isLead isWord =>
    rw [List.append_assoc]
    rcases isLead with rfl | ⟨v, gap, rfl, hv, -⟩
    · exact isWord.startsWord _
    · rw [List.append_assoc]
      exact (isWord_typedef hv).startsWord _

theorem Whole.exists_last {k : DeclarationKind} {cs : List Cell} (h : Whole k cs) :
    ∃ front last, cs = front ++ [last] ∧ last.code = semicolon := by
  cases h with
  | prototype _ ends => exact ⟨_, _, rfl, ends⟩
  | definition _ _ _ _ complete =>
    obtain ⟨front, last, rfl, hl⟩ := (append_of_complete complete).2
    exact ⟨_, last, (List.append_assoc ..).symm, hl⟩

/-- No character spans an end of a whole fragment. -/
theorem Whole.isText {k : DeclarationKind} {cs after : List Cell} {p : List UInt8}
    (h : Whole k cs) (hs : ∀ c ∈ cs, c.IsSound) (ht : IsText (p ++ (cs ++ after).map Cell.raw)) :
    IsText p ∧ IsText (cs.map Cell.raw) ∧ IsText (after.map Cell.raw) := by
  rw [List.map_append] at ht
  obtain ⟨hp, hm⟩ := ht.split (h.startsWord.begins.startsFresh hs _)
  rw [← List.map_append] at hm
  obtain ⟨front, last, rfl, hl⟩ := h.exists_last
  exact ⟨hp, isText_of_ends hl (hs last (by simp)) hm⟩

/-! ### Whole fragments are found wherever they stand -/

/-- Idle code, flat and without a word, only makes the statement longer. -/
theorem run_idle {cs : List Cell} (h : ∀ c ∈ cs, c.IsFlat ∧ isWordByte c.code = false)
    (s : Statement) (rest : List Cell) : Run s cs rest [] (s.append cs) := by
  induction cs generalizing s with
  | nil => exact .nil
  | cons c cs ih =>
    rw [List.forall_mem_cons] at h
    rw [show s.append (c :: cs) = (s.append [c]).append cs from (s.append_append [c] cs).symm]
    exact .step (p := [c]) (.code h.1.1 h.1.2) (ih h.2 _)

theorem run_blanks {cs : List Cell} (h : ∀ c ∈ cs, c.isBlank) (s : Statement) (rest : List Cell) :
    Run s cs rest [] (s.append cs) :=
  run_idle (fun c hc => ⟨isFlat_of_isBlank (h c hc), not_word_of_isBlank (h c hc)⟩) s rest

/-- Flat code up to a cell that is neither blank nor part of a word nor a brace only makes the
    statement longer. -/
theorem run_flat {cs : List Cell} (h : ∀ c ∈ cs, c.IsFlat) {c : Cell} (rest : List Cell)
    (hc : c.code ≠ openBrace) (hb : c.isBlank = false) (hw : isWordByte c.code = false)
    (s : Statement) : Run s cs (c :: rest) [] (s.append cs) := by
  induction hn : cs.length using Nat.strongRecOn generalizing cs s with
  | _ n ih =>
  cases cs with
  | nil => exact .nil
  | cons x cs =>
    by_cases hx : isWordByte x.code
    · obtain ⟨w, ds, hwd, hword, hds⟩ := exists_word hx cs
      have hlen := congrArg List.length hwd
      have hpos := List.length_pos_iff.2 hword.1
      rw [List.length_append] at hlen
      have hflat : ∀ d ∈ ds, d.IsFlat := fun d hd => h d (hwd ▸ List.mem_append_right _ hd)
      have hr : ¬StartsWord (ds ++ c :: rest) := by
        cases ds with
        | nil => exact not_startsWord_cons hw rest
        | cons => exact hds
      rw [← hwd, ← s.append_append]
      exact .step (.word hword hr fun _ => definition_flat hflat rest hc hb hw)
        (ih _ (by omega) hflat _ rfl)
    · rw [Bool.not_eq_true] at hx
      rw [show s.append (x :: cs) = (s.append [x]).append cs from (s.append_append [x] cs).symm]
      exact .step (p := [x]) (.code (h x List.mem_cons_self) hx)
        (ih _ (by rw [List.length_cons] at hn; omega)
          (fun d hd => h d (List.mem_cons_of_mem _ hd)) _ rfl)

/-- The blanks and the word in front of a definition leave it to be read. -/
theorem run_lead {lead : List Cell} (h : IsLead lead) {s : Statement} (hs : s.IsFresh)
    (rest : List Cell) :
    Run s lead rest [] (s.append lead) ∧ (s.append lead).lead = lead := by
  rcases h with rfl | ⟨w, gap, rfl, hw, hne, hgap⟩
  · refine ⟨.nil, ?_⟩
    rw [Statement.lead, hs.head_append]
    exact ite_self _
  · have hword := isWord_typedef hw
    have hno : ¬StartsWord (gap ++ rest) := by
      obtain ⟨b, gap, rfl⟩ := List.exists_cons_of_ne_nil hne
      exact not_startsWord_cons (not_word_of_isBlank (hgap b List.mem_cons_self)) _
    have hcode : codeText w = "typedef" := by rw [codeText, hw, lossy_encode]
    constructor
    · rw [← s.append_append]
      refine .step (.word hword hno fun hk => ?_) (run_blanks hgap _ rest)
      rw [IsKeyword, hcode] at hk
      exact absurd hk (by decide)
    · have hhead : (s.append (w ++ gap)).head = w ++ gap := by
        obtain ⟨c, w, rfl⟩ := List.exists_cons_of_ne_nil hword.1
        have hc := isBlank_of_word (hword.2 c List.mem_cons_self)
        rw [hs.head_append, List.cons_append, List.dropWhile_cons_of_neg (by simp [hc])]
      have htype := Statement.isTypedef_iff.2 ⟨w, gap, hhead, hw, hgap⟩
      rw [Statement.lead, if_pos htype, hhead]

/-- A statement that starts with a prototype ends as one. -/
theorem Statement.IsFresh.excerpt?_append {s : Statement} (hs : s.IsFresh) {cs : List Cell}
    {last : Cell} (ends : last.code = semicolon) (shape : isPrototype (codeText (cs ++ [last]))) :
    (s.append cs).excerpt? last = some ⟨.prototype, cs ++ [last], s.stop⟩ := by
  obtain ⟨x, hx, hblank, -⟩ := (startsWord_of_isPrototype shape).begins
  cases cs with
  | nil =>
    -- A semicolon alone has no word in it.
    obtain ⟨y, hy, hw⟩ := exists_wordStart_of_isPrototype shape
    rw [codeText, List.nil_append, List.map_singleton, ends] at hy
    obtain rfl := Option.some.inj hy
    exact absurd hw (by decide)
  | cons c cs =>
    obtain rfl := Option.some.inj hx
    have hhead : (s.append (c :: cs)).head = c :: cs := by
      rw [hs.head_append, List.dropWhile_cons_of_neg (by simp [hblank])]
    have hstart : (s.append (c :: cs)).headStart = s.stop := by
      rw [Statement.headStart, hhead]
      exact Nat.add_sub_cancel ..
    have hgroup : ((s.append (c :: cs)).hasGroup || (s.append (c :: cs)).head.isEmpty) = false := by
      rw [hhead, List.isEmpty_cons, Bool.or_false]
      exact hs.1
    rw [Statement.excerpt?, if_neg (by rw [hgroup]; decide), hhead, if_pos shape, hstart]

/-- A whole fragment is found as it is, wherever a statement starts. -/
theorem Whole.run {k : DeclarationKind} {cs : List Cell} (h : Whole k cs) {s : Statement}
    (hs : s.IsFresh) (rest : List Cell) :
    Run s cs rest [⟨k, cs, s.stop⟩] (.startingAt (s.stop + cs.length)) := by
  cases h with
  | @prototype cs last flat ends shape =>
    have hrun := run_flat flat rest (c := last) (by rw [ends]; decide)
      (by rw [Cell.isBlank, ends]; decide) (by rw [ends]; decide) s
    have hstep : Run (s.append cs) [last] rest _ _ := (Step.semicolon ends).run
    rw [hs.excerpt?_append ends shape] at hstep
    have hstop : s.stop + (cs ++ [last]).length = (s.append cs).stop + 1 := by
      rw [List.length_append, List.length_singleton, ← Nat.add_assoc]
      rfl
    rw [hstop]
    exact hrun.append hstep
  | @definition lead w cells hlead hw hk hr hc =>
    obtain ⟨hrun, htaken⟩ := run_lead hlead hs (w ++ cells ++ rest)
    have hd := definition_replace hc rest
    have hno : ¬StartsWord (cells ++ rest) :=
      mt (startsWord_append (ne_nil_of_complete hc) rest).1 hr
    have hstep := (Step.definition (s := s.append lead) hw hno hk hd).run
    rw [htaken] at hstep
    have hstart : (s.append lead).stop - lead.length = s.stop := Nat.add_sub_cancel ..
    have hstop : s.stop + (lead ++ w ++ cells).length =
        (s.append lead).stop + (w ++ cells).length := by
      rw [List.append_assoc, List.length_append, ← Nat.add_assoc]
      rfl
    rw [hstart] at hstep
    rw [hstop, List.append_assoc]
    rw [List.append_assoc] at hstep
    exact hrun.append hstep

/-! ### All that a run finds is whole -/

/-- Excerpts that are whole fragments of cells, the first of which has an offset: a gap, a
    fragment, a gap, and so on. -/
inductive Row : Nat → List Cell → List Excerpt → Prop
  | nil {n : Nat} {cs : List Cell} : Row n cs []
  | cons {n : Nat} {k : DeclarationKind} {gap mid after : List Cell} {es : List Excerpt} :
    Whole k mid → Row (n + gap.length + mid.length) after es →
      Row n (gap ++ (mid ++ after)) (⟨k, mid, n + gap.length⟩ :: es)

theorem Row.skip {n m : Nat} {cs : List Cell} {es : List Excerpt} (gap : List Cell)
    (hm : m = n + gap.length) (h : Row m cs es) : Row n (gap ++ cs) es := by
  subst hm
  cases h with
  | nil => exact .nil
  | cons hw h =>
    rw [← List.append_assoc]
    have hplace : ∀ gap' : List Cell, n + gap.length + gap'.length = n + (gap ++ gap').length :=
      fun gap' => by rw [List.length_append, Nat.add_assoc]
    rw [hplace] at h ⊢
    exact .cons hw h

/-- A run finds whole fragments, in the cells of the statement so far and in those it takes. -/
theorem Run.row {s s' : Statement} {p rest : List Cell} {es : List Excerpt}
    (h : Run s p rest es s') (hs : s.IsSound)
    (hp : ∀ c ∈ s.read.head?, isWordByte c.code → ¬StartsWord (p ++ rest)) {n : Nat}
    (hn : s.stop = n + s.read.length) : Row n (s.read.reverse ++ p) es := by
  induction h generalizing n with
  | nil => exact .nil
  | @step s s' s'' p q rest es fs hstep hrun ih =>
    rw [List.append_assoc] at hp
    have hstop := hstep.stop_eq
    have hrest := @ih (hstep.isSound hs) hstep.parted
    rcases hstep.whole hs hp with rfl | ⟨k, gap, mid, rfl, hwhole, hmid, hread⟩
    · rw [List.nil_append]
      rcases hstep.read_eq with hread | hread
      · rw [← List.append_assoc]
        refine .skip (m := s'.stop) _ (by simp; omega) ?_
        have := @hrest s'.stop (by rw [hread]; rfl)
        rwa [hread] at this
      · have := @hrest n (by rw [hread, List.length_append, List.length_reverse]; omega)
        rwa [hread, List.reverse_append, List.reverse_reverse, List.append_assoc] at this
    · have hlen := congrArg List.length hmid
      rw [List.length_append, List.length_append, List.length_reverse] at hlen
      have hstart : s.stop + p.length - mid.length = n + gap.length := by omega
      have := @hrest s'.stop (by rw [hread]; rfl)
      rw [hread] at this
      rw [← List.append_assoc, ← hmid, List.append_assoc, hstart]
      exact .cons hwhole ((show s'.stop = n + gap.length + mid.length by omega) ▸ this)

theorem Row.whole_of_mem {n : Nat} {cs : List Cell} {es : List Excerpt} (h : Row n cs es) :
    ∀ e ∈ es, Whole e.kind e.cells := by
  induction h with
  | nil => simp
  | cons hw _ ih => exact List.forall_mem_cons.2 ⟨hw, ih⟩

/-- What a run from the start of a text finds is whole. -/
theorem Run.whole_of_mem {s : Statement} {p rest : List Cell} {es : List Excerpt}
    (h : Run (.startingAt 0) p rest es s) : ∀ e ∈ es, Whole e.kind e.cells :=
  (h.row (Statement.isSound_startingAt 0) (by simp [Statement.startingAt])
    (n := 0) rfl).whole_of_mem

end TestBench.Source
