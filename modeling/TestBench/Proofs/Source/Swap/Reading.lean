import TestBench.Proofs.Source.Seam
import TestBench.Proofs.Source.Spacing
import TestBench.Proofs.Source.Swap

/-!
# Reading over blanks

Two texts that differ in one stretch of blanks are read in step, provided that no block of C linkage
opens behind one of the stretches and not behind the other (`Interchangeable`). As long as the
stretch is still ahead, the same has been read in both (`Ahead`). Once it has been read it is part
of the statement so far (`Inside`), until the statement ends; from there on the same is read in
both, only that it stands further on in one of them.

So what is found differs at most in the stretch (`Excerpt.Swapped`), and it is found in the same
order (`Moves`).

* `Step.ahead`, `Step.inside`: a step is taken in both;
* `found_of_paired`: and so all that is found is found in both.
-/

namespace TestBench.Source

open Utf8

variable {xs xs' front u l l' : List Cell}

/-- Whether two stretches of blanks are as good as each other wherever they stand. -/
structure Interchangeable (xs xs' : List Cell) : Prop where
  isBlanks : IsBlanks xs
  isBlanks' : IsBlanks xs'
  linkage : ∀ {s s' : Statement} {u : List Cell}, Swap xs xs' u s.head s'.head →
    s'.opensLinkage = s.opensLinkage

/-! ### Places and fragments -/

/-- How offsets correspond, if `xs` stands behind `front` in one list and `xs'` in the other one: up
    to there they are the same, and beyond they are as far apart as the two are in length. -/
inductive Moves (xs xs' front : List Cell) : Nat → Nat → Prop
  | before {a : Nat} (h : a ≤ front.length) : Moves xs xs' front a a
  | behind {a b : Nat} (ha : front.length + xs.length ≤ a)
      (hb : a + xs'.length = b + xs.length) : Moves xs xs' front a b

theorem Moves.lt_iff {a b c d : Nat} (h : Moves xs xs' front a b) (h' : Moves xs xs' front c d)
    (hne : xs ≠ []) (hne' : xs' ≠ []) : a < c ↔ b < d := by
  have hpos := List.length_pos_iff.2 hne
  have hpos' := List.length_pos_iff.2 hne'
  cases h <;> cases h' <;> omega

/-- Whether excerpts are the same, or contain the stretch and differ in it. -/
inductive Excerpt.Swapped (xs xs' front : List Cell) : Excerpt → Excerpt → Prop
  | moved {kind : DeclarationKind} {cells : List Cell} {a b : Nat} (h : Moves xs xs' front a b) :
    Excerpt.Swapped xs xs' front ⟨kind, cells, a⟩ ⟨kind, cells, b⟩
  | across {kind : DeclarationKind} {cells cells' u : List Cell} {a : Nat}
      (h : Swap xs xs' u cells cells') (hu : u <:+ front) (ha : a + u.length = front.length) :
    Excerpt.Swapped xs xs' front ⟨kind, cells, a⟩ ⟨kind, cells', a⟩

/-- Whether a relation holds between declarations that are the same but for their place, and between
    those that contain the stretch and differ in it. -/
structure Relates (xs xs' front : List Cell) (R : Declaration → Declaration → Prop) : Prop where
  moved : ∀ {d d' : Declaration}, d'.kind = d.kind → d'.text = d.text →
    Moves xs xs' front d.order d'.order → R d d'
  declaration : ∀ {e e' : Excerpt}, e.Swapped xs xs' front e' → R e.declaration e'.declaration
  trimmed : ∀ {e e' : Excerpt}, e.Swapped xs xs' front e' → R e.trimmed e'.trimmed

/-! ### Statements with the stretch among their cells -/

/-- What comes first in the head of a statement is not blank. -/
theorem Statement.isBlank_head (s : Statement) : ∀ c ∈ s.head.head?, c.isBlank = false := by
  intro c hc
  have := List.head?_dropWhile_not Cell.isBlank s.read.reverse
  rw [show (s.read.reverse.dropWhile Cell.isBlank).head? = some c from hc] at this
  simpa using this

theorem Statement.head_append_of_ne_nil {s : Statement} (h : s.head ≠ []) (cs : List Cell) :
    (s.append cs).head = s.head ++ cs := by
  obtain ⟨c, rest, hhead⟩ := List.exists_cons_of_ne_nil h
  have hc := s.isBlank_head c (by rw [hhead]; rfl)
  rw [head_append, hhead, List.cons_append, List.dropWhile_cons_of_neg (by simp [hc])]

theorem Statement.head_append_cons (s : Statement) {c : Cell} (hc : c.isBlank = false)
    (cs : List Cell) : (s.append (c :: cs)).head = s.head ++ c :: cs := by
  by_cases hhead : s.head = []
  · rw [head_append, hhead, List.nil_append, List.dropWhile_cons_of_neg (by simp [hc])]
  · exact head_append_of_ne_nil hhead _

/-- Blanks as code are read as a gap. -/
theorem exists_gap (h : IsBlanks xs) : ∃ gap, IsGap gap ∧
    ∀ p q, lossyFrom .between (p ++ (xs.map Cell.code ++ q)) =
      lossyFrom .between p ++ (gap ++ lossyFrom .between q) := by
  have hblank : ∀ b ∈ xs.map Cell.code, b < 0x80 ∧ Header.isSpace (Char.ofNat b.toNat) := by
    intro b hb
    obtain ⟨c, hc, rfl⟩ := List.mem_map.1 hb
    have hc := h.2 c hc
    simp only [Cell.isBlank, Text.isBlankByte, Bool.or_eq_true, beq_iff_eq] at hc
    rcases hc with (((hc | hc) | hc) | hc) | hc <;> rw [hc] <;> decide
  have hne : xs.map Cell.code ≠ [] := by simpa using h.1
  refine ⟨_, ⟨?_, ?_⟩, fun p q => lossyFrom_append_ascii (fun b hb => (hblank b hb).1) hne p q⟩
  · simpa using hne
  · intro c hc
    obtain ⟨b, hb, rfl⟩ := List.mem_map.1 hc
    exact (hblank b hb).2

/-- Whether a prototype is found does not depend on the stretch in it. -/
theorem Swap.isPrototype_eq (h : Swap xs xs' u l l') (hxs : IsBlanks xs) (hxs' : IsBlanks xs') :
    isPrototype (codeText l) = isPrototype (codeText l') := by
  obtain ⟨v, rfl, rfl⟩ := h.exists_parts
  obtain ⟨gap, hgap, hread⟩ := exists_gap hxs
  obtain ⟨gap', hgap', hread'⟩ := exists_gap hxs'
  rw [codeText, codeText, List.map_append, List.map_append, List.map_append, List.map_append, lossy,
    lossy, hread, hread']
  exact ((Respaced.refl _).append (.gap hgap hgap' (.refl _))).isPrototype_eq

/-- What the code ends in does not depend on the stretch in it. -/
theorem Swap.last_eq (h : Swap xs xs' u l l') (hxs : IsBlanks xs) (hxs' : IsBlanks xs') :
    (l.reverse.dropWhile Cell.isBlank).head? = (l'.reverse.dropWhile Cell.isBlank).head? := by
  obtain ⟨v, rfl, rfl⟩ := h.exists_parts
  have hcut : ∀ {xs}, IsBlanks xs → ((u ++ (xs ++ v)).reverse.dropWhile Cell.isBlank).head? =
      (v.reverse.find? (!Cell.isBlank ·)).or (u.reverse.find? (!Cell.isBlank ·)) := by
    intro xs h
    have hnone : xs.reverse.find? (!Cell.isBlank ·) = none :=
      List.find?_eq_none.2 fun c hc => by simp [h.2 c (List.mem_reverse.1 hc)]
    rw [← List.find?_not_eq_head?_dropWhile, List.reverse_append, List.reverse_append,
      List.find?_append, List.find?_append, hnone, Option.or_none]
  rw [hcut hxs, hcut hxs']

/-- Behind the word that makes a definition a type name, it is as good as any blanks. -/
theorem Swap.isTypedef {s s' : Statement} (h : Swap xs xs' u s.head s'.head) (hxs : IsBlanks xs)
    (hxs' : IsBlanks xs') (ht : s.isTypedef) : s'.isTypedef := by
  obtain ⟨w, gap, hhead, hw, hgap⟩ := Statement.isTypedef_iff.1 ht
  rw [hhead] at h
  obtain ⟨m, gap', -, hhead', hrest⟩ := h.exists_behind_word hxs (isWord_typedef hw).2
  exact Statement.isTypedef_iff.2 ⟨w, gap', hhead', hw, hrest.all_isBlank hxs' hgap⟩

/-- Statements that have read the same but for the stretch, which is among the cells of both. -/
structure Inside (xs xs' front : List Cell) (s s' : Statement) : Prop where
  hasGroup : s'.hasGroup = s.hasGroup
  head : ∃ u, Swap xs xs' u s.head s'.head ∧ u <:+ front ∧
    s.stop + u.length = front.length + s.head.length
  stop : s.stop + xs'.length = s'.stop + xs.length

namespace Inside

variable {s s' : Statement} (h : Inside xs xs' front s s')
include h

/-- The other statement starts where this one does. -/
theorem exists_start : ∃ u, Swap xs xs' u s.head s'.head ∧ u <:+ front ∧
    s.stop - s.head.length + u.length = front.length ∧
      s'.stop - s'.head.length = s.stop - s.head.length := by
  obtain ⟨u, hswap, hu, hstop⟩ := h.head
  have hlen := hswap.length_eq
  have hle := hu.length_le
  have hother := h.stop
  exact ⟨u, hswap, hu, by omega, by omega⟩

/-- All that comes next is further on than the stretch. -/
theorem moves : Moves xs xs' front s.stop s'.stop := by
  obtain ⟨u, hswap, hu, hstop⟩ := h.head
  have hlen := hswap.le_length
  have hle := hu.length_le
  exact .behind (by omega) h.stop

section Interchanged

variable (hx : Interchangeable xs xs')
include hx

theorem append (cs : List Cell) : Inside xs xs' front (s.append cs) (s'.append cs) := by
  obtain ⟨u, hswap, hu, hstop⟩ := h.head
  have hhead : (s.append cs).head = s.head ++ cs :=
    Statement.head_append_of_ne_nil (hswap.ne_nil hx.isBlanks) cs
  have hhead' : (s'.append cs).head = s'.head ++ cs :=
    Statement.head_append_of_ne_nil (hswap.symm.ne_nil hx.isBlanks') cs
  have hother := h.stop
  refine ⟨h.hasGroup, ⟨u, ?_, hu, ?_⟩, ?_⟩
  · rw [hhead, hhead']
    exact hswap.append_right cs
  · rw [hhead, List.length_append]
    simp only [Statement.append]
    omega
  · simp only [Statement.append]
    omega

theorem pass (cs : List Cell) : Inside xs xs' front (s.pass cs) (s'.pass cs) :=
  ⟨rfl, (h.append hx cs).head, (h.append hx cs).stop⟩

theorem opensLinkage : s'.opensLinkage = s.opensLinkage := by
  obtain ⟨u, hswap, -, -⟩ := h.head
  exact hx.linkage hswap

theorem endsInParen : s'.endsInParen = s.endsInParen := by
  obtain ⟨u, hswap, -, -⟩ := h.head
  rw [Statement.endsInParen_eq, Statement.endsInParen_eq, hswap.last_eq hx.isBlanks hx.isBlanks']

theorem isTypedef : s'.isTypedef = s.isTypedef := by
  obtain ⟨u, hswap, -, -⟩ := h.head
  rw [Bool.eq_iff_iff]
  exact ⟨hswap.symm.isTypedef hx.isBlanks' hx.isBlanks,
    hswap.isTypedef hx.isBlanks hx.isBlanks'⟩

/-- A definition behind the word that makes it a type name, or behind the stretch. -/
theorem fragment (cs : List Cell) (kind : DeclarationKind) :
    Excerpt.Swapped xs xs' front ⟨kind, s.lead ++ cs, s.stop - s.lead.length⟩
      ⟨kind, s'.lead ++ cs, s'.stop - s'.lead.length⟩ := by
  rw [Statement.lead, Statement.lead, h.isTypedef hx]
  split
  · obtain ⟨u, hswap, hu, hstart, hsame⟩ := h.exists_start
    rw [hsame]
    exact .across (hswap.append_right cs) hu hstart
  · exact .moved h.moves

theorem excerpt? (c : Cell) : List.Forall₂ (Excerpt.Swapped xs xs' front) (s.excerpt? c).toList
    (s'.excerpt? c).toList := by
  obtain ⟨u, hswap, hu, hstart, hsame⟩ := h.exists_start
  have hne := hswap.ne_nil hx.isBlanks
  have hne' := hswap.symm.ne_nil hx.isBlanks'
  have hempty : s'.head.isEmpty = s.head.isEmpty := by
    rw [List.isEmpty_eq_false_iff.2 hne, List.isEmpty_eq_false_iff.2 hne']
  have hcells := hswap.append_right [c]
  rw [Statement.excerpt?, Statement.excerpt?, h.hasGroup, hempty,
    hcells.isPrototype_eq hx.isBlanks hx.isBlanks']
  split
  · exact .nil
  · split
    · rw [Statement.headStart, Statement.headStart, hsame]
      exact .cons (.across hcells hu hstart) .nil
    · exact .nil

end Interchanged

end Inside

/-! ### Statements in front of the stretch and behind it -/

/-- Whether a statement has come up to cells `u` that end where the stretch starts. -/
structure Ahead (front : List Cell) (s : Statement) (u : List Cell) : Prop where
  suffix : s.read.reverse ++ u <:+ front
  stop : s.stop + u.length = front.length

/-- Statements and the cells that follow them, where the two texts are read in step: in front of
    the stretch, with the stretch among the cells of the statement, or at the start of another one
    behind it. -/
inductive Paired (xs xs' front : List Cell) :
    Statement → List Cell → Statement → List Cell → Prop
  | ahead {s : Statement} {u l l' : List Cell} (h : Ahead front s u) (hs : Swap xs xs' u l l') :
    Paired xs xs' front s l s l'
  | inside {s s' : Statement} {l : List Cell} (h : Inside xs xs' front s s') :
    Paired xs xs' front s l s' l
  | behind {s s' : Statement} {l : List Cell} (h : s.IsFresh) (h' : s'.IsFresh)
      (hle : front.length + xs.length ≤ s.stop)
      (hstop : s.stop + xs'.length = s'.stop + xs.length) :
    Paired xs xs' front s l s' l

/-- Where a statement with the stretch among its cells ends, the next one starts behind it. -/
theorem Inside.ends {s s' : Statement} (h : Inside xs xs' front s s') (k : Nat) (l : List Cell) :
    Paired xs xs' front (.startingAt (s.stop + k)) l (.startingAt (s'.stop + k)) l := by
  have hstop := h.stop
  obtain ⟨u, hswap, hu, hstart⟩ := h.head
  have hle := hswap.le_length
  have hfront := hu.length_le
  refine .behind (Statement.isFresh_startingAt _) (Statement.isFresh_startingAt _) ?_ ?_ <;>
    simp only [Statement.startingAt] <;> omega

namespace Ahead

variable {s t : Statement} {p p' rest rest' : List Cell} {es : List Excerpt}

/-- A step over cells in front of the stretch. -/
theorem step (ha : Ahead front s (p ++ u)) (h : Step s p rest es t) : Ahead front t u := by
  refine ⟨?_, ?_⟩
  · rcases h.read_eq with hread | hread <;> rw [hread]
    · exact ((List.suffix_append p u).trans (List.suffix_append _ _)).trans ha.suffix
    · rw [List.reverse_append, List.reverse_reverse, List.append_assoc]
      exact ha.suffix
  · have := ha.stop
    rw [List.length_append] at this
    rw [h.stop_eq]
    omega

/-- A step over the stretch that ends the statement. -/
theorem behind (ha : Ahead front s u) (h : Swap xs xs' u p p') (l : List Cell) :
    Paired xs xs' front (.startingAt (s.stop + p.length)) l (.startingAt (s.stop + p'.length))
      l := by
  have hstop := ha.stop
  have hle := h.le_length
  have hlen := h.length_eq
  refine .behind (Statement.isFresh_startingAt _) (Statement.isFresh_startingAt _) ?_ ?_
  · simp only [Statement.startingAt]
    omega
  · simp only [Statement.startingAt]
    omega

/-- What was read of the statement comes last in front of the stretch. -/
theorem head_suffix (ha : Ahead front s u) : s.head ++ u <:+ front := by
  obtain ⟨gap, hgap⟩ := s.head_suffix
  refine List.IsSuffix.trans ⟨gap, ?_⟩ ha.suffix
  rw [← List.append_assoc, hgap]

theorem lead_suffix (ha : Ahead front s u) : s.lead ++ u <:+ front := by
  rw [Statement.lead]
  split
  · exact ha.head_suffix
  · exact (List.suffix_append _ _).trans ha.suffix

/-- A definition with the stretch in it. -/
theorem fragment (ha : Ahead front s u) (h : Swap xs xs' u p p') (kind : DeclarationKind) :
    Excerpt.Swapped xs xs' front ⟨kind, s.lead ++ p, s.stop - s.lead.length⟩
      ⟨kind, s.lead ++ p', s.stop - s.lead.length⟩ := by
  have hstop := ha.stop
  have hle := ha.lead_suffix.length_le
  rw [List.length_append] at hle
  refine .across (h.append_left s.lead) ha.lead_suffix ?_
  rw [List.length_append]
  omega

/-- A step over the stretch that makes the statement longer. -/
theorem inside (ha : Ahead front s u) (h : Swap xs xs' u p p')
    (hhead : (s.append p).head = s.head ++ p) (hhead' : (s.append p').head = s.head ++ p') :
    Inside xs xs' front (s.append p) (s.append p') := by
  have hstop := ha.stop
  have hlen := h.length_eq
  refine ⟨rfl, ⟨s.head ++ u, ?_, ha.head_suffix, ?_⟩, ?_⟩
  · rw [hhead, hhead']
    exact h.append_left s.head
  · rw [hhead]
    simp only [Statement.append, List.length_append]
    omega
  · simp only [Statement.append]
    omega

end Ahead

/-- What a step finds starts where it does, or before. -/
theorem Step.start_le {s t : Statement} {p rest : List Cell} {es : List Excerpt}
    (h : Step s p rest es t) : ∀ e ∈ es, e.start ≤ s.stop := by
  intro e he
  cases h with
  | semicolon =>
    obtain ⟨-, -, rfl⟩ := Statement.eq_of_excerpt (Option.mem_toList.1 he)
    exact Nat.sub_le _ _
  | definition =>
    obtain rfl := List.mem_singleton.1 he
    exact Nat.sub_le _ _
  | _ => cases he

/-- A step in front of the stretch is the same in both texts, if it is one. -/
theorem Ahead.same {s t : Statement} {p rest rest' : List Cell} {es : List Excerpt}
    (ha : Ahead front s (p ++ u)) (h : Step s p rest es t) (h' : Step s p rest' es t)
    (hrest : Swap xs xs' u rest rest') : ∃ q after es' t', p ++ rest' = q ++ after ∧
      Step s q after es' t' ∧ List.Forall₂ (Excerpt.Swapped xs xs' front) es es' ∧
        Paired xs xs' front t rest t' after := by
  refine ⟨p, rest', es, t, rfl, h', List.forall₂_same.2 fun e he => ?_, .ahead (ha.step h) hrest⟩
  have hstop := ha.stop
  have hle := h.start_le e he
  exact .moved (.before (by omega))

theorem Swap.exists_cons {c : Cell} (h : Swap xs xs' u (c :: l) l') (hu : u ≠ []) :
    ∃ m rest, u = c :: m ∧ l' = c :: rest ∧ Swap xs xs' m l rest := by
  generalize hl : c :: l = cs at h
  cases h with
  | here => exact absurd rfl hu
  | later d h =>
    obtain ⟨rfl, rfl⟩ := List.cons.inj hl
    exact ⟨_, _, rfl, rfl, h⟩

section Blanks

variable (hxs : IsBlanks xs) (hxs' : IsBlanks xs')
include hxs hxs'

theorem Swap.exists_group {g rest : List Cell} (h : Swap xs xs' u (g ++ rest) l')
    (hg : Source.group? 0 (g ++ rest) = some (g, rest)) :
    ∃ g' rest', l' = g' ++ rest' ∧ Source.group? 0 (g' ++ rest') = some (g', rest') ∧
      CutSwap xs xs' u (g, rest) (g', rest') := by
  have hcut := h.group? hxs hxs' 0
  rw [hg] at hcut
  generalize hg' : Source.group? 0 l' = found at hcut
  cases hcut with
  | @some _ cut hcut =>
    obtain rfl := append_of_group hg'
    exact ⟨cut.1, cut.2, rfl, hg', hcut⟩

theorem Swap.exists_definition {g rest : List Cell} (h : Swap xs xs' u (g ++ rest) l')
    (hd : Source.definition (g ++ rest) = .complete g rest) :
    ∃ g' rest', l' = g' ++ rest' ∧ Source.definition (g' ++ rest') = .complete g' rest' ∧
      CutSwap xs xs' u (g, rest) (g', rest') := by
  have hcut := h.definition hxs hxs'
  rw [hd] at hcut
  generalize hd' : Source.definition l' = found at hcut
  cases hcut with
  | @complete _ g' _ rest' hcut =>
    obtain ⟨rfl, -⟩ := append_of_complete hd'
    exact ⟨g', rest', rfl, hd', hcut⟩

end Blanks

/-! ### Steps -/

section Steps

variable (hx : Interchangeable xs xs') {s s' t : Statement} {p rest : List Cell} {es : List Excerpt}
include hx

/-- A step that does not start at the stretch is taken in both texts. -/
theorem Step.ahead (h : Step s p rest es t) (ha : Ahead front s u) (hu : u ≠ [])
    (hswap : Swap xs xs' u (p ++ rest) l') :
    ∃ p' rest' es' t', l' = p' ++ rest' ∧ Step s p' rest' es' t' ∧
      List.Forall₂ (Excerpt.Swapped xs xs' front) es es' ∧ Paired xs xs' front t rest t' rest' := by
  have hstep := h
  cases h with
  | semicolon hc =>
    obtain ⟨m, rest', rfl, rfl, hrest⟩ := hswap.exists_cons hu
    exact ha.same hstep (.semicolon hc) hrest
  | linkage hc hl =>
    obtain ⟨m, rest', rfl, rfl, hrest⟩ := hswap.exists_cons hu
    exact ha.same hstep (.linkage hc hl) hrest
  | close hc =>
    obtain ⟨m, rest', rfl, rfl, hrest⟩ := hswap.exists_cons hu
    exact ha.same hstep (.close hc) hrest
  | code hc hw =>
    obtain ⟨m, rest', rfl, rfl, hrest⟩ := hswap.exists_cons hu
    exact ha.same hstep (.code hc hw) hrest
  | word hw hr hk =>
    obtain ⟨m, rest', rfl, rfl, hrest⟩ := hswap.exists_behind_word hx.isBlanks hw.2
    have hstarts := hrest.startsWord_iff hx.isBlanks hx.isBlanks'
    refine ha.same hstep (.word hw (mt hstarts.2 hr) fun hkey => ?_) hrest
    -- A keyword without a definition behind it has none in the other text either.
    have hdef := hrest.definition hx.isBlanks hx.isBlanks'
    rw [hk hkey] at hdef
    generalize Source.definition rest' = d at hdef
    cases hdef
    rfl
  | @body c g _ hc hl hg hp =>
    obtain ⟨m, after, rfl, rfl, hafter⟩ := hswap.exists_cons hu
    obtain ⟨g', rest', rfl, hg', hcut⟩ := hafter.exists_group hx.isBlanks hx.isBlanks' hg
    cases hcut with
    | ahead hrest => exact ha.same hstep (.body hc hl hg' hp) hrest
    | inside hgroup =>
      exact ⟨c :: g', rest, _, _, rfl, .body hc hl hg' hp, .nil, ha.behind (hgroup.later c) rest⟩
  | @group c g _ hc hl hg hp =>
    obtain ⟨m, after, rfl, rfl, hafter⟩ := hswap.exists_cons hu
    obtain ⟨g', rest', rfl, hg', hcut⟩ := hafter.exists_group hx.isBlanks hx.isBlanks' hg
    cases hcut with
    | ahead hrest => exact ha.same hstep (.group hc hl hg' hp) hrest
    | inside hgroup =>
      have hblank : c.isBlank = false := by
        rw [Cell.isBlank, hc]
        decide
      have hin := ha.inside (hgroup.later c) (s.head_append_cons hblank g)
        (s.head_append_cons hblank g')
      exact ⟨c :: g', rest, _, _, rfl, .group hc hl hg' hp, .nil, .inside ⟨rfl, hin.head, hin.stop⟩⟩
  | @definition w cells _ hw hr hk hd =>
    rw [List.append_assoc] at hswap
    obtain ⟨m, after, rfl, rfl, hafter⟩ := hswap.exists_behind_word hx.isBlanks hw.2
    obtain ⟨cells', rest', rfl, hd', hcut⟩ :=
      hafter.exists_definition hx.isBlanks hx.isBlanks' hd
    have hr' := mt (hafter.startsWord_iff hx.isBlanks hx.isBlanks').2 hr
    rw [← List.append_assoc]
    cases hcut with
    | ahead hrest =>
      rw [← List.append_assoc] at ha
      exact ha.same hstep (.definition hw hr' hk hd') hrest
    | inside hcells =>
      have hwhole := hcells.append_left w
      refine ⟨w ++ cells', rest, _, _, rfl, .definition hw hr' hk hd', .cons ?_ .nil,
        ha.behind hwhole rest⟩
      rw [List.append_assoc, List.append_assoc]
      exact ha.fragment hwhole .structOrEnum

/-- Reading that does not stop at the stretch stops in both texts. -/
theorem Stop.ahead {fs : List Excerpt} {w : Option Warning} (h : Stop s l fs w)
    (ha : Ahead front s u) (hu : u ≠ []) (hswap : Swap xs xs' u l l') :
    ∃ fs' w', Stop s l' fs' w' ∧ List.Forall₂ (Excerpt.Swapped xs xs' front) fs fs' := by
  cases h with
  | done => exact absurd rfl (hswap.ne_nil hx.isBlanks)
  | unbalanced hc hl hg =>
    obtain ⟨m, after, rfl, rfl, hafter⟩ := hswap.exists_cons hu
    have hcut := hafter.group? hx.isBlanks hx.isBlanks' 0
    rw [hg] at hcut
    generalize hg' : Source.group? 0 after = cut at hcut
    cases hcut
    exact ⟨_, _, .unbalanced hc hl hg', .nil⟩
  | @unterminated w rest hw hr hk hd =>
    obtain ⟨m, after, rfl, rfl, hafter⟩ := hswap.exists_behind_word hx.isBlanks hw.2
    have hdef := hafter.definition hx.isBlanks hx.isBlanks'
    rw [hd] at hdef
    generalize hd' : Source.definition after = d at hdef
    cases hdef
    have hr' := mt (hafter.startsWord_iff hx.isBlanks hx.isBlanks').2 hr
    refine ⟨_, _, .unterminated hw hr' hk hd', .cons ?_ .nil⟩
    rw [List.append_assoc, List.append_assoc]
    exact ha.fragment hswap .structOrEnum

/-- A step with the stretch among the cells of the statement is taken in both texts. -/
theorem Step.inside (h : Step s p rest es t) (hi : Inside xs xs' front s s') :
    ∃ es' t', Step s' p rest es' t' ∧ List.Forall₂ (Excerpt.Swapped xs xs' front) es es' ∧
      Paired xs xs' front t rest t' rest := by
  have hlinkage := hi.opensLinkage hx
  cases h with
  | @semicolon c _ hc => exact ⟨_, _, .semicolon hc, hi.excerpt? hx c, hi.ends 1 rest⟩
  | linkage hc hl => exact ⟨_, _, .linkage hc (hlinkage.trans hl), .nil, hi.ends 1 rest⟩
  | body hc hl hg hp =>
    exact ⟨_, _, .body hc (hlinkage.trans hl) hg ((hi.endsInParen hx).trans hp), .nil,
      hi.ends _ rest⟩
  | group hc hl hg hp =>
    exact ⟨_, _, .group hc (hlinkage.trans hl) hg ((hi.endsInParen hx).trans hp), .nil,
      .inside (hi.pass hx _)⟩
  | close hc => exact ⟨_, _, .close hc, .nil, hi.ends 1 rest⟩
  | @definition w cells _ hw hr hk hd =>
    refine ⟨_, _, .definition hw hr hk hd, .cons ?_ .nil, hi.ends _ rest⟩
    rw [List.append_assoc, List.append_assoc]
    exact hi.fragment hx (w ++ cells) .structOrEnum
  | word hw hr hk => exact ⟨_, _, .word hw hr hk, .nil, .inside (hi.append hx p)⟩
  | @code c _ hc hw => exact ⟨_, _, .code hc hw, .nil, .inside (hi.append hx [c])⟩

theorem Stop.inside {fs : List Excerpt} {w : Option Warning} (h : Stop s l fs w)
    (hi : Inside xs xs' front s s') :
    ∃ fs' w', Stop s' l fs' w' ∧ List.Forall₂ (Excerpt.Swapped xs xs' front) fs fs' := by
  cases h with
  | done => exact ⟨_, _, .done, .nil⟩
  | unbalanced hc hl hg => exact ⟨_, _, .unbalanced hc ((hi.opensLinkage hx).trans hl) hg, .nil⟩
  | @unterminated w rest hw hr hk hd =>
    refine ⟨_, _, .unterminated hw hr hk hd, .cons ?_ .nil⟩
    rw [List.append_assoc, List.append_assoc]
    exact hi.fragment hx (w ++ rest) .structOrEnum

end Steps

/-! ### Reading -/

section Reading

variable (hx : Interchangeable xs xs') {s s' : Statement}
include hx

/-- With the stretch next, it becomes part of the statement, unless it is one of the blanks in front
    of that. -/
theorem Ahead.paired (ha : Ahead front s []) (hs : s.IsSound) (v : List Cell) :
    Paired xs xs' front (s.append xs) v (s.append xs') v := by
  have hstop := ha.stop
  by_cases hhead : s.head = []
  · have hfresh : s.IsFresh := by
      have hblank : s.IsBlank := fun c hc =>
        List.dropWhile_eq_nil_iff.1 hhead c (List.mem_reverse.2 hc)
      exact hblank.isFresh hs
    refine .behind (hfresh.append hx.isBlanks.2) (hfresh.append hx.isBlanks'.2) ?_ ?_ <;>
      simp only [Statement.append, List.length_nil] at hstop ⊢ <;> omega
  · have hswap : Swap xs xs' [] xs xs' := by
      have h : Swap xs xs' [] (xs ++ []) (xs' ++ []) := .here []
      rwa [List.append_nil, List.append_nil] at h
    exact .inside (ha.inside hswap (Statement.head_append_of_ne_nil hhead xs)
      (Statement.head_append_of_ne_nil hhead xs'))

variable {R : Declaration → Declaration → Prop} (hR : Relates xs xs' front R)
include hR

/-- What is found where the two texts are read in step is the same, or contains the stretch and
    differs in it. -/
theorem found_of_paired (h : Paired xs xs' front s l s' l') (hs : s.IsSound)
    (blocks blocks' : Nat) :
    List.Forall₂ R (readFrom s blocks l).found (readFrom s' blocks' l').found := by
  induction hn : l.length using Nat.strongRecOn generalizing s s' l l' blocks blocks' with
  | _ n ih =>
  -- A step in both texts, and then the rest.
  have hstep : ∀ {t t' p p' rest rest' es es'}, l = p ++ rest → l' = p' ++ rest' → p ≠ [] →
      Step s p rest es t → Step s' p' rest' es' t' →
      List.Forall₂ (Excerpt.Swapped xs xs' front) es es' → Paired xs xs' front t rest t' rest' →
      List.Forall₂ R (readFrom s blocks l).found (readFrom s' blocks' l').found := by
    rintro t t' p p' rest rest' es es' rfl rfl hp hstep hstep' hes hpaired
    obtain ⟨b, hfound, -⟩ := found_of_step hstep blocks
    obtain ⟨b', hfound', -⟩ := found_of_step hstep' blocks'
    have hlen := List.length_pos_iff.2 hp
    rw [List.length_append] at hn
    rw [hfound, hfound']
    refine List.rel_append ?_ (ih rest.length (by omega) hpaired (hstep.isSound hs) b b' rfl)
    exact List.forall₂_map_left_iff.2 (List.forall₂_map_right_iff.2
      (hes.imp fun _ _ h => hR.declaration h))
  have hstop : ∀ {fs fs' w w'}, Stop s l fs w → Stop s' l' fs' w' →
      List.Forall₂ (Excerpt.Swapped xs xs' front) fs fs' →
      List.Forall₂ R (readFrom s blocks l).found (readFrom s' blocks' l').found := by
    intro fs fs' w w' hstop hstop' hfs
    rw [(found_of_stop hstop blocks).1, (found_of_stop hstop' blocks').1]
    exact List.forall₂_map_left_iff.2 (List.forall₂_map_right_iff.2
      (hfs.imp fun _ _ h => hR.trimmed h))
  cases h with
  | behind hfresh hfresh' hle hmove =>
    rw [found_of_fresh hfresh, found_of_fresh hfresh']
    refine List.forall₂_map_left_iff.2 (List.forall₂_map_right_iff.2 (List.forall₂_same.2 ?_))
    intro d _
    refine hR.moved rfl rfl (.behind ?_ ?_) <;> simp only [Declaration.shift] <;> omega
  | inside hi =>
    rcases exists_step_or_stop s l with ⟨p, rest, es, t, hl, hp, h⟩ | ⟨fs, w, h⟩
    · subst hl
      obtain ⟨es', t', h', hes, hpaired⟩ := h.inside hx hi
      exact hstep rfl rfl hp h h' hes hpaired
    · obtain ⟨fs', w', h', hfs⟩ := h.inside hx hi
      exact hstop h h' hfs
  | @ahead u _ _ ha hswap =>
    by_cases hu : u = []
    · subst hu
      obtain ⟨v, rfl, rfl⟩ := hswap.exists_parts
      have hlen := List.length_pos_iff.2 hx.isBlanks.1
      simp only [List.nil_append, List.length_append] at hn ⊢
      rw [readFrom_blanks hx.isBlanks.2, readFrom_blanks hx.isBlanks'.2]
      exact ih v.length (by omega) (ha.paired hx hs v) (hs.append hx.isBlanks.isFlat) blocks blocks'
        rfl
    rcases exists_step_or_stop s l with ⟨p, rest, es, t, hl, hp, h⟩ | ⟨fs, w, h⟩
    · subst hl
      obtain ⟨p', rest', es', t', rfl, h', hes, hpaired⟩ := h.ahead hx ha hu hswap
      exact hstep rfl rfl hp h h' hes hpaired
    · obtain ⟨fs', w', h', hfs⟩ := h.ahead hx ha hu hswap
      exact hstop h h' hfs

/-- So all that is found in two texts that differ in one stretch of blanks differs at most in it. -/
theorem found_of_swap (rest : List Cell) :
    List.Forall₂ R (read (front ++ (xs ++ rest))).found (read (front ++ (xs' ++ rest))).found := by
  have ha : Ahead front (.startingAt 0) front := ⟨List.suffix_refl _, Nat.zero_add _⟩
  exact found_of_paired hx hR (.ahead ha (.of_parts front rest))
    (Statement.isSound_startingAt 0) 0 0

end Reading

end TestBench.Source
