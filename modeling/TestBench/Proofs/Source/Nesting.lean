import TestBench.Proofs.Source.Extraction
import TestBench.Proofs.Source.Whole

/-!
# Nesting

Closing braces too many are passed and stray ones end a statement, so that the braces of a text
need not match. What holds all the same is that every brace which a step takes is closed among the
cells of that step (`IsMatched`), unless it opens a block of C linkage (`Step.isMatched`). So a
fragment stands behind whole groups only, and inside no other one.

* `Run.isMatched`: what opens in a run and opens no block of C linkage closes in it;
* `exists_finds`: what reading a text finds, and where it stands in it;
* `extract_isNested`: how the declarations of a text lie among its braces.
-/

namespace TestBench.Source

open Utf8

/-! ### Groups that are closed -/

/-- Whether every opening brace among some cells is closed among them. -/
def IsMatched (cs : List Cell) : Prop :=
  ∀ front c after, cs = front ++ c :: after → c.code = openBrace → (group? 0 after).isSome

theorem isMatched_cons {c : Cell} {cs : List Cell} (hc : c.code = openBrace → (group? 0 cs).isSome)
    (hcs : IsMatched cs) : IsMatched (c :: cs) := by
  intro front d after h hopen
  rcases List.cons_eq_append_iff.1 h with ⟨rfl, h⟩ | ⟨front, rfl, h⟩
  · obtain ⟨rfl, rfl⟩ := List.cons.inj h
    exact hc hopen
  · exact hcs front d after (List.cons.inj h).2 hopen

theorem isMatched_of_flat {cs : List Cell} (h : ∀ c ∈ cs, c.IsFlat) : IsMatched cs := by
  rintro front c after rfl hc
  exact absurd hc (h c (by simp)).2.1

theorem group?_append {cs g r : List Cell} (h : group? 0 cs = some (g, r)) (after : List Cell) :
    group? 0 (cs ++ after) = some (g, r ++ after) := by
  rw [← append_of_group h, List.append_assoc, group?_replace h]

theorem isSome_group_append {cs : List Cell} (h : (group? 0 cs).isSome) (after : List Cell) :
    (group? 0 (cs ++ after)).isSome := by
  obtain ⟨⟨g, r⟩, hg⟩ := Option.isSome_iff_exists.1 h
  rw [group?_append hg after]
  rfl

theorem IsMatched.append {cs ds : List Cell} (hc : IsMatched cs) (hd : IsMatched ds) :
    IsMatched (cs ++ ds) := by
  intro front c after h hopen
  rcases List.append_eq_append_iff.1 h with ⟨m, rfl, hm⟩ | ⟨m, hm, h⟩
  · exact hd m c after hm hopen
  · cases m with
    | nil => exact hd [] c after h.symm hopen
    | cons x m =>
      obtain ⟨rfl, rfl⟩ := List.cons.inj h
      exact isSome_group_append (hc front c m hm hopen) ds

/-- A brace that is closed with more groups open is closed with fewer. -/
theorem isSome_group_of_le {d e : Nat} {cs : List Cell} (h : (group? e cs).isSome) (hle : d ≤ e) :
    (group? d cs).isSome := by
  induction cs generalizing d e with
  | nil => exact absurd h (by simp [group?])
  | cons c cs ih =>
    by_cases ho : c.code = openBrace
    · rw [group?_open _ _ ho, Option.isSome_map] at h ⊢
      exact ih h (Nat.succ_le_succ hle)
    by_cases hc : c.code = closeBrace
    · cases d with
      | zero =>
        rw [group?_end _ hc]
        rfl
      | succ d =>
        obtain ⟨e, rfl⟩ := Nat.exists_eq_add_of_lt hle
        rw [group?_close _ _ hc, Option.isSome_map] at h ⊢
        exact ih h (by omega)
    · rw [group?_code _ _ ho hc, Option.isSome_map] at h ⊢
      exact ih h hle

/-- What opens in a group closes in it. -/
theorem isMatched_group {depth : Nat} {cs g rest : List Cell}
    (h : group? depth cs = some (g, rest)) : IsMatched g := by
  fun_induction group? depth cs generalizing g with
  | case1 => simp at h
  | case2 depth c cs ho ih =>
    obtain ⟨g, rfl, hg⟩ := exists_of_map_cons h
    refine isMatched_cons (fun _ => isSome_group_of_le (e := depth + 1) ?_ (Nat.zero_le _)) (ih hg)
    rw [group?_self hg]
    rfl
  | case3 c cs ho hc =>
    obtain ⟨rfl, rfl⟩ := Prod.mk.inj (Option.some.inj h)
    exact isMatched_cons (fun h => absurd h ho) (isMatched_of_flat (by simp))
  | case4 c cs ho _ depth ih | case5 depth c cs ho _ ih =>
    obtain ⟨g, rfl, hg⟩ := exists_of_map_cons h
    exact isMatched_cons (fun h => absurd h ho) (ih hg)

/-- Up to a semicolon outside of groups, what opens closes, and so do the groups that were open
    before. -/
theorem isMatched_toSemicolon {depth : Nat} {cs g rest : List Cell}
    (h : toSemicolon? depth cs = some (g, rest)) :
    IsMatched g ∧ ∀ d < depth, (group? d g).isSome := by
  -- The second part is what the first needs for a brace that opens: one more group is open then.
  induction cs generalizing depth g with
  | nil => simp [toSemicolon?] at h
  | cons c cs ih =>
    rw [toSemicolon?] at h
    split at h
    next hc =>
      obtain ⟨rfl, rfl⟩ := Prod.mk.inj (Option.some.inj h)
      refine ⟨isMatched_cons (fun h => ?_) (isMatched_of_flat (by simp)), fun d hd => ?_⟩
      · rw [hc.1] at h
        exact absurd h (by decide)
      · rw [hc.2] at hd
        exact absurd hd (Nat.not_lt_zero d)
    next =>
      obtain ⟨g, rfl, hg⟩ := exists_of_map_cons h
      obtain ⟨hmatched, hclosed⟩ := ih hg
      by_cases ho : c.code = openBrace
      · rw [if_pos ho] at hclosed
        refine ⟨isMatched_cons (fun _ => hclosed 0 (Nat.succ_pos _)) hmatched, fun d hd => ?_⟩
        rw [group?_open _ _ ho, Option.isSome_map]
        exact hclosed _ (Nat.succ_lt_succ hd)
      rw [if_neg ho] at hclosed
      refine ⟨isMatched_cons (fun h => absurd h ho) hmatched, fun d hd => ?_⟩
      by_cases hc : c.code = closeBrace
      · rw [if_pos hc] at hclosed
        cases d with
        | zero =>
          rw [group?_end _ hc]
          rfl
        | succ d =>
          rw [group?_close _ _ hc, Option.isSome_map]
          exact hclosed d (by omega)
      · rw [if_neg hc] at hclosed
        rw [group?_code _ _ ho hc, Option.isSome_map]
        exact hclosed d hd

/-- What opens in a definition closes in it. -/
theorem isMatched_of_complete {cs cells rest : List Cell}
    (h : definition cs = .complete cells rest) : IsMatched cells := by
  obtain ⟨head, body, tail, rfl, ho, hg, hs⟩ := definition_eq_complete h
  obtain ⟨front, c, rfl, hc, hfront⟩ := exists_of_opening ho
  have hbody : (group? 0 (body ++ tail)).isSome := by
    rw [group?_replace hg]
    rfl
  rw [List.append_assoc]
  exact (isMatched_of_flat hfront).append
    (isMatched_cons (fun _ => hbody) ((isMatched_group hg).append (isMatched_toSemicolon hs).1))

/-! ### Groups that a run takes -/

theorem isMatched_of_isWord {w : List Cell} (h : IsWord w) : IsMatched w :=
  isMatched_of_flat fun c hc => not_flat_of_word (h.2 c hc)

/-- What opens in a step closes in it, unless it opens a block of C linkage. -/
theorem Step.isMatched {s s' : Statement} {p rest : List Cell} {es : List Excerpt}
    (h : Step s p rest es s') :
    IsMatched p ∨ ∃ c, p = [c] ∧ s.opensLinkage := by
  have hgroup : ∀ (c : Cell) {g rest : List Cell}, group? 0 (g ++ rest) = some (g, rest) →
      IsMatched (c :: g) :=
    fun c _ _ hg => isMatched_cons (fun _ => by rw [group?_self hg]; rfl) (isMatched_group hg)
  have hsingle : ∀ {c : Cell}, c.code ≠ openBrace → IsMatched [c] := fun hc =>
    isMatched_cons (fun h => absurd h hc) (isMatched_of_flat (by simp))
  cases h with
  | semicolon hc => exact .inl (hsingle (by rw [hc]; decide))
  | linkage _ hl => exact .inr ⟨_, rfl, hl⟩
  | body _ _ hg => exact .inl (hgroup _ hg)
  | group _ _ hg => exact .inl (hgroup _ hg)
  | close hc => exact .inl (hsingle (by rw [hc]; decide))
  | definition hw _ _ hd => exact .inl ((isMatched_of_isWord hw).append (isMatched_of_complete hd))
  | word hw => exact .inl (isMatched_of_isWord hw)
  | code hc => exact .inl (hsingle hc.2.1)

/-- What opens in a run closes in it, unless reading has come there to find that it opens a block
    of C linkage. -/
theorem Run.isMatched {s s' : Statement} {p rest : List Cell} {es : List Excerpt}
    (h : Run s p rest es s') {front after : List Cell} {c : Cell} (hp : p = front ++ c :: after)
    (hc : c.code = openBrace) :
    (group? 0 after).isSome ∨
      ∃ fs t, Run s front (c :: (after ++ rest)) fs t ∧ t.opensLinkage := by
  induction h generalizing front with
  | nil => exact absurd hp (by simp)
  | @step s t s' p q rest es fs hstep hrun ih =>
    have hlater : ∀ m, q = m ++ c :: after → (group? 0 after).isSome ∨
        ∃ fs t, Run s (p ++ m) (c :: (after ++ rest)) fs t ∧ t.opensLinkage := by
      rintro m rfl
      rcases ih rfl with h | ⟨gs, u, hu, hl⟩
      · exact .inl h
      · rw [List.append_assoc, List.cons_append] at hstep
        exact .inr ⟨es ++ gs, u, .step hstep hu, hl⟩
    rcases List.append_eq_append_iff.1 hp with ⟨m, rfl, hm⟩ | ⟨m, rfl, hm⟩
    · exact hlater m hm
    cases m with
    | nil =>
      have := hlater [] hm.symm
      rwa [List.append_nil, List.append_nil] at this
    | cons x m =>
      obtain ⟨rfl, rfl⟩ := List.cons.inj hm
      rcases hstep.isMatched with h | ⟨d, hd, hl⟩
      · exact .inl (isSome_group_append (h front c m rfl hc) q)
      · obtain ⟨rfl, -⟩ := List.append_eq_singleton_iff.1 hd |>.resolve_right (by simp)
        exact .inr ⟨[], s, .nil, hl⟩

/-! ### Where fragments stand -/

/-- Whether an excerpt stands among cells where it says, behind a run that may have taken some flat
    code in front of it. -/
def Excerpt.StandsIn (e : Excerpt) (cs : List Cell) : Prop :=
  ∃ base lead mid after es s, cs = base ++ (lead ++ (mid ++ after)) ∧ e.cells = lead ++ mid ∧
    e.start = base.length ∧ (∀ c ∈ lead, c.IsFlat) ∧
    Run (.startingAt 0) (base ++ lead) (mid ++ after) es s

/-- Behind a run there stands what begins in its last statement. -/
theorem Run.standsIn {s : Statement} {p q after lead : List Cell} {es : List Excerpt} {e : Excerpt}
    (h : Run (.startingAt 0) p (q ++ after) es s) (hl : lead <:+ s.read.reverse)
    (hflat : ∀ c ∈ lead, c.IsFlat) (hcells : e.cells = lead ++ q)
    (hstart : e.start = s.stop - lead.length) : e.StandsIn (p ++ (q ++ after)) := by
  obtain ⟨base, rfl⟩ := hl.trans h.read_suffix
  refine ⟨base, lead, q, after, es, s, by rw [List.append_assoc], hcells, ?_, hflat, h⟩
  rw [hstart, h.stop_eq, Statement.startingAt, Nat.zero_add, List.length_append,
    Nat.add_sub_cancel]

/-- What a step finds begins in the statement so far, with flat code, and ends with the step. -/
theorem Step.exists_lead {s s' : Statement} {p rest : List Cell} {es : List Excerpt} {e : Excerpt}
    (h : Step s p rest es s') (hs : s.IsSound) (he : e ∈ es) :
    ∃ lead, lead <:+ s.read.reverse ∧ (∀ c ∈ lead, c.IsFlat) ∧ e.cells = lead ++ p ∧
      e.start = s.stop - lead.length := by
  cases h with
  | semicolon hc =>
    obtain ⟨hg, -, rfl⟩ := Statement.eq_of_excerpt (Option.mem_toList.1 he)
    exact ⟨s.head, s.head_suffix,
      fun c hc => hs.flat hg c (List.mem_reverse.1 (s.head_suffix.subset hc)), rfl, rfl⟩
  | definition =>
    obtain rfl := List.mem_singleton.1 he
    exact ⟨s.lead, lead_suffix s, s.isFlat_lead, List.append_assoc .., rfl⟩
  | _ => exact absurd he List.not_mem_nil

/-- What a run finds, one of its steps finds. -/
theorem Run.exists_step {s s' : Statement} {p rest : List Cell} {es : List Excerpt} {e : Excerpt}
    (h : Run s p rest es s') (he : e ∈ es) : ∃ front q after fs gs t t',
      p = front ++ (q ++ after) ∧ Run s front (q ++ (after ++ rest)) fs t ∧
        Step t q (after ++ rest) gs t' ∧ e ∈ gs := by
  induction h with
  | nil => exact absurd he List.not_mem_nil
  | @step s t _ p q rest es fs hstep hrun ih =>
    rcases List.mem_append.1 he with he | he
    · exact ⟨[], p, q, [], es, s, t, rfl, .nil, hstep, he⟩
    · obtain ⟨front, q, after, fs, gs, u, u', rfl, hu, hstep', he⟩ := ih he
      rw [List.append_assoc, List.append_assoc] at hstep
      exact ⟨p ++ front, q, after, _, gs, u, u', (List.append_assoc ..).symm, .step hstep hu,
        hstep', he⟩

/-- What a run finds stands where it says. -/
theorem Run.standsIn_of_mem {s : Statement} {p rest : List Cell} {es : List Excerpt} {e : Excerpt}
    (h : Run (.startingAt 0) p rest es s) (he : e ∈ es) : e.StandsIn (p ++ rest) := by
  obtain ⟨front, q, after, fs, gs, t, t', rfl, hrun, hstep, he⟩ := h.exists_step he
  obtain ⟨lead, hl, hflat, hcells, hstart⟩ :=
    hstep.exists_lead (hrun.isSound (Statement.isSound_startingAt 0)) he
  simpa using hrun.standsIn hl hflat hcells hstart

/-- What is found where reading stops begins in the statement so far, and takes all that is left. -/
theorem Stop.exists_lead {s : Statement} {rest : List Cell} {fs : List Excerpt}
    {w : Option Warning} {e : Excerpt} (h : Stop s rest fs w) (he : e ∈ fs) :
    fs = [e] ∧ e.kind = .structOrEnum ∧ Begins e.cells ∧ ∃ lead, lead <:+ s.read.reverse ∧
      (∀ c ∈ lead, c.IsFlat) ∧ e.cells = lead ++ rest ∧ e.start = s.stop - lead.length := by
  cases h with
  | unterminated hw =>
    obtain rfl := List.mem_singleton.1 he
    obtain ⟨c, w, rfl⟩ := List.exists_cons_of_ne_nil hw.1
    refine ⟨rfl, rfl, ?_, s.lead, lead_suffix s, s.isFlat_lead, List.append_assoc .., rfl⟩
    rw [List.append_assoc]
    exact (startsWord_of_lead (hw.2 c List.mem_cons_self) _).begins
  | _ => exact absurd he List.not_mem_nil

/-! ### The braces of a text -/

/-- Whether there is an opening brace at an offset of the code. -/
def OpensAt (cs : List Cell) (p : Nat) : Prop :=
  ∃ c ∈ cs[p]?, c.code = openBrace

/-- The offset of the brace that closes the one at `p`, if there is one. -/
def matchingBrace? (cs : List Cell) (p : Nat) : Option Nat :=
  (group? 0 (cs.drop (p + 1))).map fun g => p + g.1.length

/-- Whether the brace at an offset opens a block of C linkage: reading comes to it, and the head of
    the statement before it says so. -/
def OpensLinkageAt (cs : List Cell) (p : Nat) : Prop :=
  ∃ front c after es s, cs = front ++ c :: after ∧ front.length = p ∧ c.code = openBrace ∧
    Run (.startingAt 0) front (c :: after) es s ∧ s.opensLinkage

theorem OpensAt.exists_split {cs : List Cell} {p : Nat} (h : OpensAt cs p) :
    ∃ front c after, cs = front ++ c :: after ∧ front.length = p ∧ c.code = openBrace := by
  obtain ⟨c, hc, hopen⟩ := h
  obtain ⟨hp, rfl⟩ := List.getElem?_eq_some_iff.1 hc
  refine ⟨cs.take p, cs[p], cs.drop (p + 1), ?_, by simp; omega, hopen⟩
  rw [← List.drop_eq_getElem_cons hp, List.take_append_drop]

/-- A brace that is closed before some cells end is closed there. -/
theorem exists_matchingBrace (front : List Cell) (c : Cell) {rest : List Cell}
    (h : (group? 0 rest).isSome) (after : List Cell) :
    ∃ q < (front ++ c :: rest).length,
      matchingBrace? (front ++ c :: (rest ++ after)) front.length = some q := by
  obtain ⟨⟨g, r⟩, hg⟩ := Option.isSome_iff_exists.1 h
  have hlen := congrArg List.length (append_of_group hg)
  rw [List.length_append] at hlen
  have hdrop : (front ++ c :: (rest ++ after)).drop (front.length + 1) = rest ++ after := by
    rw [← List.drop_drop, List.drop_left]
    rfl
  refine ⟨front.length + g.length, by simp; omega, ?_⟩
  rw [matchingBrace?, hdrop, group?_append hg after]
  rfl

/-- What is closed in front of flat code or in it is closed in front of it. -/
theorem isSome_group_of_flat {cs lead : List Cell} (h : (group? 0 (cs ++ lead)).isSome)
    (hflat : ∀ c ∈ lead, c.IsFlat) : (group? 0 cs).isSome := by
  obtain ⟨⟨g, r⟩, hg⟩ := Option.isSome_iff_exists.1 h
  obtain ⟨front, last, rfl, hlast⟩ := exists_last_of_group hg
  rcases List.append_eq_append_iff.1 (append_of_group hg) with ⟨m, rfl, -⟩ | ⟨m, hm, rfl⟩
  · rw [group?_replace hg m]
    rfl
  · rcases List.eq_nil_or_concat m with rfl | ⟨m, x, rfl⟩
    · rw [List.append_nil] at hm
      rw [← hm, group?_self hg]
      rfl
    · -- The brace that closes the group would be in the flat code.
      rw [List.concat_eq_append, ← List.append_assoc] at hm
      obtain ⟨-, hx⟩ := List.append_inj' hm rfl
      obtain rfl := (List.cons.inj hx).1
      exact absurd hlast (hflat last (by simp)).2.2

/-- In front of an excerpt every brace is closed in front of it, or it opens a block of C
    linkage. -/
theorem Excerpt.StandsIn.outside {cs : List Cell} {e : Excerpt} (h : e.StandsIn cs) {p : Nat}
    (hp : p < e.start) (hopen : OpensAt cs p) :
    (∃ q < e.start, matchingBrace? cs p = some q) ∨ OpensLinkageAt cs p := by
  obtain ⟨base, lead, mid, after, es, s, rfl, -, hstart, hflat, hrun⟩ := h
  rw [hstart] at hp ⊢
  have hbase : OpensAt base p := by
    obtain ⟨c, hc, hopen⟩ := hopen
    rw [List.getElem?_append_left hp] at hc
    exact ⟨c, hc, hopen⟩
  obtain ⟨front, c, rest, rfl, rfl, hbrace⟩ := hbase.exists_split
  rcases hrun.isMatched (List.append_assoc ..) hbrace with h | ⟨fs, t, ht, hl⟩
  · have := exists_matchingBrace front c (isSome_group_of_flat h hflat) (lead ++ (mid ++ after))
    rw [List.append_assoc]
    exact .inl this
  · exact .inr ⟨front, c, _, fs, t, by simp, rfl, hbrace, ht, hl⟩

/-- Inside a part that is matched every brace is closed. -/
theorem IsMatched.inside {base mid after : List Cell} (h : IsMatched mid) {p : Nat}
    (hp : base.length ≤ p) (hp' : p < (base ++ mid).length)
    (hopen : OpensAt (base ++ (mid ++ after)) p) :
    ∃ q < (base ++ mid).length, matchingBrace? (base ++ (mid ++ after)) p = some q := by
  have hmid : OpensAt mid (p - base.length) := by
    obtain ⟨c, hc, hopen⟩ := hopen
    rw [List.length_append] at hp'
    rw [List.getElem?_append_right hp, List.getElem?_append_left (by omega)] at hc
    exact ⟨c, hc, hopen⟩
  obtain ⟨front, c, rest, rfl, hlen, hopen⟩ := hmid.exists_split
  have := exists_matchingBrace (base ++ front) c (h front c rest rfl hopen) after
  have hplace : (base ++ front).length = p := by
    rw [List.length_append]
    omega
  rw [hplace] at this
  simpa using this

/-! ### How declarations lie among braces -/

/-- The code of a text where a declaration stands. -/
def codeAt (t : String) (d : Declaration) : List UInt8 :=
  (codeBytes t).extract d.order d.stop

/-- Whether a declaration takes the rest of a text, blanks at the end apart. -/
def TakesRest (t : String) (d : Declaration) : Prop :=
  ∃ a b, a ++ b = t ∧ (encode a).length = d.order ∧ d.text = Text.trimEnd b

/-- How the definitions and prototypes of an extraction lie among the braces of a text. -/
structure IsNested (e : Extraction) (t : String) : Prop where
  /-- Every brace in front of one is closed in front of it, or it opens a block of C linkage. -/
  outside : ∀ d ∈ e.structsAndEnums ++ e.prototypes, ∀ p < d.order, OpensAt (cells (encode t)) p →
    (∃ q < d.order, matchingBrace? (cells (encode t)) p = some q) ∨
      OpensLinkageAt (cells (encode t)) p
  /-- There is no brace in a prototype, and no semicolon but the last byte. -/
  prototype : ∀ d ∈ e.prototypes, ∃ front, codeAt t d = front ++ [semicolon] ∧
    ∀ b ∈ front, b ≠ semicolon ∧ b ≠ openBrace ∧ b ≠ closeBrace
  /-- A definition ends with a semicolon, and every brace in it is closed in it; or it is the last
      one and takes the rest of the text, blanks at the end apart. -/
  definition : ∀ before d after, e.structsAndEnums = before ++ d :: after →
    ((codeAt t d).getLast? = some semicolon ∧
      ∀ p, d.order ≤ p → p < d.stop → OpensAt (cells (encode t)) p →
        ∃ q < d.stop, matchingBrace? (cells (encode t)) p = some q) ∨
    (after = [] ∧ TakesRest t d)

/-- What reading a text finds: excerpts that stand in it and are whole, and maybe one behind them
    that goes on to the end. -/
structure Finds (t : String) (es fs : List Excerpt) : Prop where
  found : (read (cells (encode t))).found = es.map Excerpt.declaration ++ fs.map Excerpt.trimmed
  whole : ∀ e ∈ es, e.StandsIn (cells (encode t)) ∧ Whole e.kind e.cells
  endless : ∀ e ∈ fs, fs = [e] ∧ e.StandsIn (cells (encode t)) ∧ e.kind = .structOrEnum ∧
    Begins e.cells ∧ ∃ base, cells (encode t) = base ++ e.cells ∧ e.start = base.length
  warned : ∀ e ∈ fs, ∃ k, (read (cells (encode t))).warning = some (.unterminated k e.start)

theorem Stop.warning_of_mem {s : Statement} {rest : List Cell} {fs : List Excerpt}
    {w : Option Warning} {e : Excerpt} (h : Stop s rest fs w) (he : e ∈ fs) :
    ∃ k, w = some (.unterminated k e.start) := by
  cases h with
  | unterminated =>
    obtain rfl := List.mem_singleton.1 he
    exact ⟨_, rfl⟩
  | _ => exact absurd he List.not_mem_nil

theorem finds_of_run {t : String} {p rest : List Cell} {es fs : List Excerpt} {s : Statement}
    {w : Option Warning} (hcs : p ++ rest = cells (encode t))
    (hrun : Run (.startingAt 0) p rest es s) (hstop : Stop s rest fs w) : Finds t es fs := by
  obtain ⟨hfound, hwarning⟩ := readFrom_of_run hrun hstop 0
  rw [hcs] at hfound hwarning
  refine ⟨hfound, fun e he => ⟨hcs ▸ hrun.standsIn_of_mem he, hrun.whole_of_mem e he⟩,
    fun e he => ?_, fun e he => hwarning ▸ hstop.warning_of_mem he⟩
  obtain ⟨hone, hkind, hbegins, lead, hl, hflat, hcells, hstart⟩ := hstop.exists_lead he
  have hrun' : Run (.startingAt 0) p (rest ++ []) es s := by rwa [List.append_nil]
  have hstands := hrun'.standsIn hl hflat hcells hstart
  rw [List.append_nil, hcs] at hstands
  refine ⟨hone, hstands, hkind, hbegins, ?_⟩
  obtain ⟨base, rfl⟩ := hl.trans hrun.read_suffix
  refine ⟨base, by rw [← hcs, hcells, List.append_assoc], ?_⟩
  rw [hstart, hrun.stop_eq, Statement.startingAt, Nat.zero_add, List.length_append,
    Nat.add_sub_cancel]

theorem exists_finds (t : String) : ∃ es fs, Finds t es fs := by
  obtain ⟨_, _, es, _, fs, _, hcs, hrun, hstop⟩ := exists_run (.startingAt 0) (cells (encode t))
  exact ⟨es, fs, finds_of_run hcs hrun hstop⟩

/-- Where a whole excerpt stands, the code is its own. -/
theorem exists_code {t : String} {e : Excerpt} (h : e.StandsIn (cells (encode t)))
    (hw : Whole e.kind e.cells) : ∃ base after, cells (encode t) = base ++ (e.cells ++ after) ∧
      e.declaration.order = base.length ∧ e.declaration.stop = (base ++ e.cells).length ∧
      codeAt t e.declaration = e.cells.map Cell.code := by
  obtain ⟨base, lead, mid, after, es, s, hcs, hcells, hstart, -, -⟩ := h
  rw [← List.append_assoc lead, ← hcells] at hcs
  have hraw : base.map Cell.raw ++ (e.cells ++ after).map Cell.raw = encode t := by
    rw [← List.map_append, ← hcs, raw_cells]
  have hsound : ∀ c ∈ e.cells, c.IsSound := fun c hc =>
    isSound_of_mem_cells c (by rw [hcs]; simp [hc])
  obtain ⟨-, htext, -⟩ := hw.isText hsound (hraw ▸ isText_encode t)
  have hstop : e.declaration.stop = (base ++ e.cells).length := by
    rw [Declaration.stop, Excerpt.declaration, hstart, rawText, encode_lossy htext, List.length_map,
      List.length_append]
  refine ⟨base, after, hcs, hstart, hstop, ?_⟩
  have horder : e.declaration.order = base.length := hstart
  rw [codeAt, codeBytes, hstop, horder, hcs]
  exact extract_map_middle _ _ _ _

/-- What goes on to the end of a text is the rest of it. -/
theorem takesRest {t : String} {e : Excerpt} {base : List Cell}
    (h : cells (encode t) = base ++ e.cells) (hstart : e.start = base.length)
    (hb : Begins e.cells) : TakesRest t e.trimmed := by
  have hraw : base.map Cell.raw ++ e.cells.map Cell.raw = encode t := by
    rw [← List.map_append, ← h, raw_cells]
  have hsound : ∀ c ∈ e.cells, c.IsSound := fun c hc =>
    isSound_of_mem_cells c (by rw [h]; simp [hc])
  have hfresh := hb.startsFresh hsound []
  rw [List.append_nil] at hfresh
  obtain ⟨hbase, hcells⟩ := (hraw ▸ isText_encode t : IsText (_ ++ _)).split hfresh
  refine ⟨lossy (base.map Cell.raw), rawText e.cells, ?_, ?_, rfl⟩
  · rw [← lossy_encode (_ ++ _), encode_append, encode_lossy hbase, rawText, encode_lossy hcells,
      hraw, lossy_encode]
  · rw [encode_lossy hbase, List.length_map]
    exact hstart.symm

theorem Whole.isMatched {k : DeclarationKind} {cs : List Cell} (h : Whole k cs) :
    IsMatched cs := by
  cases h with
  | prototype flat ends =>
    refine (isMatched_of_flat flat).append
      (isMatched_cons (fun h => ?_) (isMatched_of_flat (by simp)))
    rw [ends] at h
    exact absurd h (by decide)
  | definition isLead isWord _ _ complete =>
    refine (IsMatched.append ?_ (isMatched_of_isWord isWord)).append
      (isMatched_of_complete complete)
    rcases isLead with rfl | ⟨w, gap, rfl, hw, -, hgap⟩
    · exact isMatched_of_flat (by simp)
    · exact (isMatched_of_isWord (isWord_typedef hw)).append
        (isMatched_of_flat fun c hc => isFlat_of_isBlank (hgap c hc))

/-- A whole excerpt among the definitions or prototypes of a text ends in its semicolon, and what
    opens in it closes in it. -/
theorem inside_of_whole {t : String} {e : Excerpt} (h : e.StandsIn (cells (encode t)))
    (hw : Whole e.kind e.cells) :
    (codeAt t e.declaration).getLast? = some semicolon ∧
      ∀ p, e.declaration.order ≤ p → p < e.declaration.stop → OpensAt (cells (encode t)) p →
        ∃ q < e.declaration.stop, matchingBrace? (cells (encode t)) p = some q := by
  obtain ⟨base, after, hcs, horder, hstop, hcode⟩ := exists_code h hw
  rw [hcode, hcs, horder, hstop]
  refine ⟨?_, fun p hp hp' hopen => hw.isMatched.inside hp hp' hopen⟩
  obtain ⟨front, last, hcells, hl⟩ := hw.exists_last
  rw [hcells, List.map_append, List.map_singleton, List.getLast?_concat, hl]

theorem code_of_prototype {cs : List Cell} (h : Whole .prototype cs) :
    ∃ front, cs.map Cell.code = front ++ [semicolon] ∧
      ∀ b ∈ front, b ≠ semicolon ∧ b ≠ openBrace ∧ b ≠ closeBrace := by
  cases h with
  | @prototype cs last flat ends =>
    refine ⟨cs.map Cell.code, by rw [List.map_append, List.map_singleton, ends], fun b hb => ?_⟩
    obtain ⟨c, hc, rfl⟩ := List.mem_map.1 hb
    exact flat c hc

theorem Finds.filter_kind {t : String} {es fs : List Excerpt} (h : Finds t es fs)
    (k : DeclarationKind) : (read (cells (encode t))).found.filter (·.kind == k) =
      (es.map Excerpt.declaration).filter (·.kind == k) ++
        (fs.map Excerpt.trimmed).filter (·.kind == k) := by
  rw [h.found, List.filter_append]

theorem Finds.outside {t : String} {es fs : List Excerpt} (h : Finds t es fs) {d : Declaration}
    (hd : d ∈ (read (cells (encode t))).found) {p : Nat} (hp : p < d.order)
    (hopen : OpensAt (cells (encode t)) p) :
    (∃ q < d.order, matchingBrace? (cells (encode t)) p = some q) ∨
      OpensLinkageAt (cells (encode t)) p := by
  rw [h.found] at hd
  rcases List.mem_append.1 hd with hd | hd
  · obtain ⟨e, he, rfl⟩ := List.mem_map.1 hd
    exact (h.whole e he).1.outside hp hopen
  · obtain ⟨e, he, rfl⟩ := List.mem_map.1 hd
    exact (h.endless e he).2.1.outside hp hopen

theorem Finds.code_of_prototype {t : String} {es fs : List Excerpt} (h : Finds t es fs)
    {d : Declaration} (hd : d ∈ (read (cells (encode t))).found.filter (·.kind == .prototype)) :
    ∃ front, codeAt t d = front ++ [semicolon] ∧
      ∀ b ∈ front, b ≠ semicolon ∧ b ≠ openBrace ∧ b ≠ closeBrace := by
  rw [h.filter_kind] at hd
  rcases List.mem_append.1 hd with hd | hd
  · obtain ⟨hd, hk⟩ := List.mem_filter.1 hd
    obtain ⟨e, he, rfl⟩ := List.mem_map.1 hd
    obtain ⟨hstands, hwhole⟩ := h.whole e he
    obtain ⟨_, _, -, -, -, hcode⟩ := exists_code hstands hwhole
    rw [hcode]
    exact Source.code_of_prototype (beq_iff_eq.1 hk ▸ hwhole)
  · obtain ⟨hd, hk⟩ := List.mem_filter.1 hd
    obtain ⟨e, he, rfl⟩ := List.mem_map.1 hd
    have hk : e.kind = .prototype := beq_iff_eq.1 hk
    rw [(h.endless e he).2.2.1] at hk
    exact absurd hk (by decide)

/-- What goes on to the end is found last. -/
theorem Finds.takesRest {t : String} {es fs : List Excerpt} (h : Finds t es fs)
    {before after : List Declaration} {d : Declaration}
    (hd : (fs.map Excerpt.trimmed).filter (·.kind == .structOrEnum) = before ++ d :: after) :
    after = [] ∧ TakesRest t d := by
  have hmem : d ∈ (fs.map Excerpt.trimmed).filter (·.kind == .structOrEnum) := by simp [hd]
  obtain ⟨e, he, rfl⟩ := List.mem_map.1 (List.mem_filter.1 hmem).1
  obtain ⟨rfl, -, -, hbegins, base, hcs, hstart⟩ := h.endless e he
  have hlen := congrArg List.length hd
  have hle := List.length_filter_le (·.kind == DeclarationKind.structOrEnum)
    ([e].map Excerpt.trimmed)
  simp only [List.length_append, List.length_cons, List.length_map, List.length_nil] at hlen hle
  exact ⟨List.eq_nil_of_length_eq_zero (by omega), Source.takesRest hcs hstart hbegins⟩

/-- In the text of a header, whatever its braces are, every definition and every prototype stands
    behind groups that are closed and blocks of C linkage only. -/
theorem extract_isNested (t : String) : IsNested (extract t) t := by
  obtain ⟨es, fs, hfinds⟩ := exists_finds t
  constructor
  case outside =>
    intro d hd p hp hopen
    refine hfinds.outside ?_ hp hopen
    rcases List.mem_append.1 hd with hd | hd <;> exact (List.mem_filter.1 hd).1
  case prototype => exact fun d hd => hfinds.code_of_prototype hd
  case definition =>
    intro before d after h
    rw [show (extract t).structsAndEnums = _ from hfinds.filter_kind .structOrEnum] at h
    -- It is among the whole ones, or behind them.
    rcases List.append_eq_append_iff.1 h with ⟨m, -, hm⟩ | ⟨m, hm, hd⟩
    · exact .inr (hfinds.takesRest hm)
    · cases m with
      | nil => exact .inr (hfinds.takesRest (hd.symm.trans (List.nil_append _).symm))
      | cons x m =>
        obtain ⟨rfl, -⟩ := List.cons.inj hd
        have hd : d ∈ (es.map Excerpt.declaration).filter (·.kind == .structOrEnum) := by simp [hm]
        obtain ⟨e, he, rfl⟩ := List.mem_map.1 (List.mem_filter.1 hd).1
        exact .inl (inside_of_whole (hfinds.whole e he).1 (hfinds.whole e he).2)

end TestBench.Source
