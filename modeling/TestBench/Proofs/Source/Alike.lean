import Mathlib.Data.List.Forall2
import TestBench.Proofs.Source.Whole

/-!
# Readings that are alike

Two readings that look at the same code take the same steps, however the code is written and
wherever it starts. Cells may differ by any relation that keeps their code, and offsets by a
constant (`Statement.Alike`). Only the opening of a block of C linkage is read from the text as
written; there the two have to agree.

* `Step.alike`: two statements that are alike take the same step;
* `Run.alike`, `Stop.alike`: so do runs, and they stop alike.
-/

namespace TestBench.Source

variable {R : Cell → Cell → Prop}

/-! ### Looking ahead -/

section Cut

variable {α : Type} {S : α → α → Prop} {p : α → Bool} {l l' : List α}

theorem forall₂_takeWhile (hp : ∀ a b, S a b → p b = p a) (h : List.Forall₂ S l l') :
    List.Forall₂ S (l.takeWhile p) (l'.takeWhile p) := by
  induction h with
  | nil => exact .nil
  | @cons a b _ _ hab _ ih =>
    rw [List.takeWhile_cons, List.takeWhile_cons, hp a b hab]
    split
    · exact .cons hab ih
    · exact .nil

theorem forall₂_dropWhile (hp : ∀ a b, S a b → p b = p a) (h : List.Forall₂ S l l') :
    List.Forall₂ S (l.dropWhile p) (l'.dropWhile p) := by
  induction h with
  | nil => exact .nil
  | @cons a b _ _ hab hl ih =>
    rw [List.dropWhile_cons, List.dropWhile_cons, hp a b hab]
    split
    · exact ih
    · exact .cons hab hl

/-- What is alike to two parts has two parts. -/
theorem exists_of_forall₂_append {l₁ l₂ : List α} (h : List.Forall₂ S (l₁ ++ l₂) l') :
    ∃ l₁' l₂', l' = l₁' ++ l₂' ∧ List.Forall₂ S l₁ l₁' ∧ List.Forall₂ S l₂ l₂' := by
  induction l₁ generalizing l' with
  | nil => exact ⟨[], l', rfl, .nil, h⟩
  | cons a l₁ ih =>
    rw [List.cons_append] at h
    obtain ⟨b, l', hab, hl, rfl⟩ := List.forall₂_cons_left_iff.1 h
    obtain ⟨l₁', l₂', rfl, h₁, h₂⟩ := ih hl
    exact ⟨b :: l₁', l₂', rfl, .cons hab h₁, h₂⟩

end Cut

/-- Whether two searches fail together, or cut what is alike in the same place. -/
def CutAlike (R : Cell → Cell → Prop) (found found' : Option (List Cell × List Cell)) : Prop :=
  Option.Rel (fun g g' => List.Forall₂ R g.1 g'.1 ∧ List.Forall₂ R g.2 g'.2) found found'

theorem CutAlike.map_cons {found found' : Option (List Cell × List Cell)}
    (h : CutAlike R found found') {c c' : Cell} (hc : R c c') :
    CutAlike R (found.map fun g => (c :: g.1, g.2)) (found'.map fun g => (c' :: g.1, g.2)) := by
  cases h with
  | none => exact .none
  | some h => exact .some ⟨.cons hc h.1, h.2⟩

/-- The same warning `k` bytes further on. -/
def Warning.shift (k : Nat) : Warning → Warning
  | .unbalanced offset => .unbalanced (offset + k)
  | .unterminated keyword offset => .unterminated keyword (offset + k)

variable (hR : ∀ c c', R c c' → c'.code = c.code)
include hR

theorem map_code_of_alike {cs cs' : List Cell} (h : List.Forall₂ R cs cs') :
    cs'.map Cell.code = cs.map Cell.code := by
  induction h with
  | nil => rfl
  | cons hc _ ih => rw [List.map_cons, List.map_cons, hR _ _ hc, ih]

theorem codeText_of_alike {cs cs' : List Cell} (h : List.Forall₂ R cs cs') :
    codeText cs' = codeText cs := by
  rw [codeText, codeText, map_code_of_alike hR h]

theorem isBlank_of_alike (c c' : Cell) (h : R c c') : c'.isBlank = c.isBlank := by
  rw [Cell.isBlank, Cell.isBlank, hR c c' h]

theorem group?_alike {cs cs' : List Cell} (h : List.Forall₂ R cs cs') (depth : Nat) :
    CutAlike R (group? depth cs) (group? depth cs') := by
  induction h generalizing depth with
  | nil =>
    rw [group?]
    exact .none
  | @cons c c' cs cs' hc hcs ih =>
    by_cases ho : c.code = openBrace
    · rw [group?_open _ _ ho, group?_open _ _ ((hR _ _ hc).trans ho)]
      exact (ih _).map_cons hc
    by_cases he : c.code = closeBrace
    · cases depth with
      | zero =>
        rw [group?_end _ he, group?_end _ ((hR _ _ hc).trans he)]
        exact .some ⟨.cons hc .nil, hcs⟩
      | succ depth =>
        rw [group?_close _ _ he, group?_close _ _ ((hR _ _ hc).trans he)]
        exact (ih _).map_cons hc
    · rw [group?_code _ _ ho he, group?_code _ _ (hR _ _ hc ▸ ho) (hR _ _ hc ▸ he)]
      exact (ih _).map_cons hc

theorem toSemicolon?_alike {cs cs' : List Cell} (h : List.Forall₂ R cs cs') (depth : Nat) :
    CutAlike R (toSemicolon? depth cs) (toSemicolon? depth cs') := by
  induction h generalizing depth with
  | nil =>
    rw [toSemicolon?]
    exact .none
  | @cons c c' cs cs' hc hcs ih =>
    rw [toSemicolon?, toSemicolon?, hR _ _ hc]
    split
    · exact .some ⟨.cons hc .nil, hcs⟩
    · exact (ih _).map_cons hc

theorem splitTag_alike {cs cs' : List Cell} (h : List.Forall₂ R cs cs') :
    List.Forall₂ R (splitTag cs).1 (splitTag cs').1 ∧
      List.Forall₂ R (splitTag cs).2 (splitTag cs').2 := by
  have hword : ∀ c c', R c c' → isWordByte c'.code = isWordByte c.code := fun c c' h => by
    rw [hR c c' h]
  cases h with
  | nil => exact ⟨.nil, .nil⟩
  | @cons c c' cs cs' hc hcs =>
    rw [splitTag, splitTag, hR _ _ hc]
    split
    · have htag := forall₂_takeWhile hword (.cons hc hcs)
      have hrest := forall₂_dropWhile hword (.cons hc hcs)
      exact ⟨List.rel_append htag (forall₂_takeWhile (isBlank_of_alike hR) hrest),
        forall₂_dropWhile (isBlank_of_alike hR) hrest⟩
    · exact ⟨.nil, .cons hc hcs⟩

theorem opening?_alike {cs cs' : List Cell} (h : List.Forall₂ R cs cs') :
    CutAlike R (opening? cs) (opening? cs') := by
  have hblanks := forall₂_takeWhile (isBlank_of_alike hR) h
  obtain ⟨htag, hrest⟩ := splitTag_alike hR (forall₂_dropWhile (isBlank_of_alike hR) h)
  rw [opening?, opening?]
  revert hrest
  generalize (splitTag (cs.dropWhile Cell.isBlank)).2 = rest
  generalize (splitTag (cs'.dropWhile Cell.isBlank)).2 = rest'
  intro hrest
  cases hrest with
  | nil => exact .none
  | @cons c c' _ _ hc hrest =>
    simp only [hR _ _ hc]
    split
    · exact .some ⟨List.rel_append (List.rel_append hblanks htag) (.cons hc .nil), hrest⟩
    · exact .none

/-- Whether two definitions are absent, endless or complete together, with parts that are
    alike. -/
inductive Definition.Alike (R : Cell → Cell → Prop) : Definition → Definition → Prop
  | absent : Alike R .absent .absent
  | endless : Alike R .endless .endless
  | complete {cells cells' rest rest' : List Cell} (h : List.Forall₂ R cells cells')
      (hr : List.Forall₂ R rest rest') : Alike R (.complete cells rest) (.complete cells' rest')

theorem definition_alike {cs cs' : List Cell} (h : List.Forall₂ R cs cs') :
    (definition cs).Alike R (definition cs') := by
  have hopen := opening?_alike hR h
  rw [definition, definition]
  generalize opening? cs = o at hopen
  generalize opening? cs' = o' at hopen
  cases hopen with
  | none => exact .absent
  | @some head head' hhead =>
    have hgroup := group?_alike hR hhead.2 0
    simp only
    generalize group? 0 head.2 = g at hgroup
    generalize group? 0 head'.2 = g' at hgroup
    cases hgroup with
    | none => exact .endless
    | @some body body' hbody =>
      have hsemi := toSemicolon?_alike hR hbody.2 0
      simp only
      generalize toSemicolon? 0 body.2 = t at hsemi
      generalize toSemicolon? 0 body'.2 = t' at hsemi
      cases hsemi with
      | none => exact .endless
      | some htail =>
        exact .complete (List.rel_append (List.rel_append hhead.1 hbody.1) htail.1) htail.2

theorem isWord_of_alike {w w' : List Cell} (h : List.Forall₂ R w w') (hw : IsWord w) :
    IsWord w' := by
  refine ⟨?_, fun c' hc' => ?_⟩
  · rintro rfl
    exact hw.1 (List.forall₂_nil_right_iff.1 h)
  · have : c'.code ∈ w'.map Cell.code := List.mem_map_of_mem hc'
    rw [map_code_of_alike hR h] at this
    obtain ⟨c, hc, he⟩ := List.mem_map.1 this
    exact he ▸ hw.2 c hc

theorem startsWord_of_alike {cs cs' : List Cell} (h : List.Forall₂ R cs cs') :
    StartsWord cs' ↔ StartsWord cs := by
  cases h with
  | nil => exact Iff.rfl
  | @cons c c' _ _ hc _ => simp [StartsWord, hR _ _ hc]

/-! ### Statements -/

omit hR in
/-- Statements that have read alike code, `k` bytes apart. -/
structure Statement.Alike (R : Cell → Cell → Prop) (k : Nat) (s s' : Statement) : Prop where
  stop : s'.stop = s.stop + k
  hasGroup : s'.hasGroup = s.hasGroup
  head : List.Forall₂ R s.head s'.head

omit hR in
/-- Excerpts of alike cells, `k` bytes apart. -/
structure Excerpt.Alike (R : Cell → Cell → Prop) (k : Nat) (e e' : Excerpt) : Prop where
  kind : e'.kind = e.kind
  cells : List.Forall₂ R e.cells e'.cells
  start : e'.start = e.start + k

namespace Statement

omit hR in
/-- The head of a longer statement. -/
theorem head_append (s : Statement) (cs : List Cell) :
    (s.append cs).head = (s.head ++ cs).dropWhile Cell.isBlank := by
  have hread : (s.append cs).read.reverse = s.read.reverse ++ cs := by simp [append]
  rw [head, head, hread]
  induction s.read.reverse with
  | nil => rfl
  | cons c l ih =>
    rw [List.cons_append, List.dropWhile_cons, List.dropWhile_cons]
    split
    · exact ih
    next hc => rw [List.cons_append, List.dropWhile_cons_of_neg hc]

omit hR in
/-- Whether a statement ends in a parenthesis shows in its head. -/
theorem endsInParen_eq (s : Statement) : s.endsInParen =
    (s.head.reverse.dropWhile Cell.isBlank).head?.any (·.code == closeParen) := by
  have hread : s.read = s.head.reverse ++ (s.read.reverse.takeWhile Cell.isBlank).reverse := by
    rw [head, ← List.reverse_append, List.takeWhile_append_dropWhile, List.reverse_reverse]
  have hblank : ∀ c ∈ (s.read.reverse.takeWhile Cell.isBlank).reverse, c.isBlank :=
    fun c hc => List.mem_takeWhile_imp (List.mem_reverse.1 hc)
  have hdrop : (s.head.reverse.dropWhile Cell.isBlank).head? =
      (s.read.dropWhile Cell.isBlank).head? := by
    rw [hread, List.dropWhile_append]
    split
    next h =>
      rw [List.isEmpty_iff.1 h, List.dropWhile_eq_nil_iff.2 hblank]
    next h => exact (List.head?_append_of_ne_nil _ (mt List.isEmpty_iff.2 h)).symm
  rw [hdrop, endsInParen]
  cases s.read.dropWhile Cell.isBlank <;> rfl

variable {k : Nat} {s s' : Statement}

omit hR in
theorem Alike.startingAt {n m : Nat} (h : m = n + k) :
    Alike R k (.startingAt n) (.startingAt m) :=
  ⟨h, rfl, .nil⟩

theorem Alike.append (h : Alike R k s s') {cs cs' : List Cell} (hc : List.Forall₂ R cs cs') :
    Alike R k (s.append cs) (s'.append cs') := by
  refine ⟨?_, h.hasGroup, ?_⟩
  · have := h.stop
    have := hc.length_eq
    simp only [Statement.append]
    omega
  · rw [head_append, head_append]
    exact forall₂_dropWhile (isBlank_of_alike hR) (List.rel_append h.head hc)

theorem Alike.pass (h : Alike R k s s') {cs cs' : List Cell} (hc : List.Forall₂ R cs cs') :
    Alike R k (s.pass cs) (s'.pass cs') :=
  ⟨(h.append hR hc).stop, rfl, (h.append hR hc).head⟩

theorem Alike.endsInParen (h : Alike R k s s') : s'.endsInParen = s.endsInParen := by
  have := forall₂_dropWhile (isBlank_of_alike hR) (List.rel_reverse h.head)
  rw [endsInParen_eq, endsInParen_eq]
  revert this
  generalize s.head.reverse.dropWhile Cell.isBlank = l
  generalize s'.head.reverse.dropWhile Cell.isBlank = l'
  intro hl
  cases hl with
  | nil => rfl
  | @cons c c' _ _ hc _ => simp [hR _ _ hc]

theorem Alike.lead (h : Alike R k s s') : List.Forall₂ R s.lead s'.lead := by
  have ht : s'.isTypedef = s.isTypedef := by
    rw [isTypedef, isTypedef, map_code_of_alike hR h.head]
  rw [Statement.lead, Statement.lead, ht]
  split
  · exact h.head
  · exact .nil

omit hR in
/-- Offsets inside the statement are as far apart as the statements. -/
theorem Alike.stop_sub (h : Alike R k s s') (hs : s.IsSound) {l l' : List Cell}
    (hl : l <:+ s.read.reverse) (hll : List.Forall₂ R l l') :
    s'.stop - l'.length = s.stop - l.length + k := by
  have hread := hs.length_le
  have hlen := hl.length_le
  rw [List.length_reverse] at hlen
  rw [h.stop, ← hll.length_eq]
  omega

theorem Alike.excerpt? (h : Alike R k s s') (hs : s.IsSound) {c c' : Cell} (hc : R c c') :
    List.Forall₂ (Excerpt.Alike R k) (s.excerpt? c).toList (s'.excerpt? c').toList := by
  have hcells := List.rel_append h.head (.cons hc .nil)
  have hempty : s'.head.isEmpty = s.head.isEmpty := by
    rw [Bool.eq_iff_iff, List.isEmpty_iff_length_eq_zero, List.isEmpty_iff_length_eq_zero,
      h.head.length_eq]
  rw [Statement.excerpt?, Statement.excerpt?, h.hasGroup, hempty, codeText_of_alike hR hcells]
  split
  · exact .nil
  · split
    · exact .cons ⟨rfl, hcells, h.stop_sub hs s.head_suffix h.head⟩ .nil
    · exact .nil

end Statement

/-! ### Steps, runs and stops -/

/-- A group is one wherever its code is. -/
theorem group?_eq_some_of_alike {g g' rest rest' : List Cell}
    (h : group? 0 (g ++ rest) = some (g, rest)) (hg : List.Forall₂ R g g')
    (hr : List.Forall₂ R rest rest') : group? 0 (g' ++ rest') = some (g', rest') := by
  have hcut := group?_alike hR (List.rel_append hg hr) 0
  rw [h] at hcut
  generalize hc : group? 0 (g' ++ rest') = cut at hcut
  cases hcut with
  | @some _ cut hcut =>
    obtain ⟨rfl, rfl⟩ := List.append_inj (append_of_group hc)
      (hcut.1.length_eq.symm.trans hg.length_eq)
    rfl

/-- A definition with an end is one wherever its code is. -/
theorem definition_eq_complete_of_alike {g g' rest rest' : List Cell}
    (h : definition (g ++ rest) = .complete g rest) (hg : List.Forall₂ R g g')
    (hr : List.Forall₂ R rest rest') : definition (g' ++ rest') = .complete g' rest' := by
  have hcut := definition_alike hR (List.rel_append hg hr)
  rw [h] at hcut
  generalize hc : definition (g' ++ rest') = cut at hcut
  cases hcut with
  | complete hcells hrest =>
    obtain ⟨rfl, rfl⟩ := List.append_inj (append_of_complete hc).1
      (hcells.length_eq.symm.trans hg.length_eq)
    rfl

theorem isKeyword_of_alike {w w' : List Cell} (h : List.Forall₂ R w w') :
    IsKeyword w' ↔ IsKeyword w := by
  rw [IsKeyword, IsKeyword, codeText_of_alike hR h]

variable {k : Nat}

/-- Statements that are alike take the same step, provided that they agree on the opening of a
    block of C linkage. -/
theorem Step.alike {s s' t : Statement} {p rest cs' : List Cell} {es : List Excerpt}
    (h : Step s p rest es t) (hs : s.Alike R k s') (hsound : s.IsSound)
    (hcs : List.Forall₂ R (p ++ rest) cs')
    (hl : ∀ c ∈ p.head?, c.code = openBrace → s'.opensLinkage = s.opensLinkage) :
    ∃ p' rest' es' t', cs' = p' ++ rest' ∧ List.Forall₂ R p p' ∧ List.Forall₂ R rest rest' ∧
      Step s' p' rest' es' t' ∧ List.Forall₂ (Excerpt.Alike R k) es es' ∧ t.Alike R k t' := by
  have hnext : ∀ l l' : List Cell, List.Forall₂ R l l' →
      Statement.Alike R k (.startingAt (s.stop + l.length)) (.startingAt (s'.stop + l'.length)) :=
    fun l l' hl => .startingAt (by rw [hs.stop, hl.length_eq]; omega)
  have hstarts : ∀ {l l' : List Cell}, List.Forall₂ R l l' → (StartsWord l' ↔ StartsWord l) :=
    fun h => startsWord_of_alike hR h
  -- The other cells are cut where these are; it remains to see that the same step takes them.
  obtain ⟨p', rest', rfl, hp, hrest⟩ := exists_of_forall₂_append hcs
  cases h with
  | @semicolon c _ hc =>
    obtain ⟨c', _, hcc, hnil, rfl⟩ := List.forall₂_cons_left_iff.1 hp
    obtain rfl := List.forall₂_nil_left_iff.1 hnil
    exact ⟨_, _, _, _, rfl, hp, hrest, .semicolon ((hR _ _ hcc).trans hc),
      hs.excerpt? hR hsound hcc, hnext [c] [c'] hp⟩
  | @linkage c _ hc hlink =>
    obtain ⟨c', _, hcc, hnil, rfl⟩ := List.forall₂_cons_left_iff.1 hp
    obtain rfl := List.forall₂_nil_left_iff.1 hnil
    exact ⟨_, _, _, _, rfl, hp, hrest, .linkage ((hR _ _ hcc).trans hc)
      ((hl c rfl hc).trans hlink), .nil, hnext [c] [c'] hp⟩
  | @body c g _ hc hlink hg hparen =>
    obtain ⟨c', g', hcc, hgg, rfl⟩ := List.forall₂_cons_left_iff.1 hp
    refine ⟨_, _, _, _, rfl, hp, hrest, .body ((hR _ _ hcc).trans hc) ((hl c rfl hc).trans hlink)
      (group?_eq_some_of_alike hR hg hgg hrest) ((hs.endsInParen hR).trans hparen), .nil,
      hnext _ _ hp⟩
  | @group c g _ hc hlink hg hparen =>
    obtain ⟨c', g', hcc, hgg, rfl⟩ := List.forall₂_cons_left_iff.1 hp
    refine ⟨_, _, _, _, rfl, hp, hrest, .group ((hR _ _ hcc).trans hc) ((hl c rfl hc).trans hlink)
      (group?_eq_some_of_alike hR hg hgg hrest) ((hs.endsInParen hR).trans hparen), .nil,
      hs.pass hR hp⟩
  | @close c _ hc =>
    obtain ⟨c', _, hcc, hnil, rfl⟩ := List.forall₂_cons_left_iff.1 hp
    obtain rfl := List.forall₂_nil_left_iff.1 hnil
    exact ⟨_, _, _, _, rfl, hp, hrest, .close ((hR _ _ hcc).trans hc), .nil, hnext [c] [c'] hp⟩
  | @definition w cells _ hw hr hk hd =>
    obtain ⟨w', cells', rfl, hww, hcells⟩ := exists_of_forall₂_append hp
    refine ⟨_, _, _, _, rfl, hp, hrest, .definition (isWord_of_alike hR hww hw)
      (mt (hstarts (List.rel_append hcells hrest)).1 hr) ((isKeyword_of_alike hR hww).2 hk)
      (definition_eq_complete_of_alike hR hd hcells hrest),
      .cons ⟨rfl, List.rel_append (List.rel_append (hs.lead hR) hww) hcells, ?_⟩ .nil, hnext _ _ hp⟩
    exact hs.stop_sub hsound (lead_suffix s) (hs.lead hR)
  | word hw hr hk =>
    -- A keyword without a definition behind it has none in the other cells either.
    refine ⟨_, _, _, _, rfl, hp, hrest, .word (isWord_of_alike hR hp hw)
      (mt (hstarts hrest).1 hr) fun hk' => ?_, .nil, hs.append hR hp⟩
    have hd := definition_alike hR hrest
    rw [hk ((isKeyword_of_alike hR hp).1 hk')] at hd
    generalize TestBench.Source.definition rest' = d at hd
    cases hd
    rfl
  | @code c _ hc hw =>
    obtain ⟨c', _, hcc, hnil, rfl⟩ := List.forall₂_cons_left_iff.1 hp
    obtain rfl := List.forall₂_nil_left_iff.1 hnil
    refine ⟨_, _, _, _, rfl, hp, hrest, .code ?_ ?_, .nil, hs.append hR hp⟩
    · rwa [Cell.IsFlat, hR _ _ hcc]
    · rw [hR _ _ hcc, hw]

/-- Runs over cells that are alike are alike, provided that they agree on the opening of blocks
    of C linkage wherever they come to a brace. -/
theorem Run.alike {s s' t : Statement} {p rest cs' : List Cell} {es : List Excerpt}
    (h : Run s p rest es t) (hs : s.Alike R k s') (hsound : s.IsSound)
    (hcs : List.Forall₂ R (p ++ rest) cs')
    (hl : ∀ {q q' after after' fs fs' u u'} {c c' : Cell}, q ++ c :: after = p ++ rest →
      q' ++ c' :: after' = cs' → q.length = q'.length → Run s q (c :: after) fs u →
      Run s' q' (c' :: after') fs' u' → u.Alike R k u' → c.code = openBrace →
        u'.opensLinkage = u.opensLinkage) :
    ∃ p' rest' es' t', cs' = p' ++ rest' ∧ List.Forall₂ R p p' ∧ List.Forall₂ R rest rest' ∧
      Run s' p' rest' es' t' ∧ List.Forall₂ (Excerpt.Alike R k) es es' ∧ t.Alike R k t' := by
  induction h generalizing s' cs' with
  | nil => exact ⟨[], cs', [], s', rfl, .nil, hcs, .nil, .nil, hs⟩
  | @step s t _ p q rest es fs hstep hrun ih =>
    rw [List.append_assoc] at hcs hl
    obtain ⟨p', rest₁, es', t', rfl, hp, hrest, hstep', hes, ht⟩ :=
      hstep.alike hR hs hsound hcs fun c hc hb => by
        obtain ⟨p, rfl⟩ : ∃ p₁, p = c :: p₁ := by
          cases p with
          | nil => exact absurd hc (by simp)
          | cons d p => exact ⟨p, by obtain rfl := Option.some.inj hc; rfl⟩
        obtain ⟨c', l', _, _, rfl⟩ := List.forall₂_cons_left_iff.1 hcs
        exact hl (List.nil_append _) (List.nil_append _) rfl .nil .nil hs hb
    obtain ⟨q', rest', fs', u', rfl, hq, hrest', hrun', hfs, hu⟩ :=
      ih ht (hstep.isSound hsound) hrest fun hq hq' hlen hr hr' hu hb =>
        hl (by rw [List.append_assoc, hq]) (by rw [List.append_assoc, hq'])
          (by rw [List.length_append, List.length_append, hlen, hp.length_eq])
          (.step (hq ▸ hstep) hr) (.step (hq' ▸ hstep') hr') hu hb
    exact ⟨p' ++ q', rest', es' ++ fs', u', (List.append_assoc ..).symm, List.rel_append hp hq,
      hrest', .step hstep' hrun', List.rel_append hes hfs, hu⟩

/-- Reading stops alike. -/
theorem Stop.alike {s s' : Statement} {rest rest' : List Cell} {fs : List Excerpt}
    {w : Option Warning} (h : Stop s rest fs w) (hs : s.Alike R k s') (hsound : s.IsSound)
    (hrest : List.Forall₂ R rest rest')
    (hl : ∀ c ∈ rest.head?, c.code = openBrace → s'.opensLinkage = s.opensLinkage) :
    ∃ fs', Stop s' rest' fs' (w.map (·.shift k)) ∧
      List.Forall₂ (Excerpt.Alike R k) fs fs' := by
  cases h with
  | done =>
    obtain rfl := List.forall₂_nil_left_iff.1 hrest
    exact ⟨_, .done, .nil⟩
  | @unbalanced c rest hc hlink hg =>
    obtain ⟨c', after', hcc, hafter, rfl⟩ := List.forall₂_cons_left_iff.1 hrest
    have hcut := group?_alike hR hafter 0
    rw [hg] at hcut
    generalize hg' : group? 0 after' = cut at hcut
    cases hcut
    refine ⟨_, ?_, .nil⟩
    rw [Option.map_some, Warning.shift, ← hs.stop]
    exact .unbalanced ((hR _ _ hcc).trans hc) ((hl c rfl hc).trans hlink) hg'
  | @unterminated w rest hw hr hk hd =>
    obtain ⟨w', after', rfl, hww, hafter⟩ := exists_of_forall₂_append hrest
    have hcut := definition_alike hR hafter
    rw [hd] at hcut
    generalize hd' : definition after' = cut at hcut
    cases hcut
    have hstart : s'.stop - s'.lead.length = s.stop - s.lead.length + k :=
      hs.stop_sub hsound (lead_suffix s) (hs.lead hR)
    have hstop := Stop.unterminated (s := s') (isWord_of_alike hR hww hw)
      (mt (startsWord_of_alike hR hafter).1 hr) ((isKeyword_of_alike hR hww).2 hk) hd'
    rw [codeText_of_alike hR hww, hstart] at hstop
    have hcells := List.rel_append (List.rel_append (hs.lead hR) hww) hafter
    exact ⟨_, hstop, .cons ⟨rfl, hcells, rfl⟩ .nil⟩

end TestBench.Source
