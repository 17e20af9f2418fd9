import TestBench.Proofs.Source.Alike
import TestBench.Proofs.Source.Directive
import TestBench.Proofs.Source.Lexing

/-!
# Texts one behind the other

A text is *closed* (`IsClosed`) if it ends with a newline in code at file scope, with no statement
begun. Nothing that looks ahead in it has looked beyond its end (`IsClosed.lexemes_append`,
`Run.extend`), and behind it reading is where it is at the start of a text
(`Statement.IsFresh.alike`). So whatever follows, well formed or not, is extracted as if it stood
alone.

* `found_of_fresh`, `found_append_of_run`: where no statement has begun, reading goes on as from a
  start;
* `extract_append`: behind a closed text, the declarations of any text are found as they are in
  that text, further on by the length of what is in front.
-/

namespace TestBench.Source

open Utf8

/-! ### Runs that see the end of the cells -/

/-- Whether a run has come to the end of a statement, with at most blanks behind. -/
def Statement.IsBlank (s : Statement) : Prop :=
  ∀ c ∈ s.read, c.isBlank

/-- Where no definition starts, none does if more cells follow, provided that there is more than
    flat code to be seen so far. -/
theorem definition_absent_append {cs : List Cell} (h : definition cs = .absent)
    (hflat : ¬∀ c ∈ cs, c.IsFlat) (r : List Cell) : definition (cs ++ r) = .absent := by
  have hnone : opening? cs = none := by
    rw [definition] at h
    split at h
    · assumption
    · split at h
      · exact absurd h (by simp)
      · split at h <;> exact absurd h (by simp)
  cases hr : opening? (cs ++ r) with
  | none => rw [definition, hr]
  | some found =>
    exfalso
    obtain ⟨head, rest⟩ := found
    obtain ⟨front, c, rfl, hc, hfront⟩ := exists_of_opening hr
    rcases List.append_eq_append_iff.1 (append_of_opening hr) with ⟨m, rfl, -⟩ | ⟨m, hm, -⟩
    · -- The heading is among the first cells, and would be found there.
      rw [opening?_replace hr m] at hnone
      exact absurd hnone (by simp)
    · -- It goes on behind them, so that they are flat.
      rcases List.eq_nil_or_concat m with rfl | ⟨m, d, rfl⟩
      · rw [List.append_nil] at hm
        rw [← hm, ← List.append_nil (front ++ [c]), opening?_replace hr []] at hnone
        exact absurd hnone (by simp)
      · rw [List.concat_eq_append, ← List.append_assoc] at hm
        obtain ⟨rfl, -⟩ := List.append_inj' hm rfl
        exact hflat fun x hx => hfront x (List.mem_append_left _ hx)

/-- A step over flat cells makes the statement longer. -/
theorem Step.read_of_flat {s s' : Statement} {p rest : List Cell} {es : List Excerpt}
    (h : Step s p rest es s') (hp : ∀ c ∈ p, c.IsFlat) : s'.read = p.reverse ++ s.read := by
  cases h with
  | semicolon hc => exact absurd hc (hp _ List.mem_cons_self).1
  | linkage hc | body hc | group hc => exact absurd hc (hp _ List.mem_cons_self).2.1
  | close hc => exact absurd hc (hp _ List.mem_cons_self).2.2
  | definition hw hr hk hd =>
    obtain ⟨front, last, rfl, hlast⟩ := (append_of_complete hd).2
    exact absurd hlast (hp last (by simp)).1
  | word | code => rfl

/-- A run over flat cells only makes the statement longer. -/
theorem Run.read_of_flat {s s' : Statement} {p rest : List Cell} {es : List Excerpt}
    (h : Run s p rest es s') (hp : ∀ c ∈ p, c.IsFlat) : s'.read = p.reverse ++ s.read := by
  induction h with
  | nil => rfl
  | @step s t s' p q rest es fs hstep _ ih =>
    simp only [List.mem_append] at hp
    rw [ih fun c hc => hp c (.inr hc), hstep.read_of_flat fun c hc => hp c (.inl hc),
      List.reverse_append, List.append_assoc]

/-- A step that leads to the end of a statement is a step whatever follows. -/
theorem Step.extend {s t s' : Statement} {p q : List Cell} {es fs : List Excerpt}
    (h : Step s p (q ++ []) es t) (hrun : Run t q [] fs s') (hblank : s'.IsBlank)
    (r : List Cell) : Step s p (q ++ r) es t := by
  rw [List.append_nil] at h
  cases h with
  | semicolon hc => exact .semicolon hc
  | linkage hc hl => exact .linkage hc hl
  | body hc hl hg hp => exact .body hc hl (group?_replace hg _) hp
  | group hc hl hg hp => exact .group hc hl (group?_replace hg _) hp
  | close hc => exact .close hc
  | definition hw hr hk hd =>
    have hne := ne_nil_of_complete hd
    exact .definition hw (mt (startsWord_append hne _).1 (mt (startsWord_append hne _).2 hr)) hk
      (definition_replace hd _)
  | word hw hr hk =>
    -- A word is part of a statement, so that more than flat code has to follow.
    have hflat : ¬∀ c ∈ q, c.IsFlat := by
      intro hq
      obtain ⟨c, w, rfl⟩ := List.exists_cons_of_ne_nil hw.1
      have hc : c ∈ s'.read := by
        rw [hrun.read_of_flat hq]
        simp [Statement.append]
      have hnot := isBlank_of_word (hw.2 c List.mem_cons_self)
      exact absurd (hblank c hc) (by simp [hnot])
    have hne : q ≠ [] := by
      rintro rfl
      exact hflat (by simp)
    exact .word hw (mt (startsWord_append hne r).1 hr)
      fun hw => definition_absent_append (hk hw) hflat r
  | code hc hw => exact .code hc hw

/-- A run to the end of the cells that leaves no statement begun is a run whatever follows. -/
theorem Run.extend {s s' : Statement} {p rest : List Cell} {es : List Excerpt}
    (h : Run s p rest es s') (hrest : rest = []) (hblank : s'.IsBlank) (r : List Cell) :
    Run s p r es s' := by
  induction h with
  | nil => exact .nil
  | step hs hrun ih =>
    subst hrest
    exact .step (hs.extend hrun hblank r) (ih rfl hblank)

/-! ### Reading on -/

/-- The same excerpt further on. -/
def Excerpt.shift (n : Nat) (e : Excerpt) : Excerpt :=
  { e with start := e.start + n }

@[simp]
theorem Excerpt.declaration_shift (n : Nat) (e : Excerpt) :
    (e.shift n).declaration = e.declaration.shift n :=
  rfl

@[simp]
theorem Excerpt.trimmed_shift (n : Nat) (e : Excerpt) :
    (e.shift n).trimmed = e.trimmed.shift n :=
  rfl

theorem eq_map_shift_of_alike {n : Nat} {es es' : List Excerpt}
    (h : List.Forall₂ (Excerpt.Alike Eq n) es es') : es' = es.map (·.shift n) := by
  induction h with
  | nil => rfl
  | @cons e e' _ _ he _ ih =>
    obtain ⟨hk, hc, hs⟩ := he
    rw [List.forall₂_eq_eq_eq] at hc
    have : e' = e.shift n := by
      cases e'
      simp_all [Excerpt.shift]
    rw [ih, this, List.map_cons]

theorem opensLinkage_of_alike {n : Nat} {s s' : Statement} (h : s.Alike Eq n s') :
    s'.opensLinkage = s.opensLinkage := by
  have hhead : s.head = s'.head := List.forall₂_eq_eq_eq ▸ h.head
  rw [Statement.opensLinkage, Statement.opensLinkage, hhead]

/-- Where no statement has begun, reading is where it is at the start of a text. -/
theorem Statement.IsFresh.alike {s : Statement} (h : s.IsFresh) :
    (Statement.startingAt 0).Alike Eq s.stop s := by
  have hhead : s.head = [] :=
    List.dropWhile_eq_nil_iff.2 fun c hc => h.2 c (List.mem_reverse.1 hc)
  exact ⟨(Nat.zero_add _).symm, h.1, hhead ▸ .nil⟩

theorem Statement.IsBlank.isFresh {s : Statement} (h : s.IsBlank) (hs : s.IsSound) :
    s.IsFresh := by
  refine ⟨?_, h⟩
  rw [← Bool.not_eq_true]
  intro hg
  obtain ⟨c, hc, hb⟩ := hs.brace hg
  exact absurd hb (isFlat_of_isBlank (h c hc)).2.1

/-- So a run from the start of a text is one from there too. -/
theorem Run.of_fresh {s t : Statement} {p rest : List Cell} {es : List Excerpt}
    (h : Run (.startingAt 0) p rest es t) (hs : s.IsFresh) :
    ∃ t', Run s p rest (es.map (·.shift s.stop)) t' ∧ t.Alike Eq s.stop t' := by
  have hcode : ∀ c c' : Cell, c = c' → c'.code = c.code := fun c c' h => h ▸ rfl
  obtain ⟨p', rest', es', t', happ, hp, hrest, hrun, hes, ht⟩ :=
    h.alike hcode hs.alike (Statement.isSound_startingAt 0) (List.forall₂_eq_eq_eq ▸ rfl)
      fun _ _ _ _ _ hu _ => opensLinkage_of_alike hu
  rw [List.forall₂_eq_eq_eq] at hp hrest
  subst hp hrest
  exact ⟨t', eq_map_shift_of_alike hes ▸ hrun, ht⟩

/-- The same is found there, only further on. -/
theorem found_of_fresh {s : Statement} (h : s.IsFresh) (blocks : Nat) (ds : List Cell) :
    (readFrom s blocks ds).found = (read ds).found.map (·.shift s.stop) := by
  have hcode : ∀ c c' : Cell, c = c' → c'.code = c.code := fun c c' h => h ▸ rfl
  obtain ⟨p, rest, fs, t, gs, w, rfl, hrun, hend⟩ := exists_run (.startingAt 0) ds
  obtain ⟨t', hrun', ht⟩ := hrun.of_fresh h
  obtain ⟨gs', hend', hgs⟩ :=
    hend.alike hcode ht (hrun.isSound (Statement.isSound_startingAt 0))
      (List.forall₂_eq_eq_eq ▸ rfl) fun _ _ _ => opensLinkage_of_alike ht
  rw [(readFrom_of_run hrun' hend' blocks).1, read, (readFrom_of_run hrun hend 0).1,
    eq_map_shift_of_alike hgs]
  simp [Function.comp_def]

/-- Where a run leaves no statement begun, reading goes on as from the start of a text. -/
theorem found_append_of_run {cs : List Cell} {es : List Excerpt} {s : Statement}
    (h : Run (.startingAt 0) cs [] es s) (hblank : s.IsBlank) (ds : List Cell) :
    (read (cs ++ ds)).found = (read cs).found ++ (read ds).found.map (·.shift cs.length) := by
  have hfresh := hblank.isFresh (h.isSound (Statement.isSound_startingAt 0))
  have hstop : s.stop = cs.length := by rw [h.stop_eq, Statement.startingAt, Nat.zero_add]
  obtain ⟨blocks, hfound, -⟩ := found_of_run (h.extend rfl hblank ds) 0
  have hfirst : (read cs).found = es.map Excerpt.declaration := by
    have hread := (readFrom_of_run h .done 0).1
    rwa [List.append_nil, List.map_nil, List.append_nil] at hread
  rw [hfirst, ← hstop, ← found_of_fresh hfresh blocks ds]
  exact hfound

/-! ### Texts whose lexemes are those of two texts -/

section Cut

variable {a b : String}
  (hlexemes : lexemes (encode (a ++ b)) = lexemes (encode a) ++ lexemes (encode b))

include hlexemes

theorem cells_append : cells (encode (a ++ b)) = cells (encode a) ++ cells (encode b) := by
  rw [cells, hlexemes, List.flatMap_append]
  rfl

theorem directives_append :
    directivesFrom 0 (lexemes (encode (a ++ b))) = directivesFrom 0 (lexemes (encode a)) ++
      (directivesFrom 0 (lexemes (encode b))).map (·.shift (encode a).length) := by
  have hsize : size (lexemes (encode a)) = (encode a).length := by
    rw [size, flatMap_bytes_lexemes]
  rw [hlexemes, directivesFrom_append, hsize, directivesFrom_add]

theorem found_append {es : List Excerpt} {s : Statement}
    (hrun : Run (.startingAt 0) (cells (encode a)) [] es s) (hblank : s.IsBlank) :
    (read (cells (encode (a ++ b)))).found = (read (cells (encode a))).found ++
      (read (cells (encode b))).found.map (·.shift (encode a).length) := by
  rw [cells_append hlexemes, ← length_cells]
  exact found_append_of_run hrun hblank (cells (encode b))

end Cut

/-! ### Closed texts -/

/-- Whether a text ends where a text could start: it is empty, or its last byte is a newline in
    code, reading its code comes to the end, and there is nothing but blanks behind the last
    statement. -/
def IsClosed (t : String) : Prop :=
  t = "" ∨ (lexemes (encode t)).getLast? = some .newline ∧
    ∃ es s, Run (.startingAt 0) (cells (encode t)) [] es s ∧ s.IsBlank

/-- The lexemes of a text behind a closed one are what they are without it. -/
theorem IsClosed.lexemes_append {a : String} (h : IsClosed a) (b : String) :
    lexemes (encode (a ++ b)) = lexemes (encode a) ++ lexemes (encode b) := by
  rw [encode_append]
  rcases h with rfl | ⟨hlast, -⟩
  · have hnil : lexemes (encode "") = [] := lexemes_nil
    rw [hnil]
    rfl
  · exact lexemesFrom_append hlast trivial (encode b)

theorem IsClosed.exists_run {a : String} (h : IsClosed a) :
    ∃ es s, Run (.startingAt 0) (cells (encode a)) [] es s ∧ s.IsBlank := by
  rcases h with rfl | ⟨-, h⟩
  · have hnil : cells (encode "") = [] := congrArg (List.flatMap Lexeme.cells) lexemes_nil
    have hblank : (Statement.startingAt 0).IsBlank := fun c hc => absurd hc List.not_mem_nil
    exact ⟨[], .startingAt 0, by rw [hnil]; exact .nil, hblank⟩
  · exact h

/-- Nothing is wrong with a closed text. -/
theorem IsClosed.warning_eq_none {a : String} (h : IsClosed a) :
    (read (cells (encode a))).warning = none := by
  obtain ⟨es, s, hrun, -⟩ := h.exists_run
  rw [← List.append_nil (cells (encode a))]
  exact (readFrom_of_run hrun .done 0).2

theorem IsClosed.directives_append {a : String} (h : IsClosed a) (b : String) :
    directivesFrom 0 (lexemes (encode (a ++ b))) = directivesFrom 0 (lexemes (encode a)) ++
      (directivesFrom 0 (lexemes (encode b))).map (·.shift (encode a).length) :=
  TestBench.Source.directives_append (h.lexemes_append b)

theorem IsClosed.found_append {a : String} (h : IsClosed a) (b : String) :
    (read (cells (encode (a ++ b)))).found = (read (cells (encode a))).found ++
      (read (cells (encode b))).found.map (·.shift (encode a).length) := by
  obtain ⟨es, s, hrun, hblank⟩ := h.exists_run
  exact TestBench.Source.found_append (h.lexemes_append b) hrun hblank

theorem inOrder_shift {ds : List Declaration} (h : InOrder ds) (n : Nat) :
    InOrder (ds.map (·.shift n)) :=
  List.pairwise_map.2 (h.imp fun h => Nat.add_lt_add_right h n)

/-- All declarations behind a closed text come behind those of the closed one. -/
theorem IsClosed.declarations_append {a : String} (h : IsClosed a) (b : String) :
    (extract (a ++ b)).declarations = (extract a).declarations ++
      (extract b).declarations.map (·.shift (encode a).length) := by
  refine declarations_eq (List.pairwise_append.2 ⟨inOrder_declarations a,
    inOrder_shift (inOrder_declarations b) _, fun d hd e he => ?_⟩) ?_
  · obtain ⟨e, -, rfl⟩ := List.mem_map.1 he
    exact Nat.lt_of_lt_of_le (order_lt_length hd) (Nat.le_add_left _ _)
  · have hb := (declarations_perm_found b).map (·.shift (encode a).length)
    rw [List.map_append] at hb
    rw [h.directives_append, h.found_append]
    refine ((declarations_perm_found a).append hb).trans ?_
    rw [List.append_assoc, List.append_assoc]
    exact List.Perm.append_left _ (List.perm_append_comm_assoc _ _ _)

/-- Behind a closed text, whatever follows is extracted as if it stood alone: each of the three
    lists is that of the closed text and behind it that of the other one, further on by the length
    of the closed text. -/
theorem extract_append {a : String} (h : IsClosed a) (b : String) :
    (extract (a ++ b)).directives = (extract a).directives ++
        (extract b).directives.map (·.shift (encode a).length) ∧
      (extract (a ++ b)).structsAndEnums = (extract a).structsAndEnums ++
        (extract b).structsAndEnums.map (·.shift (encode a).length) ∧
      (extract (a ++ b)).prototypes = (extract a).prototypes ++
        (extract b).prototypes.map (·.shift (encode a).length) := by
  have hkind : ∀ k : DeclarationKind, (read (cells (encode (a ++ b)))).found.filter (·.kind == k) =
      (read (cells (encode a))).found.filter (·.kind == k) ++
        ((read (cells (encode b))).found.filter (·.kind == k)).map
          (·.shift (encode a).length) := by
    intro k
    rw [h.found_append, List.filter_append, List.filter_map]
    rfl
  exact ⟨h.directives_append b, hkind .structOrEnum, hkind .prototype⟩

/-- A definition on a line of its own is closed. -/
theorem isClosed_definition : IsClosed "struct point { int x; };\n" := by
  have hinert : ∀ b ∈ encode "struct point { int x; };\n", IsInert b := by
    unfold IsInert
    decide +kernel
  have hcomplete : definition ((encode " point { int x; };").map .plain) =
      .complete ((encode " point { int x; };").map .plain) [] := by
    decide +kernel
  have hparted : ¬StartsWord ((encode " point { int x; };").map .plain) := by
    unfold StartsWord
    decide
  have hwhole : Whole .structOrEnum ([] ++ (encode "struct").map .plain ++ _) :=
    .definition (.inl rfl) ⟨by decide, by decide⟩ (.inl (by decide +kernel)) hparted hcomplete
  have hblank : ∀ c ∈ [Cell.plain newline], c.isBlank := by decide
  have hrun := (hwhole.run (Statement.isFresh_startingAt 0) _).append (run_blanks hblank _ [])
  have hcells : cells (encode "struct point { int x; };\n") = [] ++ (encode "struct").map .plain ++
      (encode " point { int x; };").map .plain ++ [.plain newline] := by
    rw [cells_of_inert hinert]
    decide +kernel
  rw [← hcells] at hrun
  have hlast : (lexemes (encode "struct point { int x; };\n")).getLast? = some .newline := by
    rw [lexemes_of_inert hinert]
    decide +kernel
  exact .inr ⟨hlast, _, _, hrun, hblank⟩

/-- So it makes no difference to a text behind it, even to one that is not well formed. -/
theorem extract_append_definition : IsClosed "struct point { int x; };\n" ∧
    (extract ("struct point { int x; };\n" ++ "\x7d struct \x7b")).directives =
      (extract "struct point { int x; };\n").directives ++
        (extract "\x7d struct \x7b").directives.map (·.shift 25) ∧
    (extract ("struct point { int x; };\n" ++ "\x7d struct \x7b")).structsAndEnums =
      (extract "struct point { int x; };\n").structsAndEnums ++
        (extract "\x7d struct \x7b").structsAndEnums.map (·.shift 25) ∧
    (extract ("struct point { int x; };\n" ++ "\x7d struct \x7b")).prototypes =
      (extract "struct point { int x; };\n").prototypes ++
        (extract "\x7d struct \x7b").prototypes.map (·.shift 25) :=
  ⟨isClosed_definition, extract_append isClosed_definition "\x7d struct \x7b"⟩

end TestBench.Source
