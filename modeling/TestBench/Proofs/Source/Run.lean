import TestBench.Proofs.Source.FileScope
import TestBench.Proofs.Source.Fragment

/-!
# Reading as a run of steps

Reading goes step by step (`Step`). Each step takes some of the cells in front, finds at most one
fragment (`Excerpt`) and leaves the statement that has been read so far. Steps make up a run
(`Run`), and reading is a run up to where it stops (`Stop`): at the end of the cells, at a brace
that nothing closes, or at a definition without an end. So what holds of every step holds of all
that is found.

* `exists_run`: reading is a run and a stop;
* `readFrom_of_run`: what a run and a stop find is what reading finds.
-/

namespace TestBench.Source

/-! ### Excerpts -/

/-- A fragment that is found: its kind, its cells and the offset of the first of them. -/
structure Excerpt where
  kind : DeclarationKind
  cells : List Cell
  start : Nat

/-- The declaration that an excerpt is. -/
def Excerpt.declaration (e : Excerpt) : Declaration :=
  ⟨e.kind, rawText e.cells, e.start⟩

/-- The declaration that an excerpt is without the blanks at its end. -/
def Excerpt.trimmed (e : Excerpt) : Declaration :=
  ⟨e.kind, Text.trimEnd (rawText e.cells), e.start⟩

/-! ### Steps -/

/-- Whether a word starts a definition, if a brace group follows. -/
def IsKeyword (w : List Cell) : Prop :=
  codeText w = "struct" ∨ codeText w = "enum"

namespace Statement

/-- What of the statement so far belongs to a definition that starts behind it. -/
def lead (s : Statement) : List Cell :=
  if s.isTypedef then s.head else []

/-- The statement with a brace group behind. -/
def pass (s : Statement) (group : List Cell) : Statement :=
  { s.append group with hasGroup := true }

/-- The statement with its semicolon, if that makes it a prototype. -/
def excerpt? (s : Statement) (last : Cell) : Option Excerpt :=
  if s.hasGroup || s.head.isEmpty then none
  else if isPrototype (codeText (s.head ++ [last])) then
    some ⟨.prototype, s.head ++ [last], s.headStart⟩
  else none

theorem prototype?_eq (s : Statement) (last : Cell) :
    s.prototype? last = (s.excerpt? last).map Excerpt.declaration := by
  rw [prototype?, excerpt?]
  split
  · rfl
  · split <;> rfl

/-- What a semicolon ends is found if the statement has met no group and is a prototype. -/
theorem eq_of_excerpt {s : Statement} {last : Cell} {e : Excerpt} (h : e ∈ s.excerpt? last) :
    s.hasGroup = false ∧ isPrototype (codeText (s.head ++ [last])) ∧
      e = ⟨.prototype, s.head ++ [last], s.headStart⟩ := by
  rw [excerpt?] at h
  split at h
  · cases h
  next hg =>
    rw [Bool.or_eq_true, not_or, Bool.not_eq_true] at hg
    split at h
    next hshape => exact ⟨hg.1, hshape, (Option.some.inj h).symm⟩
    · cases h

end Statement

/-- A step of reading: with `s` as the statement so far, it takes the cells `p` in front of
    `rest`, finds `es` and leaves `s'` as the statement so far. -/
inductive Step : Statement → List Cell → List Cell → List Excerpt → Statement → Prop
  | semicolon {s : Statement} {c : Cell} {rest : List Cell} (hc : c.code = semicolon) :
    Step s [c] rest (s.excerpt? c).toList (.startingAt (s.stop + 1))
  | linkage {s : Statement} {c : Cell} {rest : List Cell} (hc : c.code = openBrace)
      (hl : s.opensLinkage) : Step s [c] rest [] (.startingAt (s.stop + 1))
  | body {s : Statement} {c : Cell} {group rest : List Cell} (hc : c.code = openBrace)
      (hl : s.opensLinkage = false) (hg : group? 0 (group ++ rest) = some (group, rest))
      (hp : s.endsInParen) :
    Step s (c :: group) rest [] (.startingAt (s.stop + (c :: group).length))
  | group {s : Statement} {c : Cell} {group rest : List Cell} (hc : c.code = openBrace)
      (hl : s.opensLinkage = false) (hg : group? 0 (group ++ rest) = some (group, rest))
      (hp : s.endsInParen = false) : Step s (c :: group) rest [] (s.pass (c :: group))
  | close {s : Statement} {c : Cell} {rest : List Cell} (hc : c.code = closeBrace) :
    Step s [c] rest [] (.startingAt (s.stop + 1))
  | definition {s : Statement} {w cells rest : List Cell} (hw : IsWord w)
      (hr : ¬StartsWord (cells ++ rest)) (hk : IsKeyword w)
      (hd : definition (cells ++ rest) = .complete cells rest) :
    Step s (w ++ cells) rest
      [⟨.structOrEnum, s.lead ++ w ++ cells, s.stop - s.lead.length⟩]
      (.startingAt (s.stop + (w ++ cells).length))
  | word {s : Statement} {w rest : List Cell} (hw : IsWord w) (hr : ¬StartsWord rest)
      (hk : IsKeyword w → TestBench.Source.definition rest = .absent) :
    Step s w rest [] (s.append w)
  | code {s : Statement} {c : Cell} {rest : List Cell} (hc : c.IsFlat)
      (hw : isWordByte c.code = false) : Step s [c] rest [] (s.push c)

/-- A run: steps that take the cells `p` in front of `rest`, one behind the other. -/
inductive Run : Statement → List Cell → List Cell → List Excerpt → Statement → Prop
  | nil {s : Statement} {rest : List Cell} : Run s [] rest [] s
  | step {s s' s'' : Statement} {p q rest : List Cell} {es fs : List Excerpt} :
    Step s p (q ++ rest) es s' → Run s' q rest fs s'' → Run s (p ++ q) rest (es ++ fs) s''

/-- Where reading stops, what it still finds there, blanks at the end apart, and what is wrong. -/
inductive Stop : Statement → List Cell → List Excerpt → Option Warning → Prop
  | done {s : Statement} : Stop s [] [] none
  | unbalanced {s : Statement} {c : Cell} {rest : List Cell} (hc : c.code = openBrace)
      (hl : s.opensLinkage = false) (hg : group? 0 rest = none) :
    Stop s (c :: rest) [] (some (.unbalanced s.stop))
  | unterminated {s : Statement} {w rest : List Cell} (hw : IsWord w) (hr : ¬StartsWord rest)
      (hk : IsKeyword w) (hd : definition rest = .endless) :
    Stop s (w ++ rest) [⟨.structOrEnum, s.lead ++ w ++ rest, s.stop - s.lead.length⟩]
      (some (.unterminated (codeText w) (s.stop - s.lead.length)))

/-- Two runs one behind the other are a run. -/
theorem Run.append {s s' s'' : Statement} {p q rest : List Cell} {es fs : List Excerpt}
    (h : Run s p (q ++ rest) es s') (h' : Run s' q rest fs s'') :
    Run s (p ++ q) rest (es ++ fs) s'' := by
  generalize hr : q ++ rest = r at h
  induction h with
  | nil => exact h'
  | step hs _ ih =>
    subst hr
    rw [List.append_assoc, List.append_assoc]
    exact .step (by rwa [List.append_assoc]) (ih h' rfl)

theorem Step.run {s s' : Statement} {p rest : List Cell} {es : List Excerpt}
    (h : Step s p rest es s') : Run s p rest es s' := by
  have := Run.step (q := []) h .nil
  rwa [List.append_nil, List.append_nil] at this

/-- A run behind a step that finds nothing. -/
theorem Step.runOn {s s' s'' : Statement} {p q rest : List Cell} {fs : List Excerpt}
    (h : Step s p (q ++ rest) [] s') (h' : Run s' q rest fs s'') : Run s (p ++ q) rest fs s'' :=
  .step h h'

/-! ### Reading is a run and a stop -/

/-- A group anywhere else than behind a closing parenthesis belongs to the statement. -/
theorem readFrom_group (s : Statement) (blocks : Nat) {c : Cell} {g rest after : List Cell}
    (hc : c.code = openBrace) (hl : s.opensLinkage = false) (hp : s.endsInParen = false)
    (hg : group? 0 rest = some (g, after)) :
    readFrom s blocks (c :: rest) = readFrom (s.pass (c :: g)) blocks after := by
  have hpass : { (s.push c).append g with hasGroup := true } = s.pass (c :: g) := by
    simp [Statement.pass, Statement.push, Statement.append, Nat.add_assoc, Nat.add_comm 1]
  rw [readFrom.eq_def]
  simp only [hc, hl, hp, if_neg (show ¬openBrace = semicolon by decide), if_pos,
    Bool.false_eq_true, if_false]
  rw [hg]
  simp only [hpass]

theorem readFrom_semicolon (s : Statement) (blocks : Nat) {c : Cell} (hc : c.code = semicolon)
    (rest : List Cell) : readFrom s blocks (c :: rest) =
      { readFrom (.startingAt (s.stop + 1)) blocks rest with
        found := (s.prototype? c).toList ++
          (readFrom (.startingAt (s.stop + 1)) blocks rest).found } := by
  rw [readFrom.eq_def]
  cases hp : s.prototype? c <;> simp [hc, hp, Reading.cons]

/-- The brace of a block of C linkage is no group. -/
theorem readFrom_linkage (s : Statement) (blocks : Nat) {c : Cell} (hc : c.code = openBrace)
    (hl : s.opensLinkage) (rest : List Cell) :
    readFrom s blocks (c :: rest) = readFrom (.startingAt (s.stop + 1)) (blocks + 1) rest := by
  rw [readFrom.eq_def]
  simp [hc, hl, show openBrace ≠ semicolon by decide]

theorem readFrom_close (s : Statement) (blocks : Nat) {c : Cell} (hc : c.code = closeBrace)
    (rest : List Cell) :
    readFrom s blocks (c :: rest) = readFrom (.startingAt (s.stop + 1)) (blocks - 1) rest := by
  rw [readFrom.eq_def]
  simp [hc, show closeBrace ≠ semicolon by decide, show closeBrace ≠ openBrace by decide]

/-- At a brace that nothing closes, reading stops. -/
theorem readFrom_unbalanced (s : Statement) (blocks : Nat) {c : Cell} {rest : List Cell}
    (hc : c.code = openBrace) (hl : s.opensLinkage = false) (hg : group? 0 rest = none) :
    readFrom s blocks (c :: rest) = ⟨[], some (.unbalanced s.stop), blocks⟩ := by
  rw [readFrom.eq_def]
  simp only [hc, hl, if_neg (show ¬openBrace = semicolon by decide), if_pos, Bool.false_eq_true,
    if_false]
  rw [hg]

/-- At a definition without an end, reading stops. -/
theorem readFrom_unterminated (s : Statement) (blocks : Nat) {w rest : List Cell} (hw : IsWord w)
    (hr : ¬StartsWord rest) (hk : IsKeyword w) (hd : definition rest = .endless) :
    readFrom s blocks (w ++ rest) =
      ⟨[⟨.structOrEnum, Text.trimEnd (rawText (s.lead ++ w ++ rest)), s.stop - s.lead.length⟩],
        some (.unterminated (codeText w) (s.stop - s.lead.length)), blocks⟩ := by
  obtain ⟨hne, hw⟩ := hw
  obtain ⟨c, w, rfl⟩ := List.exists_cons_of_ne_nil hne
  rw [List.forall_mem_cons] at hw
  obtain ⟨hs, ho, hc⟩ := not_flat_of_word hw.1
  obtain ⟨htake, hdrop⟩ := takeWhile_word hw.2 hr
  rw [List.cons_append, readFrom.eq_def]
  simp only [if_neg hs, if_neg ho, if_neg hc, if_pos hw.1, htake, hdrop]
  rw [← hdrop] at hd
  unfold IsKeyword at hk
  rw [if_pos hk, hd]
  rfl

/-- Reading takes a step, or it stops. -/
theorem exists_step_or_stop (s : Statement) (cs : List Cell) :
    (∃ p rest es s', p ++ rest = cs ∧ p ≠ [] ∧ Step s p rest es s') ∨ ∃ fs w, Stop s cs fs w := by
  match cs with
  | [] => exact .inr ⟨_, _, .done⟩
  | c :: rest =>
    by_cases hs : c.code = semicolon
    · exact .inl ⟨[c], rest, _, _, rfl, by simp, .semicolon hs⟩
    by_cases ho : c.code = openBrace
    · cases hl : s.opensLinkage with
      | true => exact .inl ⟨[c], rest, _, _, rfl, by simp, .linkage ho hl⟩
      | false =>
        match hg : group? 0 rest with
        | none => exact .inr ⟨_, _, .unbalanced ho hl hg⟩
        | some (g, after) =>
          obtain rfl := append_of_group hg
          cases hp : s.endsInParen with
          | true => exact .inl ⟨c :: g, after, _, _, rfl, by simp, .body ho hl hg hp⟩
          | false => exact .inl ⟨c :: g, after, _, _, rfl, by simp, .group ho hl hg hp⟩
    by_cases hc : c.code = closeBrace
    · exact .inl ⟨[c], rest, _, _, rfl, by simp, .close hc⟩
    by_cases hw : isWordByte c.code
    · -- The whole word in front, and what follows it.
      obtain ⟨w, after, hwa, hword, hr⟩ : ∃ w after, w ++ after = c :: rest ∧ IsWord w ∧
          ¬StartsWord after := exists_word hw rest
      rw [← hwa]
      by_cases hk : IsKeyword w
      · match hd : definition after with
        | .absent => exact .inl ⟨w, after, _, _, rfl, hword.1, .word hword hr fun _ => hd⟩
        | .endless => exact .inr ⟨_, _, .unterminated hword hr hk hd⟩
        | .complete cells after' =>
          obtain ⟨rfl, _⟩ := append_of_complete hd
          exact .inl ⟨w ++ cells, after', _, _, List.append_assoc .., by simp [hword.1],
            .definition hword hr hk hd⟩
      · exact .inl ⟨w, after, _, _, rfl, hword.1, .word hword hr fun h => absurd h hk⟩
    · rw [Bool.not_eq_true] at hw
      exact .inl ⟨[c], rest, _, _, rfl, by simp, .code ⟨hs, ho, hc⟩ hw⟩

/-- Reading is a run and a stop. -/
theorem exists_run (s : Statement) (cs : List Cell) :
    ∃ p rest es s' fs w, p ++ rest = cs ∧ Run s p rest es s' ∧ Stop s' rest fs w := by
  induction hn : cs.length using Nat.strongRecOn generalizing cs s with
  | _ n ih =>
  rcases exists_step_or_stop s cs with ⟨p, rest, es, s', rfl, hp, hs⟩ | ⟨fs, w, h⟩
  · have hlen := List.length_pos_iff.2 hp
    rw [List.length_append] at hn
    obtain ⟨q, rest', _, s'', fs, w, rfl, hrun, hstop⟩ := ih rest.length (by omega) s' rest rfl
    exact ⟨p ++ q, rest', _, s'', fs, w, List.append_assoc .., .step hs hrun, hstop⟩
  · exact ⟨[], cs, [], s, fs, w, rfl, .nil, h⟩

/-- What a step finds is what reading finds there. -/
theorem found_of_step {s s' : Statement} {p rest : List Cell} {es : List Excerpt}
    (h : Step s p rest es s') (blocks : Nat) : ∃ blocks',
      (readFrom s blocks (p ++ rest)).found =
          es.map Excerpt.declaration ++ (readFrom s' blocks' rest).found ∧
        (readFrom s blocks (p ++ rest)).warning = (readFrom s' blocks' rest).warning := by
  cases h with
  | @semicolon c _ hc =>
    refine ⟨blocks, ?_⟩
    rw [List.singleton_append, readFrom_semicolon s blocks hc, s.prototype?_eq]
    exact ⟨by rw [Option.toList_map], rfl⟩
  | linkage hc hl =>
    refine ⟨blocks + 1, ?_⟩
    rw [List.singleton_append, readFrom_linkage s blocks hc hl]
    exact ⟨rfl, rfl⟩
  | body hc hl hg hp =>
    refine ⟨blocks, ?_⟩
    rw [List.cons_append, readFrom_function s blocks hc hl hp hg]
    exact ⟨rfl, rfl⟩
  | group hc hl hg hp =>
    refine ⟨blocks, ?_⟩
    rw [List.cons_append, readFrom_group s blocks hc hl hp hg]
    exact ⟨rfl, rfl⟩
  | close hc =>
    refine ⟨blocks - 1, ?_⟩
    rw [List.singleton_append, readFrom_close s blocks hc]
    exact ⟨rfl, rfl⟩
  | definition hw hr hk hd =>
    refine ⟨blocks, ?_⟩
    rw [List.append_assoc, readFrom_definition s blocks hw.2 hr hk hd]
    exact ⟨rfl, rfl⟩
  | word hw hr hk =>
    refine ⟨blocks, ?_⟩
    rw [readFrom_word s blocks hw.1 hw.2 hr hk]
    exact ⟨rfl, rfl⟩
  | code hc hw =>
    refine ⟨blocks, ?_⟩
    rw [List.singleton_append, readFrom_push s blocks hc hw]
    exact ⟨rfl, rfl⟩

theorem found_of_run {s s' : Statement} {p rest : List Cell} {es : List Excerpt}
    (h : Run s p rest es s') (blocks : Nat) : ∃ blocks',
      (readFrom s blocks (p ++ rest)).found =
          es.map Excerpt.declaration ++ (readFrom s' blocks' rest).found ∧
        (readFrom s blocks (p ++ rest)).warning = (readFrom s' blocks' rest).warning := by
  induction h generalizing blocks with
  | nil => exact ⟨blocks, rfl, rfl⟩
  | step hs _ ih =>
    obtain ⟨blocks₁, hf, hw⟩ := found_of_step hs blocks
    obtain ⟨blocks₂, hf', hw'⟩ := ih blocks₁
    rw [List.append_assoc, hf, hw, hf', hw', List.map_append, ← List.append_assoc]
    exact ⟨blocks₂, rfl, rfl⟩

/-- Where reading stops it finds no more than this. -/
theorem found_of_stop {s : Statement} {rest : List Cell} {fs : List Excerpt}
    {w : Option Warning} (h : Stop s rest fs w) (blocks : Nat) :
    (readFrom s blocks rest).found = fs.map Excerpt.trimmed ∧
      (readFrom s blocks rest).warning = w := by
  cases h with
  | done =>
    rw [readFrom]
    exact ⟨rfl, rfl⟩
  | unbalanced hc hl hg =>
    rw [readFrom_unbalanced s blocks hc hl hg]
    exact ⟨rfl, rfl⟩
  | unterminated hw hr hk hd =>
    rw [readFrom_unterminated s blocks hw hr hk hd]
    exact ⟨rfl, rfl⟩

/-- A run and a stop behind it are what reading does. -/
theorem readFrom_of_run {s s' : Statement} {p rest : List Cell} {es fs : List Excerpt}
    {w : Option Warning} (h : Run s p rest es s') (h' : Stop s' rest fs w) (blocks : Nat) :
    (readFrom s blocks (p ++ rest)).found =
        es.map Excerpt.declaration ++ fs.map Excerpt.trimmed ∧
      (readFrom s blocks (p ++ rest)).warning = w := by
  obtain ⟨blocks', hf, hw⟩ := found_of_run h blocks
  obtain ⟨hf', hw'⟩ := found_of_stop h' blocks'
  rw [hf, hw, hf', hw']
  exact ⟨rfl, rfl⟩

end TestBench.Source
