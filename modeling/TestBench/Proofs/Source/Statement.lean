import Mathlib.Computability.StateTransition
import TestBench.Proofs.Source.Nesting

/-!
# Statements

Which statement at file scope an offset of the code is in (`InStatement`), told cell by cell and
without a word or a fragment being looked for: one starts at the front of the text, behind a
semicolon, behind a closing brace that closes nothing, behind the brace that opens a block of C
linkage and behind the group that is the body of a function, which is one behind a closing
parenthesis. Any other group is passed as a whole.

What is found as a definition has its keyword in such a statement, and the `typedef` in front
belongs to it if that is all the code which the statement has in front of the keyword.

* `InStatement.unique`: no offset is in two statements;
* `Run.reaches`: the statement that reading has come to is the one which the offset is in;
* `extract_typedef`: where the fragment of a definition begins in its statement.
-/

namespace TestBench.Source

open Utf8

/-! ### Where statements start -/

/-- The statement from one offset up to another. -/
def statementFrom (cs : List Cell) (start p : Nat) : Statement :=
  (Statement.startingAt start).append (cs.extract start p)

/-- Where the code goes on behind what stands at the offset `p` of a statement that starts at
    `start`, and where the statement starts which it is in there. -/
def next? (cs : List Cell) : Nat × Nat → Option (Nat × Nat)
  | (start, p) => cs[p]?.bind fun c =>
    if c.code = semicolon ∨ c.code = closeBrace then some (p + 1, p + 1)
    else if c.code = openBrace then
      if (statementFrom cs start p).opensLinkage then some (p + 1, p + 1)
      else (matchingBrace? cs p).map fun q =>
        if (statementFrom cs start p).endsInParen then (q + 1, q + 1) else (start, q + 1)
    else some (start, p + 1)

/-- Whether the offset `p` is in the statement at file scope that starts at `start`. -/
def InStatement (cs : List Cell) (start p : Nat) : Prop :=
  StateTransition.Reaches (next? cs) (0, 0) (start, p)

theorem lt_of_next {cs : List Cell} {a b : Nat × Nat} (h : next? cs a = some b) : a.2 < b.2 := by
  obtain ⟨start, p⟩ := a
  rw [next?, Option.bind_eq_some_iff] at h
  obtain ⟨c, -, h⟩ := h
  have hp : p < p + 1 := Nat.lt_succ_self p
  split at h
  · obtain rfl := Option.some.inj h
    exact hp
  split at h
  · split at h
    · obtain rfl := Option.some.inj h
      exact hp
    · obtain ⟨q, hq, rfl⟩ := Option.map_eq_some_iff.1 h
      obtain ⟨g, -, rfl⟩ := Option.map_eq_some_iff.1 hq
      split <;> exact Nat.lt_succ_of_le (Nat.le_add_right ..)
  · obtain rfl := Option.some.inj h
    exact hp

theorem eq_or_lt_of_reaches {cs : List Cell} {a b : Nat × Nat}
    (h : StateTransition.Reaches (next? cs) a b) : a = b ∨ a.2 < b.2 := by
  induction h with
  | refl => exact .inl rfl
  | tail _ hstep ih =>
    rcases ih with rfl | hlt
    · exact .inr (lt_of_next hstep)
    · exact .inr (hlt.trans (lt_of_next hstep))

/-- No offset is in two statements. -/
theorem InStatement.unique {cs : List Cell} {start start' p : Nat} (h : InStatement cs start p)
    (h' : InStatement cs start' p) : start = start' := by
  -- One of them leads to the other, and all that does so stands further back.
  rcases StateTransition.reaches_total h h' with h | h
  · rcases eq_or_lt_of_reaches h with h | h
    · exact congrArg Prod.fst h
    · exact absurd h (Nat.lt_irrefl p)
  · rcases eq_or_lt_of_reaches h with h | h
    · exact (congrArg Prod.fst h).symm
    · exact absurd h (Nat.lt_irrefl p)

/-! ### The statement that reading has come to -/

/-- Whether the code in front of `rest` ends in the statement `s`, which starts behind `base`. -/
structure Reaches (cs base : List Cell) (s : Statement) (rest : List Cell) : Prop where
  eq : cs = base ++ (s.read.reverse ++ rest)
  stop : s.stop = (base ++ s.read.reverse).length
  inStatement : InStatement cs base.length s.stop

theorem Statement.opensLinkage_congr {s s' : Statement} (h : s.read = s'.read) :
    s.opensLinkage = s'.opensLinkage := by
  rw [opensLinkage, opensLinkage, head, head, h]

theorem Statement.endsInParen_congr {s s' : Statement} (h : s.read = s'.read) :
    s.endsInParen = s'.endsInParen := by
  rw [endsInParen, endsInParen, h]

namespace Reaches

variable {cs base p rest : List Cell} {s s' : Statement} {c : Cell}

theorem read_statementFrom (h : Reaches cs base s rest) :
    (statementFrom cs base.length s.stop).read = s.read := by
  have hread : cs.extract base.length s.stop = s.read.reverse := by
    rw [h.eq, h.stop]
    exact extract_middle ..
  simp [statementFrom, Statement.append, Statement.startingAt, hread]

theorem getElem?_stop (h : Reaches cs base s (c :: rest)) : cs[s.stop]? = some c := by
  rw [h.eq, h.stop, ← List.append_assoc, List.getElem?_append_right (Nat.le_refl _), Nat.sub_self]
  rfl

/-- What stands behind the statement so far decides how the code goes on. -/
theorem next?_eq (h : Reaches cs base s (c :: rest)) : next? cs (base.length, s.stop) =
    if c.code = semicolon ∨ c.code = closeBrace then some (s.stop + 1, s.stop + 1)
    else if c.code = openBrace then
      if s.opensLinkage then some (s.stop + 1, s.stop + 1)
      else (group? 0 rest).map fun g =>
        if s.endsInParen then (s.stop + (c :: g.1).length, s.stop + (c :: g.1).length)
        else (base.length, s.stop + (c :: g.1).length)
    else some (base.length, s.stop + 1) := by
  have hdrop : cs.drop (s.stop + 1) = rest := by
    rw [h.eq, h.stop, ← List.append_assoc, ← List.drop_drop, List.drop_left]
    rfl
  rw [next?, h.getElem?_stop, Option.bind_some, Statement.opensLinkage_congr h.read_statementFrom,
    Statement.endsInParen_congr h.read_statementFrom, matchingBrace?, hdrop, Option.map_map]
  rfl

/-- A statement ends, and the next one starts. -/
theorem restart (h : Reaches cs base s (p ++ rest))
    (hnext : next? cs (base.length, s.stop) = some (s.stop + p.length, s.stop + p.length)) :
    Reaches cs (base ++ (s.read.reverse ++ p)) (.startingAt (s.stop + p.length)) rest := by
  have hlen : s.stop + p.length = (base ++ (s.read.reverse ++ p)).length := by
    simp only [h.stop, List.length_append, Nat.add_assoc]
  refine ⟨by simp [h.eq, Statement.startingAt], by simp [hlen, Statement.startingAt], ?_⟩
  rw [← hlen]
  exact h.inStatement.tail hnext

/-- A statement goes on. -/
theorem extend (h : Reaches cs base s (p ++ rest))
    (hnext : next? cs (base.length, s.stop) = some (base.length, s.stop + p.length))
    (hread : s'.read = p.reverse ++ s.read) (hstop : s'.stop = s.stop + p.length) :
    Reaches cs base s' rest := by
  refine ⟨by simp [h.eq, hread], ?_, hstop ▸ h.inStatement.tail hnext⟩
  rw [hstop, h.stop, hread, List.reverse_append, List.reverse_reverse]
  simp only [List.length_append, Nat.add_assoc]

/-- A semicolon ends the statement, and so does a closing brace that closes nothing. -/
theorem terminator (h : Reaches cs base s (c :: rest))
    (hc : c.code = semicolon ∨ c.code = closeBrace) :
    Reaches cs (base ++ (s.read.reverse ++ [c])) (.startingAt (s.stop + 1)) rest :=
  restart (p := [c]) h (by rw [h.next?_eq, if_pos hc]; rfl)

theorem linkage (h : Reaches cs base s (c :: rest)) (hc : c.code = openBrace)
    (hl : s.opensLinkage) :
    Reaches cs (base ++ (s.read.reverse ++ [c])) (.startingAt (s.stop + 1)) rest := by
  refine restart (p := [c]) h ?_
  rw [h.next?_eq, if_neg (by rw [hc]; decide), if_pos hc, if_pos hl]
  rfl

theorem next?_group {g : List Cell} (h : Reaches cs base s (c :: (g ++ rest)))
    (hc : c.code = openBrace) (hl : s.opensLinkage = false)
    (hg : group? 0 (g ++ rest) = some (g, rest)) : next? cs (base.length, s.stop) =
      some (if s.endsInParen then (s.stop + (c :: g).length, s.stop + (c :: g).length)
        else (base.length, s.stop + (c :: g).length)) := by
  rw [h.next?_eq, if_neg (by rw [hc]; decide), if_pos hc, if_neg (by simp [hl]), hg]
  rfl

/-- The body of a function ends the statement. -/
theorem body {g : List Cell} (h : Reaches cs base s (c :: (g ++ rest))) (hc : c.code = openBrace)
    (hl : s.opensLinkage = false) (hg : group? 0 (g ++ rest) = some (g, rest))
    (hp : s.endsInParen) : Reaches cs (base ++ (s.read.reverse ++ c :: g))
      (.startingAt (s.stop + (c :: g).length)) rest :=
  restart (p := c :: g) h (by rw [h.next?_group hc hl hg, if_pos hp])

theorem group {g : List Cell} (h : Reaches cs base s (c :: (g ++ rest))) (hc : c.code = openBrace)
    (hl : s.opensLinkage = false) (hg : group? 0 (g ++ rest) = some (g, rest))
    (hp : s.endsInParen = false) : Reaches cs base (s.pass (c :: g)) rest :=
  extend (p := c :: g) h (by rw [h.next?_group hc hl hg, if_neg (by simp [hp])]) rfl rfl

theorem flat (h : Reaches cs base s (p ++ rest)) (hp : ∀ c ∈ p, c.IsFlat) :
    Reaches cs base (s.append p) rest := by
  induction p generalizing s with
  | nil => simpa [Statement.append] using h
  | cons c p ih =>
    rw [List.forall_mem_cons] at hp
    obtain ⟨⟨hs, ho, hc⟩, hp⟩ := hp
    have hone : Reaches cs base (s.append [c]) (p ++ rest) :=
      extend (p := [c]) h (by rw [h.next?_eq, if_neg (by simp [hs, hc]), if_neg ho]; rfl) rfl rfl
    rw [show s.append (c :: p) = (s.append [c]).append p from (s.append_append [c] p).symm]
    exact ih hone hp

end Reaches

/-! ### Behind a definition -/

/-- A search for a semicolon passes a group. -/
theorem toSemicolon?_group {k : Nat} {cs g rest : List Cell} (h : group? k cs = some (g, rest))
    (depth : Nat) (r : List Cell) : toSemicolon? (depth + k + 1) (g ++ r) =
      (toSemicolon? depth r).map fun found => (g ++ found.1, found.2) := by
  fun_induction group? k cs generalizing g with
  | case1 => simp at h
  | case2 k c cs ho ih =>
    obtain ⟨g, rfl, hg⟩ := exists_of_map_cons h
    rw [List.cons_append, toSemicolon?, if_neg (by simp)]
    simp only [if_pos ho]
    rw [Nat.add_assoc depth, ih hg, Option.map_map]
    rfl
  | case3 c cs ho hc =>
    obtain ⟨rfl, rfl⟩ := Prod.mk.inj (Option.some.inj h)
    rw [List.cons_append, toSemicolon?, if_neg (by simp)]
    simp only [if_neg ho, if_pos hc]
    rfl
  | case4 c cs ho hc k ih =>
    obtain ⟨g, rfl, hg⟩ := exists_of_map_cons h
    rw [List.cons_append, toSemicolon?, if_neg (by simp)]
    simp only [if_neg ho, if_pos hc]
    rw [show depth + (k + 1) + 1 - 1 = depth + k + 1 by omega, ih hg, Option.map_map]
    rfl
  | case5 k c cs ho hc ih =>
    obtain ⟨g, rfl, hg⟩ := exists_of_map_cons h
    rw [List.cons_append, toSemicolon?, if_neg (by simp)]
    simp only [if_neg ho, if_neg hc]
    rw [ih hg, Option.map_map]
    rfl

theorem toSemicolon_behind_group {depth : Nat} {g q rest after : List Cell}
    (hg : group? 0 (g ++ q) = some (g, q))
    (h : toSemicolon? (depth + 1) (g ++ (q ++ rest)) = some (g ++ q, after)) :
    toSemicolon? depth (q ++ rest) = some (q, after) := by
  have hpass := toSemicolon?_group hg depth (q ++ rest)
  rw [Nat.add_zero, h] at hpass
  obtain ⟨⟨q', after'⟩, hfound, he⟩ := Option.map_eq_some_iff.1 hpass.symm
  obtain ⟨hq, rfl⟩ := Prod.mk.inj he
  obtain rfl := List.append_cancel_left hq
  exact hfound

/-- A definition goes up to the first semicolon outside its groups. -/
theorem toSemicolon_of_complete {cs cells rest : List Cell}
    (h : definition cs = .complete cells rest) :
    toSemicolon? 0 (cells ++ rest) = some (cells, rest) := by
  obtain ⟨head, body, tail, rfl, ho, hg, hs⟩ := definition_eq_complete h
  obtain ⟨front, c, rfl, hc, hfront⟩ := exists_of_opening ho
  rw [List.append_assoc, List.append_assoc, List.append_assoc, toSemicolon?_flat hfront,
    List.singleton_append, toSemicolon?, if_neg (by rw [hc]; decide)]
  simp only [if_pos hc]
  rw [show 0 + 1 = 0 + 0 + 1 from rfl, toSemicolon?_group hg, hs]
  simp

/-- A search for a semicolon that goes on behind a cell goes on behind the group that opens with it,
    or behind the cell itself. So it is with the statements, whatever the depth of the search is:
    a brace that opens a block of C linkage is passed alone. -/
theorem Reaches.exists_later {cs base q rest : List Cell} {depth : Nat} {s : Statement} {c : Cell}
    (h : toSemicolon? depth (c :: (q ++ rest)) = some (c :: q, rest))
    (hr : Reaches cs base s (c :: (q ++ rest))) (hs : ¬(c.code = semicolon ∧ depth = 0)) :
    ∃ depth base' s' q', q'.length ≤ q.length ∧
      toSemicolon? depth (q' ++ rest) = some (q', rest) ∧ Reaches cs base' s' (q' ++ rest) ∧
      s'.stop + q'.length = s.stop + (c :: q).length := by
  have hclosed := (isMatched_toSemicolon h).1 [] c q rfl
  rw [toSemicolon?, if_neg hs] at h
  obtain ⟨q₁, hq₁, h⟩ := exists_of_map_cons h
  obtain rfl := (List.cons.inj hq₁).2
  have hone : s.stop + 1 + q.length = s.stop + (c :: q).length := by
    rw [List.length_cons]
    omega
  by_cases hend : c.code = semicolon ∨ c.code = closeBrace
  · exact ⟨_, _, _, q, Nat.le_refl _, h, hr.terminator hend, hone⟩
  by_cases ho : c.code = openBrace
  · cases hl : s.opensLinkage with
    | true => exact ⟨_, _, _, q, Nat.le_refl _, h, hr.linkage ho hl, hone⟩
    | false =>
      obtain ⟨⟨g, q'⟩, hg⟩ := Option.isSome_iff_exists.1 (hclosed ho)
      obtain rfl := append_of_group hg
      rw [if_pos ho, List.append_assoc] at h
      have h := toSemicolon_behind_group hg h
      have hg := group?_replace hg (q' ++ rest)
      rw [List.append_assoc] at hr
      have hstop : s.stop + (c :: g).length + q'.length = s.stop + (c :: (g ++ q')).length := by
        simp only [List.length_cons, List.length_append]
        omega
      have hle : q'.length ≤ (g ++ q').length := by
        rw [List.length_append]
        omega
      cases hp : s.endsInParen with
      | true => exact ⟨_, _, _, q', hle, h, hr.body ho hl hg hp, hstop⟩
      | false => exact ⟨_, _, _, q', hle, h, hr.group ho hl hg hp, hstop⟩
  · rw [not_or] at hend
    rw [if_neg ho, if_neg hend.2] at h
    have hflat : ∀ x ∈ [c], x.IsFlat := List.forall_mem_singleton.2 ⟨hend.1, ho, hend.2⟩
    exact ⟨_, _, _, q, Nat.le_refl _, h, hr.flat hflat, hone⟩

/-- Behind the semicolon that a search has found a statement starts, whatever statements there are
    in what it has passed. -/
theorem Reaches.behind {cs : List Cell} {depth : Nat} {q rest base : List Cell} {s : Statement}
    (h : toSemicolon? depth (q ++ rest) = some (q, rest)) (hr : Reaches cs base s (q ++ rest)) :
    ∃ base', Reaches cs base' (.startingAt (s.stop + q.length)) rest := by
  induction hn : q.length using Nat.strongRecOn generalizing q depth base s with
  | _ n ih =>
  cases q with
  | nil =>
    have hlt := length_toSemicolon_lt h
    exact absurd hlt (Nat.lt_irrefl _)
  | cons c q =>
    subst hn
    by_cases hs : c.code = semicolon ∧ depth = 0
    · -- The semicolon itself.
      rw [List.cons_append, toSemicolon?, if_pos hs] at h
      obtain ⟨hq, -⟩ := Prod.mk.inj (Option.some.inj h)
      obtain rfl := (List.cons.inj hq).2.symm
      exact ⟨_, hr.terminator (.inl hs.1)⟩
    · obtain ⟨depth', base', s', q', hle, h, hr, hstop⟩ := hr.exists_later h hs
      rw [← hstop]
      exact ih q'.length (Nat.lt_succ_of_le hle) h hr rfl

/-! ### The statements of a run -/

theorem reaches_start (cs : List Cell) : Reaches cs [] (.startingAt 0) cs :=
  ⟨rfl, rfl, .refl⟩

/-- What a step leaves as the statement so far is what its last cell is in. -/
theorem Step.reaches {s s' : Statement} {p rest cs base : List Cell} {es : List Excerpt}
    (h : Step s p rest es s') (hr : Reaches cs base s (p ++ rest)) :
    ∃ base', Reaches cs base' s' rest := by
  cases h with
  | semicolon hc => exact ⟨_, hr.terminator (.inl hc)⟩
  | linkage hc hl => exact ⟨_, hr.linkage hc hl⟩
  | body hc hl hg hp => exact ⟨_, hr.body hc hl hg hp⟩
  | group hc hl hg hp => exact ⟨_, hr.group hc hl hg hp⟩
  | close hc => exact ⟨_, hr.terminator (.inr hc)⟩
  | definition hw _ _ hd =>
    rw [List.append_assoc] at hr
    have hbehind := (hr.flat fun c hc => not_flat_of_word (hw.2 c hc)).behind
      (toSemicolon_of_complete hd)
    rwa [Statement.append, Nat.add_assoc, ← List.length_append] at hbehind
  | word hw => exact ⟨_, hr.flat fun c hc => not_flat_of_word (hw.2 c hc)⟩
  | code hc => exact ⟨_, hr.flat (p := [_]) (List.forall_mem_singleton.2 hc)⟩

theorem Run.reaches {s s' : Statement} {p rest cs base : List Cell} {es : List Excerpt}
    (h : Run s p rest es s') (hr : Reaches cs base s (p ++ rest)) :
    ∃ base', Reaches cs base' s' rest := by
  induction h generalizing base with
  | nil => exact ⟨base, hr⟩
  | step hstep _ ih =>
    rw [List.append_assoc] at hr
    obtain ⟨_, hr⟩ := hstep.reaches hr
    exact ih hr

/-- A run does not end inside a word. -/
theorem Run.parted {s s' : Statement} {p rest : List Cell} {es : List Excerpt}
    (h : Run s p rest es s')
    (hs : ∀ c ∈ s.read.head?, isWordByte c.code → ¬StartsWord (p ++ rest)) :
    ∀ c ∈ s'.read.head?, isWordByte c.code → ¬StartsWord rest := by
  induction h with
  | nil => exact hs
  | step hstep _ ih => exact ih hstep.parted

/-! ### The front of a statement -/

/-- The word at an offset of the code. -/
def wordAt (cs : List Cell) (p : Nat) : List UInt8 :=
  ((cs.drop p).takeWhile (isWordByte ·.code)).map Cell.code

/-- The offset of the first code of the statement that starts at an offset. -/
def firstCode (cs : List Cell) (start : Nat) : Nat :=
  start + ((cs.drop start).takeWhile Cell.isBlank).length

/-- Whether the first word of a statement is `typedef`, and no code but this word stands in front
    of the offset `p`: comments and directives may. -/
structure OnlyTypedef (cs : List Cell) (start p : Nat) : Prop where
  word : wordAt cs (firstCode cs start) = encode "typedef"
  blank : ∀ c ∈ cs.extract (firstCode cs start + (encode "typedef").length) p, c.isBlank

/-- Where a definition starts, at its keyword `w`, and what it takes along from its statement. -/
structure Opens (cs base : List Cell) (s : Statement) (w rest : List Cell) : Prop
    extends Reaches cs base s (w ++ rest) where
  isWord : IsWord w
  isKeyword : IsKeyword w
  ends : ¬StartsWord rest
  parted : ∀ c ∈ s.read.head?, isWordByte c.code → ¬StartsWord (w ++ rest)

/-- Words are ASCII. -/
theorem lt_of_isWordByte {b : UInt8} (h : isWordByte b) : b < 0x80 := by
  simp only [isWordByte, Bool.or_eq_true, Bool.and_eq_true, decide_eq_true_eq, beq_iff_eq,
    UInt8.le_iff_toNat_le, ← UInt8.toNat_inj] at h
  rw [UInt8.lt_iff_toNat_lt]
  simp at h ⊢
  omega

theorem code_of_keyword {w : List Cell} (hw : IsWord w) (hk : IsKeyword w) :
    w.map Cell.code = encode "struct" ∨ w.map Cell.code = encode "enum" := by
  have hascii : IsText (w.map Cell.code) :=
    isText_of_ascii (List.forall_mem_map.2 fun c hc => lt_of_isWordByte (hw.2 c hc))
  rw [← encode_lossy hascii]
  exact hk.imp (congrArg encode) (congrArg encode)

/-- The word at an offset is the one that ends where the code goes on without it. -/
theorem wordAt_append (front : List Cell) {w rest : List Cell} (hw : ∀ c ∈ w, isWordByte c.code)
    (hrest : ¬StartsWord rest) :
    wordAt (front ++ (w ++ rest)) front.length = w.map Cell.code := by
  rw [wordAt, List.drop_left, (takeWhile_word hw hrest).1]

namespace Opens

variable {cs base w rest : List Cell} {s : Statement}

/-- In front of the keyword stands the code that the statement has so far. -/
theorem exists_front (h : Opens cs base s w rest) : ∃ front,
    cs = front ++ (s.head ++ (w ++ rest)) ∧ firstCode cs base.length = front.length ∧
      s.stop = (front ++ s.head).length := by
  have hsplit : s.read.reverse.takeWhile Cell.isBlank ++ s.head = s.read.reverse :=
    List.takeWhile_append_dropWhile
  -- The first code is that of the statement so far, or the keyword.
  have hfirst : (s.head ++ (w ++ rest)).takeWhile Cell.isBlank = [] := by
    cases hhead : s.head with
    | nil =>
      obtain ⟨c, hc, hw⟩ := h.isWord.startsWord rest
      obtain ⟨cs, hcs⟩ := List.head?_eq_some_iff.1 hc
      rw [List.nil_append, hcs, List.takeWhile_cons_of_neg (by simp [isBlank_of_word hw])]
    | cons c cs =>
      have hc := List.head?_dropWhile_not Cell.isBlank s.read.reverse
      rw [show s.read.reverse.dropWhile Cell.isBlank = c :: cs from hhead] at hc
      rw [List.cons_append, List.takeWhile_cons_of_neg (by simpa using hc)]
  refine ⟨base ++ s.read.reverse.takeWhile Cell.isBlank, ?_, ?_, ?_⟩
  · rw [h.eq, ← hsplit, List.append_assoc, List.append_assoc, hsplit]
  · rw [firstCode, h.eq, List.drop_left, ← hsplit, List.append_assoc,
      List.takeWhile_append_of_pos fun c hc => List.mem_takeWhile_imp hc, hsplit, hfirst,
      List.append_nil, List.length_append]
  · rw [h.stop, List.append_assoc, hsplit]

/-- The word at the keyword is the keyword. -/
theorem wordAt_stop (h : Opens cs base s w rest) : wordAt cs s.stop = w.map Cell.code := by
  rw [h.eq, h.stop, ← List.append_assoc]
  exact wordAt_append _ h.isWord.2 h.ends

/-- The code in front of the keyword does not end in a word. -/
theorem exists_not_word (h : Opens cs base s w rest) (hne : s.head ≠ []) :
    ∃ c ∈ s.head, ¬isWordByte c.code := by
  obtain ⟨u, c, hhead⟩ := (List.eq_nil_or_concat s.head).resolve_left hne
  obtain ⟨front, hfront⟩ := s.head_suffix
  rw [List.concat_eq_append] at hhead
  have hlast : c ∈ s.read.head? := by
    rw [← List.getLast?_reverse, ← hfront, hhead, ← List.append_assoc, List.getLast?_concat]
    rfl
  exact ⟨c, by rw [hhead]; simp, fun hc => h.parted c hlast hc (h.isWord.startsWord rest)⟩

/-- What the statement so far has behind a `typedef` stands between this word and the keyword. -/
theorem extract_behind (h : Opens cs base s w rest) {u v : List Cell} (hhead : s.head = u ++ v)
    (hu : u.map Cell.code = encode "typedef") :
    cs.extract (firstCode cs base.length + (encode "typedef").length) s.stop = v := by
  obtain ⟨front, hcs, hfirst, hstop⟩ := h.exists_front
  rw [hfirst, hstop, hcs, hhead, ← hu, List.length_map, ← List.length_append, List.append_assoc,
    ← List.append_assoc front u v, ← List.append_assoc front u]
  exact extract_middle ..

theorem onlyTypedef_of_isTypedef (h : Opens cs base s w rest) (ht : s.isTypedef) :
    OnlyTypedef cs base.length s.stop := by
  obtain ⟨front, hcs, hfirst, -⟩ := h.exists_front
  obtain ⟨u, gap, hhead, hu, hgap⟩ := s.exists_of_isTypedef ht
  have hword := isWord_typedef hu
  -- The word ends in front of the keyword, so that there is a blank behind it.
  obtain ⟨b, gap, rfl⟩ : ∃ b gap', gap = b :: gap' := by
    refine List.exists_cons_of_ne_nil ?_
    rintro rfl
    rw [List.append_nil] at hhead
    obtain ⟨c, hc, hno⟩ := h.exists_not_word (hhead ▸ hword.1)
    exact hno (hword.2 c (hhead ▸ hc))
  have hb := not_word_of_isBlank (hgap b List.mem_cons_self)
  refine ⟨?_, by rwa [h.extract_behind hhead hu]⟩
  rw [hfirst, hcs, hhead, List.append_assoc, List.cons_append,
    wordAt_append front hword.2 (not_startsWord_cons hb _), hu]

theorem isTypedef_of_onlyTypedef (h : Opens cs base s w rest)
    (honly : OnlyTypedef cs base.length s.stop) : s.isTypedef := by
  obtain ⟨front, hcs, hfirst, -⟩ := h.exists_front
  have hword := honly.word
  rw [hfirst, hcs] at hword
  by_cases hnil : s.head = []
  · -- Then the first word is the keyword.
    rw [hnil, List.nil_append, wordAt_append front h.isWord.2 h.ends] at hword
    rcases code_of_keyword h.isWord h.isKeyword with hk | hk <;> rw [hk] at hword <;>
      exact absurd hword (by decide)
  have hsplit : s.head.takeWhile (isWordByte ·.code) ++ s.head.dropWhile (isWordByte ·.code) =
      s.head := List.takeWhile_append_dropWhile
  have hrest : ¬StartsWord (s.head.dropWhile (isWordByte ·.code) ++ (w ++ rest)) := by
    obtain ⟨c, hc, hno⟩ := h.exists_not_word hnil
    rw [startsWord_append fun hall => hno (List.dropWhile_eq_nil_iff.1 hall c hc)]
    exact not_startsWord_dropWhile _
  rw [← hsplit, List.append_assoc, wordAt_append front
    (fun c hc => List.mem_takeWhile_imp (p := fun x : Cell => isWordByte x.code) hc) hrest]
    at hword
  exact Statement.isTypedef_iff.2
    ⟨_, _, hsplit.symm, hword, h.extract_behind hsplit.symm hword ▸ honly.blank⟩

/-- The statement so far is the word that makes a definition a type name just if no other code
    stands in front of the keyword. -/
theorem isTypedef_iff (h : Opens cs base s w rest) :
    s.isTypedef ↔ OnlyTypedef cs base.length s.stop :=
  ⟨h.onlyTypedef_of_isTypedef, h.isTypedef_of_onlyTypedef⟩

end Opens

/-! ### The definitions that are found -/

theorem Step.exists_keyword {s s' : Statement} {p rest : List Cell} {es : List Excerpt}
    {e : Excerpt} (h : Step s p rest es s') (he : e ∈ es) (hkind : e.kind = .structOrEnum) :
    ∃ w cells, p = w ++ cells ∧ IsWord w ∧ IsKeyword w ∧ ¬StartsWord (cells ++ rest) ∧
      e.start = s.stop - s.lead.length := by
  cases h with
  | semicolon =>
    obtain ⟨-, -, rfl⟩ := Statement.eq_of_excerpt (Option.mem_toList.1 he)
    exact absurd hkind (by simp)
  | definition hw hr hk =>
    obtain rfl := List.mem_singleton.1 he
    exact ⟨_, _, rfl, hw, hk, hr, rfl⟩
  | _ => exact absurd he List.not_mem_nil

/-- A definition that is found starts in its statement, and its fragment starts at its keyword or
    with what it takes along. -/
theorem exists_opens {t : String} {d : Declaration} (h : d ∈ (extract t).structsAndEnums) :
    ∃ base s w rest, Opens (cells (encode t)) base s w rest ∧
      d.order = s.stop - s.lead.length := by
  obtain ⟨p, rest, es, s, fs, warning, hcs, hrun, hstop⟩ :=
    exists_run (.startingAt 0) (cells (encode t))
  obtain ⟨hd, hkind⟩ := List.mem_filter.1 h
  have hd : d ∈ (read (cells (encode t))).found := hd
  rw [read, ← hcs, (readFrom_of_run hrun hstop 0).1] at hd
  have hstart := reaches_start (cells (encode t))
  have hfresh : ∀ {cs : List Cell}, ∀ c ∈ (Statement.startingAt 0).read.head?,
      isWordByte c.code → ¬StartsWord cs := by simp [Statement.startingAt]
  rw [← hcs] at hstart ⊢
  rcases List.mem_append.1 hd with hd | hd
  · obtain ⟨e, he, rfl⟩ := List.mem_map.1 hd
    obtain ⟨front, q, after, _, _, u, _, rfl, hbefore, hstep, he⟩ := hrun.exists_step he
    obtain ⟨w, cells, rfl, hw, hk, hends, horder⟩ :=
      hstep.exists_keyword he (beq_iff_eq.1 hkind)
    simp only [List.append_assoc] at hstart hbefore hends ⊢
    obtain ⟨base, hr⟩ := hbefore.reaches hstart
    exact ⟨base, u, w, _, ⟨hr, hw, hk, hends, hbefore.parted hfresh⟩, horder⟩
  · obtain ⟨e, he, rfl⟩ := List.mem_map.1 hd
    obtain ⟨base, hr⟩ := hrun.reaches hstart
    cases hstop with
    | unterminated hw hends hk =>
      obtain rfl := List.mem_singleton.1 he
      exact ⟨base, s, _, _, ⟨hr, hw, hk, hends, hrun.parted hfresh⟩, rfl⟩
    | _ => exact absurd he List.not_mem_nil

/-- Whether an offset is that of the keyword of a definition: it comes first in the fragment, or
    behind a `typedef`. -/
structure IsKeywordOf (t : String) (d : Declaration) (key : Nat) : Prop where
  word : wordAt (cells (encode t)) key = encode "struct" ∨
    wordAt (cells (encode t)) key = encode "enum"
  leads : d.order = key ∨ d.order < key ∧ wordAt (cells (encode t)) d.order = encode "typedef" ∧
    ∀ c ∈ (cells (encode t)).extract (d.order + (encode "typedef").length) key, c.isBlank

/-- Where the fragment of a definition begins in the statement that its keyword is in. -/
structure BeginsIn (t : String) (d : Declaration) (start key : Nat) : Prop where
  /-- If the first word of the statement is `typedef`, and nothing but blanks, comments and
      directives stands between the two words, the fragment starts at that `typedef`. -/
  typedef : OnlyTypedef (cells (encode t)) start key → d.order = firstCode (cells (encode t)) start
  /-- Otherwise it starts at the keyword. -/
  keyword : ¬OnlyTypedef (cells (encode t)) start key → d.order = key
  /-- If the fragment starts with `typedef`, that is the first word of the statement. -/
  first : "typedef".toList <+: d.text.toList →
    wordAt (cells (encode t)) (firstCode (cells (encode t)) start) = encode "typedef" ∧
      d.order = firstCode (cells (encode t)) start

/-- What starts at the keyword does not start with `typedef`. -/
theorem Opens.not_typedef {t : String} {d : Declaration} {base w rest : List Cell} {s : Statement}
    (h : Opens (cells (encode t)) base s w rest) (hd : d.IsSliceOf t) (horder : d.order = s.stop) :
    ¬"typedef".toList <+: d.text.toList := by
  rintro ⟨cs, hcs⟩
  obtain ⟨a, b, hab, ha⟩ := hd.between
  have htext : d.text = "typedef" ++ String.ofList cs := by
    rw [← String.toList_inj, ← hcs]
    simp
  obtain ⟨c, w, rfl⟩ := List.exists_cons_of_ne_nil h.isWord.1
  have hcell : (cells (encode t))[s.stop]? = some c := h.toReaches.getElem?_stop
  have hraw : c.raw = 0x74 := by
    have hbyte : ((cells (encode t)).map Cell.raw)[s.stop]? = some 0x74 := by
      rw [raw_cells, ← hab, htext, encode_append, encode_append, encode_append, List.append_assoc,
        ← horder, ← ha, List.getElem?_append_right (Nat.le_refl _), Nat.sub_self]
      rfl
    rw [List.getElem?_map, hcell] at hbyte
    exact Option.some.inj hbyte
  have hcode : c.code = 0x73 ∨ c.code = 0x65 :=
    (code_of_keyword h.isWord h.isKeyword).imp (fun h => (List.cons.inj h).1)
      (fun h => (List.cons.inj h).1)
  -- A keyword is no blank, so it reads as it is written.
  rcases isSound_of_mem_cells c (List.mem_of_getElem? hcell) with hblank | hsame
  · have := isBlank_of_word (h.isWord.2 c List.mem_cons_self)
    rw [hblank] at this
    exact absurd this (by decide)
  · rw [hsame, hraw] at hcode
    exact absurd hcode (by decide)

/-- The fragment of a definition begins at the `typedef` that comes first in the statement of its
    keyword, if nothing but blanks, comments and directives stands between the two words; a
    fragment with this word in front begins at the first word of its statement. With other code
    between the words, a qualifier, say, the `typedef` is left behind. -/
theorem extract_typedef {t : String} {d : Declaration} (h : d ∈ (extract t).structsAndEnums) :
    ∃ key, IsKeywordOf t d key ∧ (∃ start, InStatement (cells (encode t)) start key) ∧
      ∀ start, InStatement (cells (encode t)) start key → BeginsIn t d start key := by
  obtain ⟨base, s, w, rest, hopens, horder⟩ := exists_opens h
  have hword := hopens.wordAt_stop ▸ code_of_keyword hopens.isWord hopens.isKeyword
  obtain ⟨front, -, hfirst, hstop⟩ := hopens.exists_front
  rw [List.length_append] at hstop
  suffices hbegins : IsKeywordOf t d s.stop ∧ BeginsIn t d base.length s.stop from
    ⟨s.stop, hbegins.1, ⟨base.length, hopens.inStatement⟩, fun start hin =>
      hin.unique hopens.inStatement ▸ hbegins.2⟩
  by_cases ht : s.isTypedef
  · have honly := hopens.isTypedef_iff.1 ht
    have hpos : 0 < s.head.length := by
      obtain ⟨c, hc, -⟩ := startsWord_of_isTypedef ht
      exact List.length_pos_of_mem (List.mem_of_mem_head? hc)
    rw [Statement.lead, if_pos ht, hstop, Nat.add_sub_cancel, ← hfirst] at horder
    refine ⟨⟨hword, .inr ⟨?_, horder ▸ honly.word, horder ▸ honly.blank⟩⟩, fun _ => horder,
      fun hno => absurd honly hno, fun _ => ⟨honly.word, horder⟩⟩
    rw [horder, hfirst, hstop]
    omega
  · have hno := fun honly => ht (hopens.isTypedef_iff.2 honly)
    rw [Statement.lead, if_neg ht, List.length_nil, Nat.sub_zero] at horder
    have hslice := isSliceOf_fragment (List.mem_filter.1 h).1
    exact ⟨⟨hword, .inl horder⟩, fun honly => absurd honly hno, fun _ => horder,
      fun hfront => absurd hfront (hopens.not_typedef hslice horder)⟩

/-- So behind the body of a function, with a comment between the two words. -/
theorem extract_typedef_commented :
    let t := "void f(void) \x7b\x7d typedef /* a */ struct \x7b int x; \x7d point;\n"
    let d := ⟨.structOrEnum, "typedef /* a */ struct \x7b int x; \x7d point;", 16⟩
    d ∈ (extract t).structsAndEnums ∧
      ∃ key, IsKeywordOf t d key ∧ (∃ start, InStatement (cells (encode t)) start key) ∧
        ∀ start, InStatement (cells (encode t)) start key → BeginsIn t d start key :=
  have hd : ⟨.structOrEnum, "typedef /* a */ struct \x7b int x; \x7d point;", 16⟩ ∈
      (extract _).structsAndEnums := by decide +kernel
  ⟨hd, extract_typedef hd⟩

/-- A qualifier between the two words is code, so that the first one is left behind. -/
example : (extract "typedef const struct point \x7b int x; \x7d point_t;\n").structsAndEnums =
    [⟨.structOrEnum, "struct point \x7b int x; \x7d point_t;", 14⟩] := by
  decide +kernel

end TestBench.Source
