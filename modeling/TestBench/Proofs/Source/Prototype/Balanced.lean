import TestBench.Proofs.Source.Prototype

/-!
# Matching parentheses

A text is balanced if every parenthesis in it has its partner in it. Of such a text it does not
matter from which end its parentheses are counted: both ways of counting pass over it, and what
they find between a parenthesis and its partner is balanced.

* `Balanced.isBalanced_append`, `Balanced.beforeGroup_append`: counting passes over such a text;
* `Balanced.of_isBalanced`, `Balanced.exists_of_beforeGroup`: what counting finds is balanced;
* `Balanced.append_close_inj`: the parenthesis that closes a group is determined by where it opens.
-/

namespace TestBench.Source

/-! ### Cutting a text where a property ends -/

section Cutting

variable {α : Type} {p : α → Bool} {g g' l l' : List α}

theorem takeWhile_append_of_stop (hg : ∀ c ∈ g, p c) (hl : ∀ c ∈ l.head?, p c = false) :
    (g ++ l).takeWhile p = g := by
  rw [List.takeWhile_append_of_pos hg]
  cases l with
  | nil => simp
  | cons c l => simp [hl c rfl]

theorem dropWhile_append_of_stop (hg : ∀ c ∈ g, p c) (hl : ∀ c ∈ l.head?, p c = false) :
    (g ++ l).dropWhile p = l := by
  rw [List.dropWhile_append_of_pos hg]
  cases l with
  | nil => rfl
  | cons c l => simp [hl c rfl]

/-- Two texts are cut in the same place if a property holds up to there and no further. -/
theorem append_inj_of_stop (hg : ∀ c ∈ g, p c) (hg' : ∀ c ∈ g', p c)
    (hl : ∀ c ∈ l.head?, p c = false) (hl' : ∀ c ∈ l'.head?, p c = false)
    (h : g ++ l = g' ++ l') : g = g' ∧ l = l' := by
  have htake := congrArg (List.takeWhile p) h
  rw [takeWhile_append_of_stop hg hl, takeWhile_append_of_stop hg' hl'] at htake
  subst htake
  exact ⟨rfl, List.append_cancel_left h⟩

theorem stop_dropWhile (l : List α) : ∀ c ∈ (l.dropWhile p).head?, p c = false := by
  intro c hc
  have h := List.head?_dropWhile_not p l
  rw [Option.mem_def.1 hc] at h
  simpa using h

theorem mem_takeWhile_of {l : List α} : ∀ c ∈ l.takeWhile p, p c := by
  intro c hc
  exact List.all_eq_true.1 (List.all_takeWhile (p := p) (l := l)) c hc

end Cutting

/-! ### Matching parentheses -/

/-- A text whose parentheses match. -/
inductive Balanced : List Char → Prop
  | nil : Balanced []
  | plain {c : Char} {l : List Char} (ho : c ≠ '(') (hc : c ≠ ')') (h : Balanced l) :
    Balanced (c :: l)
  | group {q l : List Char} (hq : Balanced q) (h : Balanced l) : Balanced ('(' :: q ++ ')' :: l)

namespace Balanced

variable {b b' q l : List Char}

theorem append (h : Balanced b) (h' : Balanced b') : Balanced (b ++ b') := by
  induction h with
  | nil => exact h'
  | plain ho hc _ ih => exact .plain ho hc ih
  | group hq _ _ ih =>
    rw [List.append_assoc, List.cons_append]
    exact .group hq ih

/-- Nothing is left open or closed too often, counting from the left. -/
theorem isBalanced_append (h : Balanced b) (depth : Nat) (m : List Char) :
    isBalanced depth (b ++ m) = isBalanced depth m := by
  induction h generalizing depth m with
  | nil => rfl
  | plain ho hc _ ih => rw [List.cons_append, isBalanced_plain ho hc, ih]
  | group _ _ ihq ih =>
    rw [List.append_assoc, List.cons_append, List.cons_append, isBalanced, ihq, isBalanced, ih]

/-- Nor counting from the right. -/
theorem beforeGroup_append (h : Balanced b) (depth : Nat) (m : List Char) :
    beforeGroup (depth + 1) (b.reverse ++ m) = beforeGroup (depth + 1) m := by
  induction h generalizing depth m with
  | nil => rfl
  | plain ho hc _ ih =>
    rw [List.reverse_cons, List.append_assoc, ih, List.singleton_append, beforeGroup_plain ho hc]
  | @group q l _ _ ihq ih =>
    have hreverse : ('(' :: q ++ ')' :: l).reverse ++ m =
        l.reverse ++ (')' :: (q.reverse ++ '(' :: m)) := by simp
    rw [hreverse, ih, beforeGroup, ihq, beforeGroup]

/-- The parenthesis that closes a group is determined by where the group opens. -/
theorem append_close_inj (h : Balanced b) (h' : Balanced b') {r r' : List Char}
    (heq : b ++ ')' :: r = b' ++ ')' :: r') : b = b' ∧ r = r' := by
  induction h generalizing b' r r' with
  | nil =>
    cases h' with
    | nil => exact ⟨rfl, (List.cons.inj heq).2⟩
    | plain _ hc _ => exact absurd (List.cons.inj heq).1.symm hc
    | group _ _ => exact absurd (List.cons.inj heq).1 (by decide)
  | plain ho hc _ ih =>
    cases h' with
    | nil => exact absurd (List.cons.inj heq).1 hc
    | plain _ _ h' =>
      obtain ⟨rfl, hrest⟩ := List.cons.inj heq
      obtain ⟨rfl, rfl⟩ := ih h' hrest
      exact ⟨rfl, rfl⟩
    | group _ _ => exact absurd (List.cons.inj heq).1 ho
  | group _ _ ihq ih =>
    cases h' with
    | nil => exact absurd (List.cons.inj heq).1 (by decide)
    | plain ho _ _ => exact absurd (List.cons.inj heq).1.symm ho
    | group hq' h' =>
      simp only [List.cons_append, List.append_assoc] at heq
      obtain ⟨rfl, hrest⟩ := ihq hq' (List.cons.inj heq).2
      obtain ⟨rfl, rfl⟩ := ih h' hrest
      exact ⟨rfl, rfl⟩

/-- What is balanced to the left of `depth` open parentheses starts with a text whose parentheses
    match, and then it is over, or one of them is closed. -/
theorem exists_of_isBalanced {depth : Nat} (h : isBalanced depth l) :
    ∃ b rest, Balanced b ∧ l = b ++ rest ∧ (depth = 0 ∧ rest = [] ∨
      ∃ depth' rest', depth = depth' + 1 ∧ rest = ')' :: rest' ∧ isBalanced depth' rest') := by
  induction hn : l.length using Nat.strongRecOn generalizing l depth with
  | _ n ih =>
  cases l with
  | nil => exact ⟨[], [], .nil, rfl, .inl ⟨by simpa [isBalanced] using h, rfl⟩⟩
  | cons c l =>
    rw [List.length_cons] at hn
    by_cases ho : c = '('
    · subst ho
      rw [isBalanced] at h
      obtain ⟨q, rest, hq, rfl, hrest⟩ := ih _ (by omega) h rfl
      rcases hrest with ⟨hzero, -⟩ | ⟨depth', rest', hdepth, rfl, hrest⟩
      · omega
      obtain rfl : depth = depth' := by omega
      rw [List.length_append, List.length_cons] at hn
      obtain ⟨b, rest, hb, rfl, hend⟩ := ih _ (by omega) hrest rfl
      exact ⟨_, rest, .group hq hb, by simp, hend⟩
    by_cases hc : c = ')'
    · subst hc
      cases depth with
      | zero => simp [isBalanced] at h
      | succ depth => exact ⟨[], ')' :: l, .nil, rfl, .inr ⟨depth, l, rfl, rfl, h⟩⟩
    · rw [isBalanced_plain ho hc] at h
      obtain ⟨b, rest, hb, rfl, hend⟩ := ih _ (by omega) h rfl
      exact ⟨c :: b, rest, .plain ho hc hb, rfl, hend⟩

theorem of_isBalanced (h : isBalanced 0 l) : Balanced l := by
  obtain ⟨b, rest, hb, rfl, ⟨-, rfl⟩ | ⟨_, _, hdepth, -⟩⟩ := exists_of_isBalanced h
  · rwa [List.append_nil]
  · omega

/-- Counting from the right, a group is found with the text in it. -/
theorem exists_of_beforeGroup {depth : Nat} {cs rest : List Char}
    (h : beforeGroup (depth + 1) cs = some rest) :
    ∃ b before, Balanced b ∧ cs = b.reverse ++ '(' :: before ∧
      if depth = 0 then before = rest else beforeGroup depth before = some rest := by
  induction hn : cs.length using Nat.strongRecOn generalizing cs depth with
  | _ n ih =>
  cases cs with
  | nil => simp [beforeGroup] at h
  | cons c cs =>
    rw [List.length_cons] at hn
    by_cases hc : c = ')'
    · subst hc
      rw [beforeGroup] at h
      obtain ⟨q, before, hq, rfl, hbefore⟩ := ih _ (by omega) h rfl
      rw [if_neg (by omega)] at hbefore
      rw [List.length_append, List.length_cons] at hn
      obtain ⟨b, before, hb, rfl, hend⟩ := ih _ (by omega) hbefore rfl
      exact ⟨b ++ ('(' :: q ++ ')' :: []), before, hb.append (.group hq .nil), by simp, hend⟩
    by_cases ho : c = '('
    · subst ho
      refine ⟨[], cs, .nil, rfl, ?_⟩
      cases depth with
      | zero =>
        rw [beforeGroup] at h
        exact Option.some.inj h
      | succ depth =>
        rw [beforeGroup] at h
        exact h
    · rw [beforeGroup_plain ho hc] at h
      obtain ⟨b, before, hb, rfl, hend⟩ := ih _ (by omega) h rfl
      exact ⟨b ++ [c], before, hb.append (.plain ho hc .nil), by simp, hend⟩

end Balanced

end TestBench.Source
