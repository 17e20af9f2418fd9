import TestBench.Source.Prototype

/-!
# How a prototype is read

What each part of the matcher does with one more character, group or word; and how a prototype
starts: with the first word of its result type. Dropping attributes takes nothing away in front, so
that it is the statement as written which starts with this word.

* `dropAttributes_group`, `dropAttributes_noGroup`: when another attribute is dropped;
* `exists_wordStart_of_isPrototype`: the first character of a prototype starts a word.
-/

namespace TestBench.Source

/-! ### Single steps -/

theorem beforeGroup_plain {c : Char} (ho : c ≠ '(') (hc : c ≠ ')') (depth : Nat) (cs : List Char) :
    beforeGroup depth (c :: cs) = beforeGroup depth cs := by
  rw [beforeGroup.eq_def]
  split <;> simp_all

theorem isBalanced_plain {c : Char} (ho : c ≠ '(') (hc : c ≠ ')') (depth : Nat) (cs : List Char) :
    isBalanced depth (c :: cs) = isBalanced depth cs := by
  rw [isBalanced.eq_def]
  split <;> simp_all

/-- What is left of a text, given that its last group is one of an attribute. -/
theorem dropAttributes_group {body before rest : List Char} (hb : body.head? = some ')')
    (hg : beforeGroup 0 body = some before)
    (ha : afterPrefix? attributeKeyword (before.dropWhile Text.isBlank) = some rest) :
    dropAttributes body = dropAttributes (rest.dropWhile Text.isBlank) := by
  rw [dropAttributes.eq_def body, if_pos hb]
  split
  · simp_all
  next before' hg' =>
    obtain rfl := Option.some.inj (hg.symm.trans hg')
    split
    · simp_all
    next rest' ha' =>
      obtain rfl := Option.some.inj (ha.symm.trans ha')
      rfl

theorem dropAttributes_noGroup {body : List Char}
    (h : ∀ before rest, body.head? = some ')' → beforeGroup 0 body = some before →
      afterPrefix? attributeKeyword (before.dropWhile Text.isBlank) ≠ some rest) :
    dropAttributes body = body := by
  rw [dropAttributes.eq_def body]
  split
  next hb =>
    split
    · rfl
    next before hg =>
      split
      · rfl
      next rest ha => exact absurd ha (h before rest hb hg)
  next => rfl

theorem words?_of_none {cs : List Char} (h : word? cs = none) : words? cs = none := by
  rw [words?.eq_def]
  split <;> simp_all

theorem words?_of_some {cs w rest : List Char} (h : word? cs = some (w, rest)) :
    words? cs = if rest.all Text.isBlank then some [w]
      else if (rest.takeWhile isTypeGap).isEmpty then none
      else (words? (rest.dropWhile isTypeGap)).map (w :: ·) := by
  rw [words?.eq_def]
  split
  · simp_all
  next w' rest' h' =>
    obtain ⟨rfl, rfl⟩ := Prod.mk.inj (Option.some.inj (h.symm.trans h'))
    rfl

/-! ### The start of a prototype -/

theorem beforeGroup_suffix {depth : Nat} {cs rest : List Char}
    (h : beforeGroup depth cs = some rest) : rest <:+ cs := by
  fun_induction beforeGroup depth cs with
  | case1 => simp at h
  | case4 => exact Option.some.inj h ▸ List.suffix_cons _ _
  | _ => exact (by solve_by_elim : rest <:+ _).trans (List.suffix_cons _ _)

theorem afterPrefix?_suffix [BEq α] {ps cs rest : List α} (h : afterPrefix? ps cs = some rest) :
    rest <:+ cs := by
  fun_induction afterPrefix? ps cs with
  | case1 => exact Option.some.inj h ▸ List.suffix_refl _
  | case2 => simp at h
  | case3 p ps c cs hpc ih => exact (ih h).trans (List.suffix_cons _ _)
  | case4 => simp at h

/-- Dropping attributes only takes away from the front of the reversed text. -/
theorem dropAttributes_suffix (body : List Char) : dropAttributes body <:+ body := by
  fun_induction dropAttributes body with
  | case3 body _ before hg rest ha ih =>
    have hr : rest <:+ before :=
      (afterPrefix?_suffix ha).trans (List.dropWhile_suffix _)
    exact ih.trans ((List.dropWhile_suffix _).trans (hr.trans (beforeGroup_suffix hg)))
  | _ => exact List.suffix_refl _

/-- Without its attributes, a statement is its beginning with a semicolon put behind, or itself. -/
theorem withoutAttributes_eq (statement : List Char) :
    (∃ front, front <+: statement ∧ withoutAttributes statement = front ++ [';']) ∨
      withoutAttributes statement = statement := by
  rw [withoutAttributes]
  split
  next body hb =>
    refine .inl ⟨(dropAttributes (body.dropWhile Text.isBlank)).reverse, ?_, by simp⟩
    rw [← List.reverse_suffix, List.reverse_reverse]
    have hs : ';' :: body <:+ statement.reverse := hb ▸ List.dropWhile_suffix _
    exact (dropAttributes_suffix _).trans
      ((List.dropWhile_suffix _).trans ((List.suffix_cons _ _).trans hs))
  next => exact .inr rfl

theorem wordStart_of_word {cs : List Char} {w : List Char × List Char} (h : word? cs = some w) :
    ∃ c ∈ cs.head?, Text.isWordStart c := by
  cases cs with
  | nil => simp [word?] at h
  | cons c cs =>
    by_cases hc : Text.isWordStart c
    · exact ⟨c, rfl, hc⟩
    · simp [word?, hc] at h

theorem wordStart_of_words {cs : List Char} {ws : List (List Char)} (h : words? cs = some ws) :
    ∃ c ∈ cs.head?, Text.isWordStart c := by
  rw [words?] at h
  split at h
  · simp at h
  next w rest hw => exact wordStart_of_word hw

theorem wordStart_of_parts {statement : List Char} {p : Prototype}
    (h : Prototype.parts? statement = some p) : ∃ c ∈ statement.head?, Text.isWordStart c := by
  simp only [Prototype.parts?] at h
  split at h
  · simp at h
  · split at h
    next ws _ hw _ =>
      obtain ⟨c, hc, hs⟩ := wordStart_of_words hw
      refine ⟨c, ?_, hs⟩
      rw [List.head?_takeWhile] at hc
      exact (Option.filter_eq_some_iff.1 hc).1
    · simp at h

/-- The first character of a prototype starts a word. -/
theorem exists_wordStart_of_isPrototype {s : String} (h : isPrototype s) :
    ∃ c ∈ s.toList.head?, Text.isWordStart c := by
  obtain ⟨p, hp⟩ := Option.isSome_iff_exists.1 h
  obtain ⟨hp, _⟩ := Option.filter_eq_some_iff.1 hp
  obtain ⟨c, hc, hs⟩ := wordStart_of_parts hp
  rcases withoutAttributes_eq s.toList with ⟨front, hf, hw⟩ | hw
  · rw [hw] at hc
    cases front with
    | nil =>
      obtain rfl := Option.some.inj hc
      exact absurd hs (by decide)
    | cons x front =>
      obtain rfl := Option.some.inj hc
      obtain ⟨rest, hr⟩ := hf
      exact ⟨x, by simp [← hr], hs⟩
  · exact ⟨c, hw ▸ hc, hs⟩

end TestBench.Source
