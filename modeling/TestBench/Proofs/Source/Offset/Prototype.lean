import Mathlib.Data.List.Induction
import TestBench.Proofs.Source.Offset.Basic
import TestBench.Proofs.Source.Prototype.Grammar
import TestBench.Source.Offset.Prototype

/-!
# Counting with 32 bits

A count of parentheses is right as long as it does not overflow, from whichever end they are read,
and it does not overflow in a text with fewer than 2 ^ 31 characters (`Gives`).

* `textTo_append`: a text can be cut behind each of its characters;
* `exists_dropAttribute`: without the group of an attribute a text is shorter;
* `gives_isPrototype`: an answer is the right one, and a short text has one;
* `isPrototype_eq_ok`: no check fails.
-/

namespace TestBench.Source.Offset

variable {cs ds : List Char}

/-! ### Texts and the offsets of their characters -/

/-- The number of bytes of a text. -/
def byteCount : List Char → Nat
  | [] => 0
  | c :: cs => c.utf8Size + byteCount cs

theorem charIndices_append (start : Nat) (cs : List Char) (c : Char) :
    charIndices start (cs ++ [c]) = charIndices start cs ++ [(start + byteCount cs, c)] := by
  induction cs generalizing start with
  | nil => rfl
  | cons d cs ih =>
    rw [List.cons_append, charIndices, ih, Nat.add_assoc]
    rfl

/-- A text can be cut behind each of its characters. -/
theorem textTo_append (cs ds : List Char) : textTo (cs ++ ds) (byteCount cs) = .ok cs := by
  induction cs with
  | nil =>
    cases ds <;> rfl
  | cons c cs ih =>
    have hsize : byteCount (c :: cs) = c.utf8Size + byteCount cs := rfl
    have hpos := c.utf8Size_pos
    obtain ⟨n, hn⟩ : ∃ n, byteCount (c :: cs) = n + 1 := ⟨byteCount (c :: cs) - 1, by omega⟩
    have hrest : n + 1 - c.utf8Size = byteCount cs := by omega
    rw [hn, List.cons_append, textTo, if_pos (by omega), hrest, ih]
    rfl

/-! ### Counts that may overflow -/

section Counts

variable {α β σ : Type} {small small' : Prop} {x : Checked α} {f : α → Checked β} {a : α} {b : β}

/-- What is computed is a value, unless a count overflows. In the small it does not. -/
def Gives (small : Prop) (x : Checked α) (a : α) : Prop :=
  x = .ok a ∨ ¬ small ∧ x = .error .overflow

theorem Gives.ok (a : α) : Gives small (.ok a) a :=
  .inl rfl

theorem Gives.eq_ok (h : Gives small x a) (hsmall : small) : x = .ok a :=
  h.resolve_right fun hover => hover.1 hsmall

theorem Gives.mono (h : Gives small x a) (hsmall : small' → small) : Gives small' x a :=
  h.imp_right fun hover => ⟨fun h => hover.1 (hsmall h), hover.2⟩

theorem Gives.bind (h : Gives small x a) (hf : Gives small (f a) b) :
    Gives small (x >>= f) b := by
  rcases h with rfl | ⟨hsmall, rfl⟩
  · exact hf
  · exact .inr ⟨hsmall, rfl⟩

theorem gives_count {n : Int} (h : small → -0x80000000 ≤ n ∧ n < 0x80000000) :
    Gives small (count n) n := by
  rw [count]
  split
  next => exact .ok n
  next hover => exact .inr ⟨fun hsmall => hover (h hsmall), rfl⟩

theorem gives_succ {n : Nat} (h : small → n + 1 < 0x80000000) :
    Gives small (count ((n : Int) + 1)) ((n + 1 : Nat) : Int) :=
  gives_count fun hsmall => by have := h hsmall; omega

theorem gives_pred {n : Nat} (h : small → n < 0x80000000) :
    Gives small (count (((n + 1 : Nat) : Int) - 1)) (n : Int) := by
  rw [Int.natCast_add, Int.natCast_one, Int.add_sub_cancel]
  exact gives_count fun hsmall => by have := h hsmall; omega

/-- A loop gives what each of its rounds leaves to be given, unless a count overflows. -/
theorem gives_loop {left : σ → Nat} {round : σ → Checked (σ ⊕ α)} {R : σ → α → Prop}
    (h : ∀ s a, R s a → Gives small (round s) (.inr a) ∨
      ∃ s', Gives small (round s) (.inl s') ∧ left s' < left s ∧ R s' a) {s : σ} {a : α}
    (hs : R s a) : Gives small (loop left round s) a := by
  induction hn : left s using Nat.strongRecOn generalizing s with
  | _ n ih =>
    subst hn
    rw [loop]
    rcases h s a hs with hround | ⟨s', hround, hless, hs'⟩
    · rcases hround with hround | ⟨hsmall, hround⟩
      · rw [hround]
        exact .ok a
      · rw [hround]
        exact .inr ⟨hsmall, rfl⟩
    · rcases hround with hround | ⟨hsmall, hround⟩
      · rw [hround]
        simp only [if_pos hless]
        exact ih _ hless hs' rfl
      · rw [hround]
        exact .inr ⟨hsmall, rfl⟩

end Counts

/-! ### Attributes -/

/-- Behind an open parenthesis, the last group starts where counting ends. -/
theorem gives_groupStart_succ (cs : List Char) (depth : Nat) :
    Gives (depth + 1 + cs.length < 0x80000000)
      (groupStart (depth + 1 : Nat) (charIndices 0 cs).reverse)
      ((beforeGroup (depth + 1) cs.reverse).map (byteCount ·.reverse)) := by
  induction cs using List.reverseRecOn generalizing depth with
  | nil => exact .ok _
  | append_singleton cs c ih =>
    rw [List.length_append, List.length_singleton]
    rw [charIndices_append, List.reverse_append, List.reverse_append, List.reverse_singleton,
      List.reverse_singleton, List.singleton_append, List.singleton_append, groupStart]
    by_cases hclose : c = ')'
    · subst hclose
      rw [if_pos rfl]
      exact (gives_succ (by omega)).bind ((ih (depth + 1)).mono (by omega))
    by_cases hopen : c = '('
    · subst hopen
      rw [if_neg hclose, if_pos rfl]
      refine (gives_pred (by omega)).bind ?_
      cases depth with
      | zero => simpa [beforeGroup] using .ok _
      | succ depth =>
        rw [if_neg (by omega)]
        exact (ih depth).mono (by omega)
    · rw [if_neg hclose, if_neg hopen, beforeGroup_plain hopen hclose]
      exact (ih depth).mono (by omega)

/-- The last group of a text starts where counting from its last parenthesis ends. -/
theorem gives_groupStart_close (cs : List Char) : Gives (cs.length + 1 < 0x80000000)
    (groupStart 0 (charIndices 0 (cs ++ [')'])).reverse)
    ((beforeGroup 0 (cs ++ [')']).reverse).map (byteCount ·.reverse)) := by
  have hcount : count (0 + 1) = .ok ((0 + 1 : Nat) : Int) := rfl
  rw [charIndices_append, List.reverse_append, List.reverse_append, List.reverse_singleton,
    List.reverse_singleton, List.singleton_append, List.singleton_append, groupStart, if_pos rfl,
    hcount, ok_bind]
  exact (gives_groupStart_succ cs 0).mono (by omega)

theorem stripSuffix?_dropTail (suffix cs : List Char) :
    stripSuffix? suffix (Text.dropTail Text.isBlank cs) =
      (afterPrefix? suffix.reverse (cs.reverse.dropWhile Text.isBlank)).map List.reverse := by
  rw [stripSuffix?, Text.dropTail, List.reverse_reverse]

theorem length_dropTail_le (cs : List Char) : (Text.dropTail Text.isBlank cs).length ≤ cs.length :=
  (Text.dropTail_prefix _ cs).length_le

/-- The group at the end of a text is cut off where counting its parentheses ends. -/
theorem gives_dropAttribute (body : List Char) :
    Gives (body.length < 0x80000000) (dropAttribute body) (
      if body.getLast? = some ')' then
        match beforeGroup 0 body.reverse with
        | none => .inr body
        | some before =>
          match afterPrefix? attributeKeyword (before.dropWhile Text.isBlank) with
          | none => .inr body
          | some rest => .inl (Text.dropTail Text.isBlank rest.reverse)
      else .inr body) := by
  rw [dropAttribute]
  by_cases hlast : body.getLast? = some ')'
  · obtain ⟨cs, rfl⟩ := List.getLast?_eq_some_iff.1 hlast
    rw [if_pos hlast, if_pos hlast]
    refine ((gives_groupStart_close cs).mono (by simp)).bind ?_
    rcases hgroup : beforeGroup 0 (cs ++ [')']).reverse with _ | before
    · exact .ok _
    obtain ⟨after, hafter⟩ := beforeGroup_suffix hgroup
    have hbody : cs ++ [')'] = before.reverse ++ after.reverse := by
      rw [← List.reverse_append, hafter, List.reverse_reverse]
    have htext : textTo (cs ++ [')']) (byteCount before.reverse) = .ok before.reverse := by
      rw [hbody, textTo_append]
    have hstrip := stripSuffix?_dropTail "__attribute__".toList before.reverse
    rw [List.reverse_reverse, ← attributeKeyword] at hstrip
    simp only [Option.map_some, htext, ok_bind, hstrip, pure_eq_ok]
    cases afterPrefix? attributeKeyword (before.dropWhile Text.isBlank) <;> exact .ok _
  · rw [if_neg hlast, if_neg hlast]
    exact .ok _

/-- A round leaves a shorter text without one attribute, or there is none to be dropped. -/
theorem exists_dropAttribute (body : List Char) :
    Gives (body.length < 0x80000000) (dropAttribute body)
        (.inr (dropAttributes body.reverse).reverse) ∨
      ∃ rest, Gives (body.length < 0x80000000) (dropAttribute body) (.inl rest) ∧
        rest.length < body.length ∧
        dropAttributes body.reverse = dropAttributes rest.reverse := by
  have hgives := gives_dropAttribute body
  by_cases hlast : body.getLast? = some ')'
  · have hhead : body.reverse.head? = some ')' := by rw [List.head?_reverse, hlast]
    rw [if_pos hlast] at hgives
    rcases hgroup : beforeGroup 0 body.reverse with _ | before
    · rw [dropAttributes_noGroup (by simp [hgroup]), List.reverse_reverse]
      rw [hgroup] at hgives
      exact .inl hgives
    simp only [hgroup] at hgives
    rcases hattribute : afterPrefix? attributeKeyword (before.dropWhile Text.isBlank) with _ | rest
    · have hno : ∀ before' rest, body.reverse.head? = some ')' →
          beforeGroup 0 body.reverse = some before' →
            afterPrefix? attributeKeyword (before'.dropWhile Text.isBlank) ≠ some rest := by
        intro before' rest _ hbefore
        obtain rfl := Option.some.inj (hgroup.symm.trans hbefore)
        rw [hattribute]
        exact nofun
      rw [dropAttributes_noGroup hno, List.reverse_reverse]
      simp only [hattribute] at hgives
      exact .inl hgives
    · simp only [hattribute] at hgives
      refine .inr ⟨Text.dropTail Text.isBlank rest.reverse, hgives, ?_, ?_⟩
      · have hgroup := length_beforeGroup_lt hgroup
        have hattribute := length_afterPrefix?_le hattribute
        have hdrop := (List.dropWhile_sublist Text.isBlank (l := before)).length_le
        have htail := length_dropTail_le rest.reverse
        rw [List.length_reverse] at hgroup htail
        omega
      · rw [dropAttributes_group hhead hgroup hattribute, Text.dropTail, List.reverse_reverse,
          List.reverse_reverse]
  · have hhead : body.reverse.head? ≠ some ')' := by rwa [List.head?_reverse]
    rw [if_neg hlast] at hgives
    rw [dropAttributes_noGroup fun _ _ h => absurd h hhead, List.reverse_reverse]
    exact .inl hgives

/-- Each group of an attribute leaves a shorter text, and so dropping them ends. -/
theorem gives_withoutAttributes (statement : List Char) :
    Gives (statement.length < 0x80000000) (withoutAttributes statement)
      (Source.withoutAttributes statement) := by
  have hlength := (List.dropWhile_sublist Text.isBlank (l := statement.reverse)).length_le
  rw [withoutAttributes, stripSuffix?_dropTail, Source.withoutAttributes]
  generalize statement.reverse.dropWhile Text.isBlank = rest at hlength ⊢
  rcases rest with _ | ⟨c, body⟩
  · exact .ok _
  by_cases hc : c = ';'
  · subst hc
    have hloop : Gives (statement.length < 0x80000000)
        (loop List.length dropAttribute (Text.dropTail Text.isBlank body.reverse))
        (dropAttributes (body.dropWhile Text.isBlank)).reverse := by
      refine gives_loop (R := fun cs out => cs.length ≤ statement.length ∧
        out = (dropAttributes cs.reverse).reverse) ?_ ⟨?_, ?_⟩
      · rintro cs _ ⟨hcs, rfl⟩
        obtain hround | ⟨rest, hround, hless, hrest⟩ := exists_dropAttribute cs
        · exact .inl (hround.mono (by omega))
        · exact .inr ⟨rest, hround.mono (by omega), hless, by omega, by rw [hrest]⟩
      · have htail := length_dropTail_le body.reverse
        simp only [List.length_reverse, List.length_cons] at hlength htail
        omega
      · rw [Text.dropTail, List.reverse_reverse, List.reverse_reverse]
    have hstrip : afterPrefix? [';'].reverse (';' :: body) = some body := rfl
    simp only [hstrip, Option.map_some]
    refine hloop.bind ?_
    rw [List.reverse_cons]
    exact .ok _
  · have hnone : afterPrefix? [';'].reverse (c :: body) = none := if_neg (by simpa using Ne.symm hc)
    simp only [hnone, Option.map_none]
    split
    next heq => exact absurd (List.cons.inj heq).1 hc
    next => exact .ok _

/-! ### The form of a prototype -/

theorem gives_isBalanced (depth : Nat) (cs : List Char) :
    Gives (depth + cs.length < 0x80000000) (isBalanced depth cs) (Source.isBalanced depth cs) := by
  induction cs generalizing depth with
  | nil => exact .inl (by simp [isBalanced, Source.isBalanced])
  | cons c cs ih =>
    rw [List.length_cons, isBalanced]
    by_cases hopen : c = '('
    · subst hopen
      rw [if_pos rfl, Source.isBalanced]
      exact (gives_succ (by omega)).bind ((ih (depth + 1)).mono (by omega))
    by_cases hclose : c = ')'
    · subst hclose
      rw [if_neg hopen, if_pos rfl]
      cases depth with
      | zero => exact .ok false
      | succ depth =>
        refine (gives_pred (by omega)).bind ?_
        rw [if_neg (by omega), Source.isBalanced]
        exact (ih depth).mono (by omega)
    · rw [if_neg hopen, if_neg hclose, isBalanced_plain hopen hclose]
      exact (ih depth).mono (by omega)

theorem length_withoutAttributes_le (statement : List Char) :
    (Source.withoutAttributes statement).length ≤ statement.length + 1 := by
  rcases Source.withoutAttributes_eq statement with ⟨front, hfront, h⟩ | h
  · rw [h, List.length_append, List.length_singleton]
    exact Nat.add_le_add_right hfront.length_le 1
  · rw [h]
    exact Nat.le_succ _

theorem length_params_lt {p : Prototype} (h : Prototype.parts? cs = some p) :
    p.params.length < cs.length := by
  obtain ⟨head, tail, rfl, -, -, hparams⟩ := Prototype.exists_of_parts? h
  obtain ⟨rest, htail, hrest, -⟩ := exists_of_params? hparams
  have hlength := congrArg List.length htail
  have hdrop := (List.dropWhile_sublist Text.isBlank (l := rest)).length_le
  rw [hrest] at hdrop
  simp only [List.length_reverse, List.length_cons, List.length_append] at *
  omega

/-- An answer to whether a statement is a prototype is the right one. There is one unless a count
    overflows. -/
theorem gives_isPrototype (statement : String) :
    Gives (statement.toList.length < 0x80000000) (isPrototype statement)
      (Source.isPrototype statement) := by
  rw [isPrototype, Source.isPrototype, Prototype.ofStatement?]
  refine (gives_withoutAttributes statement.toList).bind ?_
  rcases hparts : Prototype.parts? (Source.withoutAttributes statement.toList) with _ | p
  · exact .ok false
  have hparams := length_params_lt hparts
  have hlength := length_withoutAttributes_le statement.toList
  have hbalanced : Gives (statement.toList.length < 0x80000000) (isBalanced 0 p.params)
      (Source.isBalanced 0 p.params) := (gives_isBalanced 0 p.params).mono (by omega)
  simp only [Option.filter_some, ← List.not_any_eq_all_not]
  cases p.result.any fun w => nonTypeWords.contains (String.ofList w) with
  | true => exact .ok false
  | false =>
    cases nonFunctionNames.contains (String.ofList p.name) with
    | true => exact .ok false
    | false =>
      have hkept : (if Source.isBalanced 0 p.params then some p else none).isSome =
          Source.isBalanced 0 p.params := by
        cases Source.isBalanced 0 p.params <;> rfl
      simpa [hkept] using hbalanced

/-- Whether a statement is a prototype is found out without a failing check. -/
theorem isPrototype_eq_ok {statement : String} (h : statement.toList.length < 0x80000000) :
    isPrototype statement = .ok (Source.isPrototype statement) :=
  (gives_isPrototype statement).eq_ok h

end TestBench.Source.Offset
