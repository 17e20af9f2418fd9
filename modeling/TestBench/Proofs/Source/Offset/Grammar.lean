import TestBench.Proofs.Source.Offset.Prototype

/-!
# Prototypes whose parentheses are counted

The grammar of prototypes has parentheses of any depth, but with 32 bits they are counted only up to
2 ^ 31 - 1. A text that is nested deeper is given no answer, and each answer that is given is right.

* `isPrototype_iff_written`: with an answer, the prototypes are the texts that the grammar writes,
  and only a text of 2 ^ 31 characters or more has none;
* `nested_overflow`: a prototype without an answer.
-/

namespace TestBench.Source.Offset

/-- An answer is that the grammar writes the text, which it does in a single way. Only to a long
    text there is none. What is left without the attributes has the name and the parameters of the
    writing: the last word before the first parenthesis, and what stands before this is closed. -/
theorem isPrototype_iff_written (s : String) :
    (∃ answer, Gives (s.toList.length < 0x80000000) (isPrototype s) answer ∧
      (answer ↔ ∃ w : Writing, w.text = s.toList)) ∧
      Function.Injective Writing.text ∧
      ∀ w : Writing, (∃ rest, Gives (w.text.length < 0x80000000) (withoutAttributes w.text) rest ∧
          Prototype.parts? rest = some w.parts) ∧
        w.text.takeWhile (· != '(') = w.result.flatMap TypeWord.text ++ (w.name ++ w.gap) ∧
        ∀ inside, (Balanced inside ∧ ∃ rest,
          w.text.dropWhile (· != '(') = '(' :: (inside ++ ')' :: rest)) ↔ inside = w.params := by
  obtain ⟨hwritten, hinj, hparts⟩ := isPrototype_iff_writing s
  refine ⟨⟨_, gives_isPrototype s, hwritten⟩, hinj, fun w =>
    ⟨⟨_, gives_withoutAttributes w.text, ?_⟩, (hparts w).2⟩⟩
  have hread := (hparts w).1
  rw [Prototype.ofStatement?, Option.filter_eq_some_iff] at hread
  exact hread.1

/-! ### Deep nesting -/

/-- A prototype whose parameters are nested to a depth. -/
def nested (depth : Nat) : List Char :=
  ['i', 'n', 't', ' ', 'f', '('] ++ (List.replicate depth '(' ++ List.replicate depth ')') ++
    [')', ';']

theorem balanced_replicate (n : Nat) :
    Balanced (List.replicate n '(' ++ List.replicate n ')') := by
  induction n with
  | zero => exact .nil
  | succ n ih =>
    rw [List.replicate_succ, List.replicate_succ']
    simpa using ih.group .nil

theorem exists_writing_nested (depth : Nat) : ∃ w : Writing, w.text = nested depth := by
  let int : TypeWord := ⟨['i', 'n', 't'], [' '],
    ⟨⟨'i', rfl, by decide⟩, List.all_eq_true.1 (by decide +kernel)⟩, by decide,
    List.all_eq_true.1 (by decide)⟩
  have hf : IsTypeWord ['f'] := ⟨⟨'f', rfl, by decide⟩, List.all_eq_true.1 (by decide +kernel)⟩
  refine ⟨⟨[int], ['f'], [], _, [], [], [], by simp, by decide, hf, by decide, by decide, by simp,
    ?_, balanced_replicate depth, by simp, by simp⟩, ?_⟩
  · simp only [List.mem_append, List.mem_replicate]
    rintro c (⟨-, rfl⟩ | ⟨-, rfl⟩) <;> decide
  · simp [Writing.text, Writing.head, nested, int, TypeWord.text]

section Overflow

variable {cs : List Char} {depth n : Nat}

theorem groupStart_overflow (hdepth : depth < 0x80000000) (h : 0x80000000 ≤ depth + n) :
    groupStart depth (charIndices 0 (cs ++ List.replicate n ')')).reverse = .error .overflow := by
  induction n generalizing depth with
  | zero => omega
  | succ n ih =>
    rw [List.replicate_succ', ← List.append_assoc, charIndices_append, List.reverse_append,
      List.reverse_singleton, List.singleton_append, groupStart, if_pos rfl]
    by_cases hlast : depth + 1 < 0x80000000
    · have hcount : count ((depth : Int) + 1) = .ok ((depth + 1 : Nat) : Int) :=
        (gives_succ fun _ => hlast).eq_ok trivial
      rw [hcount, ok_bind, ih hlast (by omega)]
    · have hcount : count ((depth : Int) + 1) = .error .overflow := if_neg (by omega)
      rw [hcount]
      rfl

theorem dropAttribute_overflow (h : 0x80000000 ≤ n) :
    dropAttribute (cs ++ List.replicate n ')') = .error .overflow := by
  obtain ⟨m, rfl⟩ : ∃ m, n = m + 1 := ⟨n - 1, by omega⟩
  have hlast : (cs ++ List.replicate (m + 1) ')').getLast? = some ')' := by
    rw [List.replicate_succ', ← List.append_assoc, List.getLast?_concat]
  have hstart : groupStart 0 (charIndices 0 (cs ++ List.replicate (m + 1) ')')).reverse =
      .error .overflow := @groupStart_overflow cs 0 (m + 1) (by decide) (by omega)
  rw [dropAttribute, if_pos hlast, hstart]
  rfl

theorem withoutAttributes_overflow (h : 0x80000000 ≤ n) :
    withoutAttributes (cs ++ List.replicate n ')' ++ [';']) = .error .overflow := by
  obtain ⟨m, rfl⟩ : ∃ m, n = m + 1 := ⟨n - 1, by omega⟩
  have hplain : ∀ (cs : List Char) (c : Char), Text.isBlank c = false →
      Text.dropTail Text.isBlank (cs ++ [c]) = cs ++ [c] := by
    intro cs c hc
    simp [Text.dropTail, hc]
  have hstrip (cs : List Char) : stripSuffix? [';'] (cs ++ [';']) = some cs := by
    simp [stripSuffix?, afterPrefix?]
  have hbody : Text.dropTail Text.isBlank (cs ++ List.replicate (m + 1) ')') =
      cs ++ List.replicate (m + 1) ')' := by
    rw [List.replicate_succ', ← List.append_assoc, hplain _ _ (by decide)]
  rw [withoutAttributes, hplain _ _ (by decide), hstrip]
  simp only [hbody, loop, dropAttribute_overflow h]
  rfl

theorem isPrototype_nested (h : 0x80000000 ≤ depth + 1) :
    isPrototype (String.ofList (nested depth)) = .error .overflow := by
  have hnested : nested depth = ['i', 'n', 't', ' ', 'f', '('] ++ List.replicate depth '(' ++
      List.replicate (depth + 1) ')' ++ [';'] := by
    rw [nested, List.replicate_succ']
    simp
  rw [isPrototype, String.toList_ofList, hnested, withoutAttributes_overflow h]
  rfl

end Overflow

/-- A prototype that is nested too deeply is given no answer. -/
theorem nested_overflow : (∃ w : Writing, w.text = nested 0x7fffffff) ∧
    isPrototype (String.ofList (nested 0x7fffffff)) = .error .overflow :=
  ⟨exists_writing_nested _, isPrototype_nested (by decide)⟩

end TestBench.Source.Offset
