import TestBench.Proofs.Source.Offset.Basic
import TestBench.Proofs.Source.Whole
import TestBench.Source.Offset.FileScope

/-!
# Looking ahead by offsets

What is searched for in the masked copy of a text: the end of blanks and of words, the brace that
closes a group, the brace that opens a definition, and the semicolon that ends one. Each search
finds the offset at which the library cuts the cells of the text.

* `matchingBrace_eq_ok`: the depth of braces is never negative;
* `openingAt_eq_ok`, `definitionEnd_eq_ok`: a definition is found where it is.
-/

namespace TestBench.Source.Offset

variable {cs xs ys zs rest : List Cell} {c : Cell} {f : Cell → UInt8} {i j depth : Nat}

/-! ### Bytes of cells -/

theorem slice_cells (h : cs = xs ++ (ys ++ zs)) (hi : i = xs.length)
    (hj : j = xs.length + ys.length) : slice (cs.map f) i j = .ok (ys.map f) := by
  have hmap : cs.map f = xs.map f ++ (ys.map f ++ zs.map f) := by simp [h]
  exact slice_middle hmap (by simp [hi]) (by simp [hj])

theorem sliceFrom_cells (h : cs = xs ++ ys) (hi : i = xs.length) :
    sliceFrom (cs.map f) i = .ok (ys.map f) := by
  have hmap : cs.map f = xs.map f ++ ys.map f := by simp [h]
  exact sliceFrom_append hmap (by simp [hi])

theorem elementAt_cells (h : cs = xs ++ c :: ys) (hi : i = xs.length) :
    elementAt (cs.map f) i = .ok (f c) := by
  have hmap : cs.map f = xs.map f ++ f c :: ys.map f := by simp [h]
  exact elementAt_middle hmap (by simp [hi])

theorem peek_cells (h : cs = xs ++ ys) (hi : i = xs.length) :
    peek (cs.map f) i = .ok (ys.head?.map f) := by
  have hmap : cs.map f = xs.map f ++ ys.map f := by simp [h]
  rw [peek_append hmap (by simp [hi]), List.head?_map]

theorem passWhile_cells (p : UInt8 → Bool) (h : cs = xs ++ ys) (hi : i = xs.length) :
    passWhile p (cs.map f) i = .ok (i + (ys.takeWhile fun c => p (f c)).length) := by
  have hmap : cs.map f = xs.map f ++ ys.map f := by simp [h]
  rw [passWhile_append p hmap (by simp [hi]), List.takeWhile_map, List.length_map]
  rfl

/-! ### What searches find -/

/-- How many cells a definition has, if it ends. -/
def definitionSize? : Definition → Option Nat
  | .complete cells _ => some cells.length
  | _ => none

theorem length_group_pos {g : List Cell × List Cell} (h : group? depth cs = some g) :
    0 < g.1.length := by
  have hlength := congrArg List.length (append_of_group h)
  have hless := length_group_lt h
  rw [List.length_append] at hlength
  omega

theorem length_toSemicolon_pos {g : List Cell × List Cell} (h : toSemicolon? depth cs = some g) :
    0 < g.1.length := by
  have hlength := congrArg List.length (append_of_toSemicolon h).1
  have hless := length_toSemicolon_lt h
  rw [List.length_append] at hlength
  omega

/-- The last of some cells is found one further on, if there is one more in front. -/
theorem map_last_cons (i : Nat) (c : Cell) {o : Option (List Cell × List Cell)}
    (h : ∀ g, o = some g → 0 < g.1.length) : (o.map fun g => i + 1 + (g.1.length - 1)) =
      (o.map fun g => (c :: g.1, g.2)).map fun g => i + (g.1.length - 1) := by
  cases o with
  | none => rfl
  | some g =>
    have := h g rfl
    simp only [Option.map_some, Option.some.injEq, List.length_cons]
    omega

theorem matchingFrom_eq_ok (depth i : Nat) (cs : List Cell) :
    matchingFrom (depth + 1) i (cs.map Cell.code) =
      .ok ((group? depth cs).map fun g => i + (g.1.length - 1)) := by
  induction cs generalizing depth i with
  | nil => rfl
  | cons c cs ih =>
    rw [List.map_cons, matchingFrom]
    by_cases hopen : c.code = openBrace
    · rw [if_pos hopen, ih, group?_open _ _ hopen, map_last_cons i c fun _ => length_group_pos]
    rw [if_neg hopen]
    by_cases hclose : c.code = closeBrace
    · rw [if_pos hclose, minus_succ, ok_bind]
      cases depth with
      | zero => rw [if_pos rfl, group?_end _ hclose]; rfl
      | succ depth =>
        rw [if_neg (Nat.succ_ne_zero depth), ih, group?_close _ _ hclose,
          map_last_cons i c fun _ => length_group_pos]
    · rw [if_neg hclose, ih, group?_code _ _ hopen hclose,
        map_last_cons i c fun _ => length_group_pos]

/-- As many braces are closed as are open, and so the depth is never negative. -/
theorem matchingBrace_eq_ok (h : cs = xs ++ c :: rest) (hi : i = xs.length)
    (hc : c.code = openBrace) :
    matchingBrace (cs.map Cell.code) i = .ok ((group? 0 rest).map fun g => i + g.1.length) := by
  rw [matchingBrace, sliceFrom_cells h hi, ok_bind, List.map_cons, matchingFrom, if_pos hc,
    matchingFrom_eq_ok]
  rcases hg : group? 0 rest with _ | g
  · rfl
  · have := length_group_pos hg
    simp only [Option.map_some, Except.ok.injEq, Option.some.injEq]
    omega

theorem terminatorFrom_eq (depth i : Nat) (cs : List Cell) :
    terminatorFrom depth i (cs.map Cell.code) =
      (toSemicolon? depth cs).map fun g => i + (g.1.length - 1) := by
  induction cs generalizing depth i with
  | nil => rfl
  | cons c cs ih =>
    rw [List.map_cons, terminatorFrom, toSemicolon?]
    simp only [ih, map_last_cons i c fun _ => length_toSemicolon_pos]
    by_cases hopen : c.code = openBrace
    · simp [hopen, show openBrace ≠ semicolon by decide]
    by_cases hclose : c.code = closeBrace
    · simp [hclose, show closeBrace ≠ semicolon by decide, show closeBrace ≠ openBrace by decide]
    by_cases hend : c.code = semicolon ∧ depth = 0
    · simp [hend, show semicolon ≠ openBrace by decide, show semicolon ≠ closeBrace by decide]
    · simp [hopen, hclose, hend]

theorem statementTerminator_eq_ok (h : cs = xs ++ rest) (hi : i = xs.length) :
    statementTerminator (cs.map Cell.code) i =
      .ok ((toSemicolon? 0 rest).map fun g => i + (g.1.length - 1)) := by
  rw [statementTerminator, sliceFrom_cells h hi, ok_bind, terminatorFrom_eq, pure_eq_ok]

theorem skipBlanks_eq_ok (h : cs = xs ++ ys) (hi : i = xs.length) :
    skipBlanks (cs.map Cell.code) i = .ok (i + (ys.takeWhile Cell.isBlank).length) :=
  passWhile_cells Text.isBlankByte h hi

theorem skipTag_eq_ok (h : cs = xs ++ rest) (hi : i = xs.length) :
    skipTag (cs.map Cell.code) i = .ok (i + (splitTag rest).1.length) := by
  rw [skipTag, peek_cells h hi, ok_bind]
  rcases hrest : rest with _ | ⟨c, tail⟩
  · rfl
  rw [splitTag, ← hrest]
  by_cases htag : isTagStart c.code
  · have hword := List.takeWhile_append_dropWhile (p := (isWordByte ·.code)) (l := rest)
    have hbehind : cs = xs ++ rest.takeWhile (isWordByte ·.code) ++
        rest.dropWhile (isWordByte ·.code) := by rw [List.append_assoc, hword, h]
    have htail : rest.head? = some c := by rw [hrest, List.head?_cons]
    simp only [htail, Option.map_some, Option.any_some, htag, if_true]
    rw [wordEnd, passWhile_cells isWordByte h hi, ok_bind,
      skipBlanks_eq_ok hbehind (by rw [hi, List.length_append]), List.length_append, Nat.add_assoc]
  · simp [hrest, htag]

theorem openingAt_eq_ok (h : cs = xs ++ rest) (hi : i = xs.length) :
    openingAt (cs.map Cell.code) i = .ok ((opening? rest).map fun o => i + (o.1.length - 1)) := by
  have hblanks := List.takeWhile_append_dropWhile (p := Cell.isBlank) (l := rest)
  have hbody : cs = xs ++ rest.takeWhile Cell.isBlank ++ rest.dropWhile Cell.isBlank := by
    rw [List.append_assoc, hblanks, h]
  have hbehind : cs = xs ++ rest.takeWhile Cell.isBlank ++
      (splitTag (rest.dropWhile Cell.isBlank)).1 ++ (splitTag (rest.dropWhile Cell.isBlank)).2 := by
    rw [List.append_assoc, append_splitTag, hbody]
  rw [openingAt, skipBlanks_eq_ok h hi, ok_bind,
    skipTag_eq_ok hbody (by rw [hi, List.length_append]), ok_bind,
    peek_cells hbehind (by rw [hi, List.length_append, List.length_append]), ok_bind, opening?]
  rcases (splitTag (rest.dropWhile Cell.isBlank)).2 with _ | ⟨c, after⟩
  · rfl
  · by_cases hc : c.code = openBrace <;> simp [hc, Nat.add_assoc]

/-- Where a brace opens a definition, the search goes up to where the definition ends. -/
theorem definitionEnd_eq_ok {head body : List Cell} (h : cs = xs ++ rest) (hi : i = xs.length)
    (ho : opening? rest = some (head, body)) :
    definition rest ≠ .absent ∧ definitionEnd (cs.map Cell.code) (i + (head.length - 1)) =
      .ok ((definitionSize? (definition rest)).map (i + ·)) := by
  obtain ⟨front, c, rfl, hc, -⟩ := exists_of_opening ho
  have hbrace : cs = xs ++ front ++ c :: body := by
    rw [h, ← append_of_opening ho, List.append_assoc, List.append_assoc, List.singleton_append]
  have hlength : i + ((front ++ [c]).length - 1) = (xs ++ front).length := by
    rw [hi, List.length_append, List.length_append]
    rfl
  rw [definition, ho, definitionEnd, matchingBrace_eq_ok hbrace hlength hc, ok_bind]
  simp only
  rcases hg : group? 0 body with _ | ⟨group, after⟩
  · exact ⟨by simp, rfl⟩
  have hgroup : cs = xs ++ front ++ c :: group ++ after := by
    rw [hbrace, ← append_of_group hg, ← List.cons_append, ← List.append_assoc]
  have hbehind : i + ((front ++ [c]).length - 1) + group.length + 1 =
      (xs ++ front ++ c :: group).length := by
    rw [hlength, List.length_append, List.length_append, List.length_append, List.length_cons,
      Nat.add_assoc _ group.length]
  simp only [Option.map_some, statementTerminator_eq_ok hgroup hbehind, ok_bind]
  rcases hs : toSemicolon? 0 after with _ | tail
  · exact ⟨by simp, rfl⟩
  · refine ⟨by simp, ?_⟩
    have := length_toSemicolon_pos hs
    simp only [definitionSize?, Option.map_some, pure_eq_ok, Except.ok.injEq, Option.some.injEq,
      List.length_append, List.length_cons, List.length_nil]
    omega

end TestBench.Source.Offset
