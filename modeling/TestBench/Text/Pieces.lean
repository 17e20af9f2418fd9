/-!
# Pieces

A list cut at every separator. There is always one piece more than there are separators.

* `intercalate_pieces`: the pieces of a text with the separator between them are the text;
* `piecesBy_append`, `pieces_append`: a separator between two texts cuts them apart;
* `forall_mem_piecesBy`: no piece holds a separator;
* `mem_of_mem_piecesBy`, `exists_mem_piecesBy`: the pieces hold what the text holds.
-/

namespace TestBench.Text

/-- The parts of a list between the separators. -/
def piecesBy {α : Type} (separates : α → Bool) : List α → List (List α)
  | [] => [[]]
  | a :: as =>
    if separates a then [] :: piecesBy separates as
    else
      match piecesBy separates as with
      | [] => [[a]]
      | p :: ps => (a :: p) :: ps

/-- The parts of a text between the occurrences of a character. -/
def pieces (separator : Char) (cs : List Char) : List (List Char) :=
  piecesBy (· == separator) cs

/-- The ways to cut a list in two, those with the shortest front first. -/
def cuts {α : Type} (as : List α) : List (List α × List α) :=
  (List.range (as.length + 1)).map fun n => (as.take n, as.drop n)

/-- There is at least one piece. -/
theorem piecesBy_ne_nil {α : Type} (separates : α → Bool) (as : List α) :
    piecesBy separates as ≠ [] := by
  cases as with
  | nil => simp [piecesBy]
  | cons a as =>
    rw [piecesBy]
    split
    · simp
    · split <;> simp

/-- The pieces of a text with the separator between them are the text. -/
theorem intercalate_pieces (separator : Char) (cs : List Char) :
    [separator].intercalate (pieces separator cs) = cs := by
  unfold pieces
  induction cs with
  | nil => simp [piecesBy, List.intercalate]
  | cons c cs ih =>
    rw [piecesBy]
    obtain ⟨p, ps, hp⟩ := List.exists_cons_of_ne_nil (piecesBy_ne_nil (· == separator) cs)
    rw [hp] at ih
    split
    · rename_i hc
      rw [hp, beq_iff_eq.1 hc, ← ih]
      simp [List.intercalate]
    · rw [hp, ← ih]
      cases ps <;> simp [List.intercalate]

/-- A separator between two lists cuts them apart. -/
theorem piecesBy_append {α : Type} {separates : α → Bool} {a : α} (ha : separates a)
    (as bs : List α) :
    piecesBy separates (as ++ a :: bs) = piecesBy separates as ++ piecesBy separates bs := by
  induction as with
  | nil => simp [piecesBy, ha]
  | cons c cs ih =>
    rw [List.cons_append, piecesBy, piecesBy, ih]
    obtain ⟨p, ps, hp⟩ := List.exists_cons_of_ne_nil (piecesBy_ne_nil separates cs)
    rw [hp]
    split <;> rfl

/-- A separator between two texts cuts them apart. -/
theorem pieces_append (separator : Char) (cs ds : List Char) :
    pieces separator (cs ++ separator :: ds) = pieces separator cs ++ pieces separator ds :=
  piecesBy_append (by simp) cs ds

/-- Without a separator there is one piece. -/
theorem piecesBy_of_forall {α : Type} {separates : α → Bool} {as : List α}
    (h : ∀ a ∈ as, separates a = false) : piecesBy separates as = [as] := by
  induction as with
  | nil => rfl
  | cons a as ih =>
    rw [List.forall_mem_cons] at h
    rw [piecesBy, ih h.2, if_neg (by simp [h.1])]

/-- No piece holds a separator. -/
theorem forall_mem_piecesBy {α : Type} {separates : α → Bool} {as p : List α}
    (h : p ∈ piecesBy separates as) : ∀ a ∈ p, separates a = false := by
  induction as generalizing p with
  | nil => simp_all [piecesBy]
  | cons a as ih =>
    rw [piecesBy] at h
    obtain ⟨q, qs, hq⟩ := List.exists_cons_of_ne_nil (piecesBy_ne_nil separates as)
    rw [hq] at h ih
    split at h
    · rcases List.mem_cons.1 h with rfl | h
      · simp
      · exact ih h
    · rename_i ha
      rcases List.mem_cons.1 h with rfl | h
      · intro b hb
        rcases List.mem_cons.1 hb with rfl | hb
        · simpa using ha
        · exact ih List.mem_cons_self b hb
      · exact ih (List.mem_cons_of_mem _ h)

/-- A piece holds what the text holds. -/
theorem mem_of_mem_piecesBy {α : Type} {separates : α → Bool} {as p : List α}
    (h : p ∈ piecesBy separates as) {a : α} (ha : a ∈ p) : a ∈ as := by
  induction as generalizing p with
  | nil => simp_all [piecesBy]
  | cons b as ih =>
    rw [piecesBy] at h
    obtain ⟨q, qs, hq⟩ := List.exists_cons_of_ne_nil (piecesBy_ne_nil separates as)
    rw [hq] at h ih
    split at h
    · rcases List.mem_cons.1 h with rfl | h
      · exact absurd ha List.not_mem_nil
      · exact List.mem_cons_of_mem _ (ih h ha)
    · rcases List.mem_cons.1 h with rfl | h
      · rcases List.mem_cons.1 ha with rfl | ha
        · exact List.mem_cons_self
        · exact List.mem_cons_of_mem _ (ih List.mem_cons_self ha)
      · exact List.mem_cons_of_mem _ (ih (List.mem_cons_of_mem _ h) ha)

/-- What a text holds is a separator or in a piece. -/
theorem exists_mem_piecesBy {α : Type} {separates : α → Bool} {as : List α} {a : α} (ha : a ∈ as)
    (hseparates : separates a = false) : ∃ p ∈ piecesBy separates as, a ∈ p := by
  induction as with
  | nil => exact absurd ha List.not_mem_nil
  | cons b as ih =>
    rw [piecesBy]
    obtain ⟨q, qs, hq⟩ := List.exists_cons_of_ne_nil (piecesBy_ne_nil separates as)
    rw [hq] at ih ⊢
    rcases List.mem_cons.1 ha with rfl | ha
    · rw [if_neg (by simp [hseparates])]
      exact ⟨a :: q, List.mem_cons_self, List.mem_cons_self⟩
    · obtain ⟨p, hp, hap⟩ := ih ha
      split
      · exact ⟨p, List.mem_cons_of_mem _ hp, hap⟩
      · rcases List.mem_cons.1 hp with rfl | hp
        · exact ⟨b :: p, List.mem_cons_self, List.mem_cons_of_mem _ hap⟩
        · exact ⟨p, List.mem_cons_of_mem _ hp, hap⟩

end TestBench.Text
