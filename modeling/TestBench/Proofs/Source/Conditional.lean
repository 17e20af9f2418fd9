import TestBench.Proofs.Source.Gathered.Directives
import TestBench.Text.Pieces
import TestBench.Text.Word

/-!
# Conditional compilation

Directives open groups and close them. Gathering takes each text once and knows nothing about
groups: two groups of a header may be closed by the same directive, of which the second one is
dropped, so that a group stays open (`not_wellNested_gathered`). What is opened and closed is known
from the directives of a gathered text. If no two of those that open or close groups are the same,
all groups are what they were.

* `lineConditionals_gathered`: the groups that are read line by line;
* `conditionals_gathered`: the groups of a gathered text.
-/

namespace TestBench.Source

/-! ### Groups -/

/-- What a directive does for conditional compilation: it opens a group or closes one. -/
inductive Conditional where
  | opening
  | closing
deriving Repr, DecidableEq

/-- The blanks inside a line. -/
def isLineSpace (c : Char) : Bool :=
  c == ' ' || c == '\t' || c == '\x0C' || c == '\r'

/-- What a line does for conditional compilation, by the name of its directive. -/
def conditional? (line : List Char) : Option Conditional :=
  match line.dropWhile isLineSpace with
  | '#' :: rest =>
    let name := String.ofList ((rest.dropWhile isLineSpace).takeWhile Text.isWord)
    if name ∈ ["if", "ifdef", "ifndef"] then some .opening
    else if name = "endif" then some .closing
    else none
  | _ => none

/-- The number of groups that are open in the end if some are open already, unless a group is
    closed where none is open. -/
def openGroups (n : Nat) : List Conditional → Option Nat
  | [] => some n
  | .opening :: cs => openGroups (n + 1) cs
  | .closing :: cs => if n = 0 then none else openGroups (n - 1) cs

/-- Whether every group that is opened is closed, and no other. -/
def WellNested (cs : List Conditional) : Prop :=
  openGroups 0 cs = some 0

instance (cs : List Conditional) : Decidable (WellNested cs) :=
  inferInstanceAs (Decidable (_ = _))

/-- What the directives of a text open and close. -/
def conditionals (t : String) : List Conditional :=
  (directivesIn t).filterMap fun d => conditional? d.toList

/-- What the lines of a text open and close. -/
def lineConditionals (t : String) : List Conditional :=
  (Text.pieces '\n' t.toList).filterMap conditional?

/-- The lines of a declaration, without the one where a directive starts. -/
def otherLines (d : Declaration) : List (List Char) :=
  if d.kind = .directive then (Text.pieces '\n' d.text.toList).tail
  else Text.pieces '\n' d.text.toList

/-! ### Reading line by line -/

theorem lineConditionals_newline (t u : String) :
    lineConditionals (t ++ "\n" ++ u) = lineConditionals t ++ lineConditionals u := by
  have hlist : (t ++ "\n" ++ u).toList = t.toList ++ '\n' :: u.toList := by simp
  rw [lineConditionals, hlist, Text.pieces_append, List.filterMap_append]
  rfl

theorem lineConditionals_intercalate (ts : List String) :
    lineConditionals ("\n".intercalate ts) = ts.flatMap lineConditionals := by
  induction ts with
  | nil => rfl
  | cons t ts ih =>
    cases ts with
    | nil => rw [String.intercalate_singleton, List.flatMap_singleton]
    | cons u ts =>
      rw [String.intercalate_cons_cons, lineConditionals_newline, ih]
      rfl

theorem dropWhile_takeWhile {α : Type} {p q : α → Bool} (h : ∀ a, q a → p a) (l : List α) :
    (l.takeWhile p).dropWhile q = (l.dropWhile q).takeWhile p := by
  induction l with
  | nil => rfl
  | cons a l ih =>
    by_cases hq : q a
    · rw [List.takeWhile_cons_of_pos (h a hq), List.dropWhile_cons_of_pos hq,
        List.dropWhile_cons_of_pos hq, ih]
    · rw [List.dropWhile_cons_of_neg hq]
      by_cases hp : p a
      · rw [List.takeWhile_cons_of_pos hp, List.dropWhile_cons_of_neg hq]
      · rw [List.takeWhile_cons_of_neg hp, List.dropWhile_nil]

/-- What a text does is decided in its first line. -/
theorem conditional?_takeWhile (cs : List Char) :
    conditional? (cs.takeWhile (· != '\n')) = conditional? cs := by
  have hspace : ∀ c, isLineSpace c → (c != '\n') := by
    rintro c hc
    simp only [isLineSpace, Bool.or_eq_true, beq_iff_eq] at hc
    rcases hc with ((rfl | rfl) | rfl) | rfl <;> decide
  have hword : ∀ c, Text.isWord c → (c != '\n') := by
    rintro c hc
    refine bne_iff_ne.2 fun h => ?_
    rw [h] at hc
    exact absurd hc (by decide)
  have hname : ∀ rest : List Char,
      ((rest.takeWhile (· != '\n')).dropWhile isLineSpace).takeWhile Text.isWord =
        (rest.dropWhile isLineSpace).takeWhile Text.isWord := by
    intro rest
    rw [dropWhile_takeWhile hspace, List.takeWhile_takeWhile]
    congr 1
    funext c
    by_cases hc : Text.isWord c
    · simp only [hc, hword c hc, and_self, decide_true]
    · simp [hc]
  rw [conditional?, conditional?, dropWhile_takeWhile hspace]
  cases cs.dropWhile isLineSpace with
  | nil => rfl
  | cons c rest =>
    by_cases hc : c = '#'
    · subst hc
      rw [List.takeWhile_cons_of_pos (by decide)]
      simp only [hname]
    · by_cases hn : c = '\n'
      · subst hn
        rfl
      · rw [List.takeWhile_cons_of_pos (by simpa using hn)]
        simp [hc]

theorem head_pieces (cs : List Char) :
    (Text.pieces '\n' cs).head? = some (cs.takeWhile (· != '\n')) := by
  induction cs with
  | nil => rfl
  | cons c cs ih =>
    rw [Text.pieces] at ih ⊢
    rw [Text.piecesBy]
    by_cases hc : c = '\n'
    · subst hc
      rfl
    · obtain ⟨ps, hps⟩ := List.head?_eq_some_iff.1 ih
      rw [hps, if_neg (by simpa using hc), List.takeWhile_cons_of_pos (by simpa using hc)]
      rfl

/-- From a directive with no other conditional lines, that one is read. -/
theorem lineConditionals_of_mem {d : Declaration}
    (h : ∀ line ∈ otherLines d, conditional? line = none) : lineConditionals d.text =
      if d.kind = .directive then (conditional? d.text.toList).toList else [] := by
  rw [otherLines] at h
  split at h
  next hk =>
    obtain ⟨rest, hrest⟩ := List.head?_eq_some_iff.1 (head_pieces d.text.toList)
    rw [hrest, List.tail_cons] at h
    rw [if_pos hk, lineConditionals, hrest, List.filterMap_cons, conditional?_takeWhile,
      List.filterMap_eq_nil_iff.2 h]
    cases conditional? d.text.toList <;> rfl
  next hk => rw [if_neg hk, lineConditionals, List.filterMap_eq_nil_iff.2 h]

/-! ### Groups of a gathered text -/

/-- Whether a directive opens or closes a group. -/
def isConditional (d : String) : Bool :=
  (conditional? d.toList).isSome

theorem filterMap_conditional? (ds : List String) :
    (ds.filter isConditional).filterMap (fun d => conditional? d.toList) =
      ds.filterMap fun d => conditional? d.toList := by
  rw [List.filterMap_filter]
  congr 1
  funext d
  cases h : conditional? d.toList <;> simp [isConditional, h]

/-- If no two directives that open or close groups are the same, a gathered text has all of them. -/
theorem conditionals_gathered_of_nodup {t : String} (h : DirectivesApart t)
    (hnodup : ((directivesIn t).filter isConditional).Nodup) :
    conditionals (gathered t) = conditionals t := by
  rw [conditionals, directivesIn_gathered h, ← filterMap_conditional?, filter_firstOccurrences,
    firstOccurrences_of_nodup hnodup, filterMap_conditional?, conditionals]

/-- Line by line, a gathered text has what the directives of the header open and close, each taken
    once, if nothing but the start of a directive looks like one of them. -/
theorem lineConditionals_gathered {t : String} (h : DirectivesApart t)
    (hlines : ∀ d ∈ (extract t).declarations, ∀ line ∈ otherLines d, conditional? line = none) :
    lineConditionals (gathered t) =
      (firstOccurrences [] (directivesIn t)).filterMap fun d => conditional? d.toList := by
  have hread : ∀ d ∈ (extract t).declarations, lineConditionals d.text =
      if d.kind = .directive then (conditional? d.text.toList).toList else [] :=
    fun d hd => lineConditionals_of_mem (hlines d hd)
  rw [gathered_eq, lineConditionals_intercalate,
    flatMap_gatheredTexts (g := fun u => (conditional? u.toList).toList) h hread,
    ← List.filterMap_eq_flatMap_toList]

/-- The directives of a gathered text are those of the header in order, each once, if none lies in
    a definition or in a prototype. So groups that are well nested stay so if no two of the
    directives that open and close them are the same. Line by line the same groups are read, if
    nothing but the start of a directive looks like one that opens or closes a group. -/
theorem conditionals_gathered {t : String} (h : DirectivesApart t) :
    directivesIn (gathered t) = firstOccurrences [] (directivesIn t) ∧
      (((directivesIn t).filter isConditional).Nodup → WellNested (conditionals t) →
        WellNested (conditionals (gathered t))) ∧
      ((∀ d ∈ (extract t).declarations, ∀ line ∈ otherLines d, conditional? line = none) →
        lineConditionals (gathered t) = conditionals (gathered t)) := by
  refine ⟨directivesIn_gathered h, fun hnodup hnested => ?_, fun hlines => ?_⟩
  · rwa [conditionals_gathered_of_nodup h hnodup]
  · rw [lineConditionals_gathered h hlines, conditionals, directivesIn_gathered h]

/-- A guarded prototype stays guarded. -/
theorem conditionals_gathered_guard :
    DirectivesApart "#ifdef A\nint f(void);\n#endif\n" ∧
      WellNested (conditionals (gathered "#ifdef A\nint f(void);\n#endif\n")) := by
  have h : DirectivesApart "#ifdef A\nint f(void);\n#endif\n" := by decide +kernel
  obtain ⟨-, hnested, -⟩ := conditionals_gathered h
  exact ⟨h, hnested (by decide +kernel) (by decide +kernel)⟩

/-- Two groups that are closed alike: the second one stays open. -/
theorem not_wellNested_gathered :
    ¬∀ t, DirectivesApart t → WellNested (conditionals t) →
      WellNested (lineConditionals (gathered t)) := by
  intro h
  have hapart : DirectivesApart "#ifdef A\n#endif\n#ifdef B\n#endif\n" := by decide +kernel
  have hlines : ∀ d ∈ (extract "#ifdef A\n#endif\n#ifdef B\n#endif\n").declarations,
      ∀ line ∈ otherLines d, conditional? line = none := by
    simp only [(extract _).declarations_perm.mem_iff]
    decide +kernel
  have hnested := h _ hapart (by decide +kernel)
  rw [lineConditionals_gathered hapart hlines] at hnested
  exact absurd hnested (by decide +kernel)

end TestBench.Source
