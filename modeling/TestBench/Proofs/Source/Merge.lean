import Mathlib.Data.List.Pairwise
import TestBench.Proofs.Source.Slice

/-!
# Merging declarations

Declarations are merged by sorting them by their places. Where no two have the same place, there
is only one order left for them, so that a list that was in order before is found again in the
merged one. Of the texts of merged declarations each is taken once, where it occurs first.
-/

namespace TestBench

theorem perm_sortByOrder (ds : List Declaration) : (sortByOrder ds).Perm ds :=
  List.mergeSort_perm ..

theorem pairwise_sortByOrder (ds : List Declaration) :
    (sortByOrder ds).Pairwise fun d e => d.order ≤ e.order := by
  have h : (sortByOrder ds).Pairwise fun d e => decide (d.order ≤ e.order) := by
    refine List.pairwise_mergeSort (fun a b c hab hbc => ?_) (fun a b => ?_) ds
    · simp only [decide_eq_true_eq] at *
      omega
    · simp only [Bool.or_eq_true, decide_eq_true_eq]
      omega
  exact h.imp fun h => of_decide_eq_true h

/-- Declarations at different places are merged so that each starts before the next. -/
theorem inOrder_sortByOrder {ds : List Declaration}
    (h : ds.Pairwise fun d e => d.order ≠ e.order) : InOrder (sortByOrder ds) := by
  have hne : (sortByOrder ds).Pairwise fun d e => d.order ≠ e.order :=
    ((perm_sortByOrder ds).pairwise_iff fun h => h.symm).2 h
  exact ((pairwise_sortByOrder ds).and hne).imp fun ⟨hle, hne⟩ => Nat.lt_of_le_of_ne hle hne

/-- In order, declarations stand in one way only. -/
theorem InOrder.eq_of_perm {ds es : List Declaration} (hd : InOrder ds) (he : InOrder es)
    (h : ds.Perm es) : ds = es :=
  List.Perm.eq_of_pairwise (fun _ _ _ _ hab hba => absurd hab (Nat.lt_asymm hba)) hd he h

theorem InOrder.filter {ds : List Declaration} (h : InOrder ds) (p : Declaration → Bool) :
    InOrder (ds.filter p) :=
  List.Pairwise.filter p h

/-- What a merged list has of one kind is what there was of it, if that was in order. -/
theorem filter_sortByOrder {ds es : List Declaration} {p : Declaration → Bool}
    (hds : ds.Pairwise fun d e => d.order ≠ e.order) (hes : InOrder es) (h : ds.filter p = es) :
    (sortByOrder ds).filter p = es :=
  ((inOrder_sortByOrder hds).filter p).eq_of_perm hes (h ▸ (perm_sortByOrder ds).filter p)

/-- Whether each list of an extraction holds declarations of its kind. -/
structure Extraction.IsSorted (e : Extraction) : Prop where
  directives : ∀ d ∈ e.directives, d.kind = .directive
  structsAndEnums : ∀ d ∈ e.structsAndEnums, d.kind = .structOrEnum
  prototypes : ∀ d ∈ e.prototypes, d.kind = .prototype

/-- The list of an extraction that a kind belongs to. -/
def Extraction.ofKind (e : Extraction) : DeclarationKind → List Declaration
  | .directive => e.directives
  | .structOrEnum => e.structsAndEnums
  | .prototype => e.prototypes

theorem filter_kind {ds : List Declaration} {k : DeclarationKind} (h : ∀ d ∈ ds, d.kind = k)
    (k' : DeclarationKind) : ds.filter (·.kind == k') = if k = k' then ds else [] := by
  split
  next hk =>
    subst hk
    exact List.filter_eq_self.2 fun d hd => beq_iff_eq.2 (h d hd)
  next hk =>
    exact List.filter_eq_nil_iff.2 fun d hd => by rwa [beq_iff_eq, h d hd]

/-- By their kinds, the declarations of an extraction are told apart again. -/
theorem Extraction.IsSorted.filter_append {e : Extraction} (h : e.IsSorted) (k : DeclarationKind) :
    (e.directives ++ e.structsAndEnums ++ e.prototypes).filter (·.kind == k) = e.ofKind k := by
  rw [List.filter_append, List.filter_append, filter_kind h.directives,
    filter_kind h.structsAndEnums, filter_kind h.prototypes]
  cases k <;> simp [ofKind]

/-! ### First occurrences -/

theorem mem_firstOccurrences {seen ts : List String} {t : String} :
    t ∈ firstOccurrences seen ts ↔ t ∈ ts ∧ t ∉ seen := by
  induction ts generalizing seen with
  | nil => simp [firstOccurrences]
  | cons u ts ih =>
    rw [firstOccurrences]
    by_cases hu : u ∈ seen
    · rw [if_pos hu, ih, List.mem_cons]
      grind
    · rw [if_neg hu, List.mem_cons, ih, List.mem_cons, List.mem_cons]
      grind

/-- What has been seen is known by its members. -/
theorem firstOccurrences_congr {seen seen' : List String} (h : ∀ t, t ∈ seen ↔ t ∈ seen')
    (ts : List String) : firstOccurrences seen ts = firstOccurrences seen' ts := by
  induction ts generalizing seen seen' with
  | nil => rfl
  | cons u ts ih =>
    have hcons : ∀ t, t ∈ u :: seen ↔ t ∈ u :: seen' := fun t => by
      rw [List.mem_cons, List.mem_cons, h]
    rw [firstOccurrences, firstOccurrences, ih h, ih hcons]
    simp only [h]

theorem firstOccurrences_append (seen ts us : List String) :
    firstOccurrences seen (ts ++ us) =
      firstOccurrences seen ts ++ firstOccurrences (ts ++ seen) us := by
  induction ts generalizing seen with
  | nil => rfl
  | cons t ts ih =>
    rw [List.cons_append, firstOccurrences, firstOccurrences]
    split
    next ht =>
      rw [ih]
      exact congrArg _ (firstOccurrences_congr (by grind) us)
    next ht =>
      rw [ih, List.cons_append]
      exact congrArg _ (congrArg _ (firstOccurrences_congr (by grind) us))

/-- What does not occur makes no difference. -/
theorem firstOccurrences_cons {seen ts : List String} {t : String} (h : t ∉ ts) :
    firstOccurrences (t :: seen) ts = firstOccurrences seen ts := by
  induction ts generalizing seen with
  | nil => rfl
  | cons u ts ih =>
    rw [List.mem_cons, not_or] at h
    have hswap : ∀ s, s ∈ u :: t :: seen ↔ s ∈ t :: u :: seen := fun s => by
      simp only [List.mem_cons, or_left_comm]
    rw [firstOccurrences, firstOccurrences, ih h.2, firstOccurrences_congr hswap, ih h.2]
    simp only [List.mem_cons, Ne.symm h.1, false_or]

/-- Texts of one kind are taken as if there were no others. -/
theorem filter_firstOccurrences (p : String → Bool) (seen ts : List String) :
    (firstOccurrences seen ts).filter p = firstOccurrences seen (ts.filter p) := by
  induction ts generalizing seen with
  | nil => rfl
  | cons t ts ih =>
    rw [firstOccurrences]
    by_cases hp : p t
    · rw [List.filter_cons_of_pos hp, firstOccurrences, ← ih, ← ih]
      split
      · rfl
      · rw [List.filter_cons_of_pos hp]
    · have hnot : t ∉ ts.filter p := fun h => hp (List.mem_filter.1 h).2
      rw [List.filter_cons_of_neg hp, ← ih]
      split
      · rfl
      · rw [List.filter_cons_of_neg hp, ih, ih, firstOccurrences_cons hnot]

/-- Without repeats, all are taken. -/
theorem firstOccurrences_of_nodup {ts : List String} (h : ts.Nodup) :
    firstOccurrences [] ts = ts := by
  induction ts with
  | nil => rfl
  | cons t ts ih =>
    rw [List.nodup_cons] at h
    rw [firstOccurrences, if_neg List.not_mem_nil, firstOccurrences_cons h.1, ih h.2]

theorem firstOccurrences_eq_nil {seen ts : List String} (h : ts ⊆ seen) :
    firstOccurrences seen ts = [] :=
  List.eq_nil_iff_forall_not_mem.2 fun _ ht =>
    (mem_firstOccurrences.1 ht).2 (h (mem_firstOccurrences.1 ht).1)

end TestBench
