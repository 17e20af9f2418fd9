import Mathlib.Data.Prod.Lex
import Mathlib.Order.Bounds.Basic
import TestBench.Proofs.Source.Merge

/-!
# Which of several declarations is taken

Of the declarations with one text, the foremost is taken: the one with the least order, and among
those of that order the one that stands first in the list. Sorting is stable, so that the sorted
declarations are in order of both numbers together (`ranked`), and this order is strict. What is
listed for them follows from it: each text once, by its foremost place.

A sorted list is known by what it has of each order (`eq_of_filter_order`). So neither moving
declarations of different orders past one another nor leaving out one that is not the foremost makes
a difference to the listing.

* `pair_sublist_firstOccurrences`: which of two texts occurs first;
* `isLeast_places`: the first of the sorted declarations with a text is the foremost one;
* `headerDefinitions_listing`: the listing of declarations, and when two have the same.
-/

namespace TestBench

/-! ### The first of several -/

/-- Each text is listed once. -/
theorem nodup_firstOccurrences (seen ts : List String) : (firstOccurrences seen ts).Nodup := by
  induction ts generalizing seen with
  | nil => exact .nil
  | cons t ts ih =>
    rw [firstOccurrences]
    split
    · exact ih seen
    · exact List.nodup_cons.2
        ⟨fun h => (mem_firstOccurrences.1 h).2 List.mem_cons_self, ih (t :: seen)⟩

/-- A text that has occurred may occur again. -/
theorem firstOccurrences_repeat {us : List String} {t : String} (ht : t ∈ us) (ts : List String) :
    firstOccurrences [] (us ++ t :: ts) = firstOccurrences [] (us ++ ts) := by
  rw [firstOccurrences_append, firstOccurrences_append, firstOccurrences,
    if_pos (List.mem_append_left _ ht)]

/-- What stands before a member of a list without repeats is in front of it. -/
theorem mem_of_pair_sublist {α : Type} {u v : List α} {x y : α} (h : [x, y].Sublist (u ++ y :: v))
    (hnodup : (u ++ y :: v).Nodup) : x ∈ u := by
  obtain ⟨l, l', hl, hu, hv⟩ := List.sublist_append_iff.1 h
  cases l with
  | nil =>
    rw [List.nil_append] at hl
    subst hl
    have hy : y ∈ v := List.singleton_sublist.1 hv.tail
    exact absurd hy (List.nodup_cons.1 (List.nodup_append.1 hnodup).2.1).1
  | cons z l =>
    obtain ⟨rfl, -⟩ := List.cons.inj hl
    exact hu.subset List.mem_cons_self

/-- A text is listed before another one if it occurs where the other has not occurred. -/
theorem pair_sublist_firstOccurrences {ts : List String} {x y : String} :
    [x, y].Sublist (firstOccurrences [] ts) ↔ ∃ a b, ts = a ++ b ∧ x ∈ a ∧ y ∉ a ∧ y ∈ b := by
  constructor
  · intro h
    have hy : y ∈ ts := (mem_firstOccurrences.1 (h.subset (by simp))).1
    obtain ⟨a, b, rfl, hya⟩ := List.eq_append_cons_of_mem hy
    have hnodup := nodup_firstOccurrences [] (a ++ y :: b)
    rw [firstOccurrences_append, List.append_nil, firstOccurrences, if_neg hya] at h hnodup
    have hx := mem_of_pair_sublist h hnodup
    exact ⟨a, y :: b, rfl, (mem_firstOccurrences.1 hx).1, hya, List.mem_cons_self⟩
  · rintro ⟨a, b, rfl, hx, hya, hyb⟩
    rw [firstOccurrences_append]
    have hfirst : [x].Sublist (firstOccurrences [] a) :=
      List.singleton_sublist.2 (mem_firstOccurrences.2 ⟨hx, List.not_mem_nil⟩)
    have hsecond : [y].Sublist (firstOccurrences (a ++ []) b) :=
      List.singleton_sublist.2 (mem_firstOccurrences.2 ⟨hyb, by rwa [List.append_nil]⟩)
    exact hfirst.append hsecond

/-! ### Places -/

/-- Where a text stands among declarations: the order of one that has it, and the place of this one
    in the list. Orders are compared first. -/
def places (ds : List Declaration) (x : String) : Set (ℕ ×ₗ ℕ) :=
  {p | ∃ d, ds[(ofLex p).2]? = some d ∧ d.text = x ∧ d.order = (ofLex p).1}

/-- The order of a declaration and its place in a list. -/
def rank (e : Declaration × ℕ) : ℕ ×ₗ ℕ :=
  toLex (e.1.order, e.2)

/-- Declarations with their places in the list, in the order in which they are sorted. -/
def ranked (ds : List Declaration) : List (Declaration × ℕ) :=
  ds.zipIdx.mergeSort fun e f => rank e ≤ rank f

theorem order_le_of_rank_lt {e f : Declaration × ℕ} (h : rank e < rank f) :
    e.1.order ≤ f.1.order :=
  (Prod.Lex.toLex_lt_toLex.1 h).elim le_of_lt fun h => h.1.le

theorem place_lt_of_rank_lt {e f : Declaration × ℕ} (h : rank e < rank f)
    (horder : e.1.order = f.1.order) : e.2 < f.2 :=
  (Prod.Lex.toLex_lt_toLex.1 h).elim (fun h => absurd horder h.ne) And.right

theorem map_fst_ranked (ds : List Declaration) : (ranked ds).map Prod.fst = sortByOrder ds := by
  have hrank : (fun e f : Declaration × ℕ => decide (rank e ≤ rank f)) =
      List.zipIdxLE fun d d' => decide (d.order ≤ d'.order) := by
    funext e f
    simp only [rank, List.zipIdxLE, Prod.Lex.toLex_le_toLex, decide_eq_true_eq]
    grind
  rw [ranked, hrank, List.mergeSort_zipIdx]
  rfl

theorem mem_ranked {ds : List Declaration} {e : Declaration × ℕ} :
    e ∈ ranked ds ↔ ds[e.2]? = some e.1 := by
  rw [ranked, List.mem_mergeSort, List.mem_zipIdx_iff_getElem?]

theorem pairwise_zipIdx (ds : List Declaration) : ds.zipIdx.Pairwise fun e f => e.2 < f.2 := by
  have h : (ds.zipIdx.map Prod.snd).Pairwise (· < ·) := by
    rw [List.zipIdx_map_snd]
    exact List.pairwise_lt_range'
  exact List.pairwise_map.1 h

theorem pairwise_ranked (ds : List Declaration) :
    (ranked ds).Pairwise fun e f => rank e < rank f := by
  have hle : (ranked ds).Pairwise fun e f => rank e ≤ rank f := by
    have hsorted : (ranked ds).Pairwise fun e f => decide (rank e ≤ rank f) :=
      List.pairwise_mergeSort
        (fun e f g hef hfg => by simp only [decide_eq_true_eq] at *; exact hef.trans hfg)
        (fun e f => by simpa using le_total (rank e) (rank f)) ds.zipIdx
    exact hsorted.imp of_decide_eq_true
  -- No two of them have the same place.
  have hne : (ranked ds).Pairwise fun e f => e.2 ≠ f.2 :=
    ((List.mergeSort_perm ds.zipIdx _).pairwise_iff fun h => h.symm).2
      ((pairwise_zipIdx ds).imp LT.lt.ne)
  exact (hle.and hne).imp fun ⟨hle, hne⟩ => hle.lt_of_ne fun h =>
    hne (congrArg (fun p => (ofLex p).2) h)

/-- What is ranked before another one stands in front of it. -/
theorem mem_of_rank_lt {ds : List Declaration} {e f : Declaration × ℕ}
    {a b : List (Declaration × ℕ)} (h : ranked ds = a ++ f :: b) (he : e ∈ ranked ds)
    (hlt : rank e < rank f) : e ∈ a := by
  have hpair := pairwise_ranked ds
  rw [h] at he hpair
  refine (List.mem_append.1 he).resolve_right fun hmem => ?_
  rcases List.mem_cons.1 hmem with rfl | hmem
  · exact lt_irrefl _ hlt
  · exact lt_asymm hlt ((List.pairwise_cons.1 (List.pairwise_append.1 hpair).2.1).1 e hmem)

theorem mem_places {ds : List Declaration} {x : String} {p : ℕ ×ₗ ℕ} :
    p ∈ places ds x ↔ ∃ e ∈ ranked ds, e.1.text = x ∧ rank e = p := by
  constructor
  · rintro ⟨d, hd, hx, horder⟩
    exact ⟨(d, (ofLex p).2), mem_ranked.2 hd, hx, by rw [rank, horder]; rfl⟩
  · rintro ⟨e, he, hx, rfl⟩
    exact ⟨e.1, mem_ranked.1 he, hx, rfl⟩

/-- The first of the sorted declarations with a text is the foremost one. -/
theorem isLeast_places {ds : List Declaration} {e : Declaration × ℕ} {a b : List (Declaration × ℕ)}
    (h : ranked ds = a ++ e :: b) (ha : ∀ f ∈ a, f.1.text ≠ e.1.text) :
    IsLeast (places ds e.1.text) (rank e) := by
  refine ⟨mem_places.2 ⟨e, by simp [h], rfl, rfl⟩, fun p hp => ?_⟩
  obtain ⟨f, hf, htext, rfl⟩ := mem_places.1 hp
  exact not_lt.1 fun hlt => ha f (mem_of_rank_lt h hf hlt) htext

theorem exists_foremost {ds : List Declaration} {x : String}
    (h : x ∈ (ranked ds).map fun e => e.1.text) :
    ∃ a e b, ranked ds = a ++ e :: b ∧ e.1.text = x ∧ ∀ f ∈ a, f.1.text ≠ x := by
  obtain ⟨u, v, huv, hu⟩ := List.eq_append_cons_of_mem h
  obtain ⟨a, r, hr, rfl, hv⟩ := List.map_eq_append_iff.1 huv
  obtain ⟨e, b, rfl, he, rfl⟩ := List.map_eq_cons_iff.1 hv
  exact ⟨a, e, b, hr, he, fun f hf hx => hu (hx ▸ List.mem_map_of_mem hf)⟩

/-- Of two texts the one with the foremost place occurs first. -/
theorem occurs_before_iff {ds : List Declaration} {x y : String} :
    (∃ a b, ((ranked ds).map fun e => e.1.text) = a ++ b ∧ x ∈ a ∧ y ∉ a ∧ y ∈ b) ↔
      ∃ p q, IsLeast (places ds x) p ∧ IsLeast (places ds y) q ∧ p < q := by
  constructor
  · rintro ⟨a, b, hab, hx, hya, hyb⟩
    obtain ⟨u, e, v, hr, rfl, hu⟩ := exists_foremost (x := x) (by rw [hab]; simp [hx])
    obtain ⟨u', f, v', hr', rfl, hu'⟩ := exists_foremost (x := y) (by rw [hab]; simp [hyb])
    have he := isLeast_places hr hu
    refine ⟨_, _, he, isLeast_places hr' hu', ?_⟩
    obtain ⟨a, b, hsplit, rfl, rfl⟩ := List.map_eq_append_iff.1 hab
    obtain ⟨e', he', htext⟩ := List.mem_map.1 hx
    have hle : rank e ≤ rank e' := he.2 (mem_places.2 ⟨e', by rw [hsplit]; simp [he'], htext, rfl⟩)
    have hf : f ∈ b := by
      have : f ∈ a ++ b := hsplit ▸ hr' ▸ by simp
      exact (List.mem_append.1 this).resolve_left fun h => hya (List.mem_map_of_mem h)
    have hpair := pairwise_ranked ds
    rw [hsplit] at hpair
    exact hle.trans_lt ((List.pairwise_append.1 hpair).2.2 e' he' f hf)
  · rintro ⟨p, q, hp, hq, hlt⟩
    obtain ⟨e, he, rfl, rfl⟩ := mem_places.1 hp.1
    obtain ⟨f, hf, rfl, -⟩ := mem_places.1 hq.1
    obtain ⟨u, g, v, hr, htext, hu⟩ := exists_foremost (List.mem_map_of_mem hf)
    have hg := isLeast_places hr fun f' hf' => htext ▸ hu f' hf'
    rw [htext] at hg
    obtain rfl := hg.unique hq
    refine ⟨u.map fun e => e.1.text, (g :: v).map fun e => e.1.text, by rw [hr, List.map_append],
      List.mem_map_of_mem (mem_of_rank_lt hr he hlt), fun h => ?_, by simp [htext]⟩
    obtain ⟨f', hf', hsame⟩ := List.mem_map.1 h
    exact hu f' hf' hsame

/-! ### Sorted lists -/

/-- Sorting keeps what there is of an order as it stands. -/
theorem filter_order_sortByOrder (ds : List Declaration) (n : ℕ) :
    (sortByOrder ds).filter (·.order = n) = ds.filter (·.order = n) := by
  have hsame : (ds.filter (·.order = n)).Pairwise fun d e => decide (d.order ≤ e.order) := by
    refine List.pairwise_of_forall_mem_list fun d hd e he => ?_
    simp_all
  have hsub : (ds.filter (·.order = n)).Sublist (sortByOrder ds) := by
    refine List.sublist_mergeSort (fun a b c hab hbc => ?_) (fun a b => ?_) hsame
      List.filter_sublist
    · simp only [decide_eq_true_eq] at *
      omega
    · simp only [Bool.or_eq_true, decide_eq_true_eq]
      omega
  have hsub := hsub.filter (·.order = n)
  simp only [List.filter_filter, Bool.and_self] at hsub
  exact (hsub.eq_of_length ((perm_sortByOrder ds).filter _).length_eq.symm).symm

theorem order_le_of_filter {d : Declaration} {ds es : List Declaration}
    (he : es.Pairwise fun d e => d.order ≤ e.order)
    (h : ∀ n, (d :: ds).filter (·.order = n) = es.filter (·.order = n)) :
    ∃ e es', es = e :: es' ∧ e.order ≤ d.order := by
  have hmem : d ∈ es := by
    have : d ∈ es.filter (·.order = d.order) := h d.order ▸ by simp
    exact (List.mem_filter.1 this).1
  cases es with
  | nil => exact absurd hmem List.not_mem_nil
  | cons e es =>
    refine ⟨e, es, rfl, ?_⟩
    rcases List.mem_cons.1 hmem with rfl | hmem
    · exact le_rfl
    · exact (List.pairwise_cons.1 he).1 d hmem

/-- A sorted list is known by what it has of each order. -/
theorem eq_of_filter_order {ds es : List Declaration}
    (hd : ds.Pairwise fun d e => d.order ≤ e.order) (he : es.Pairwise fun d e => d.order ≤ e.order)
    (h : ∀ n, ds.filter (·.order = n) = es.filter (·.order = n)) : ds = es := by
  induction ds generalizing es with
  | nil => exact (List.eq_nil_iff_forall_not_mem.2 fun e hmem =>
      List.filter_eq_nil_iff.1 (h e.order).symm e hmem (by simp)).symm
  | cons d ds ih =>
    obtain ⟨e, es, rfl, hle⟩ := order_le_of_filter he h
    obtain ⟨_, _, hcons, hle'⟩ := order_le_of_filter hd fun n => (h n).symm
    obtain ⟨rfl, rfl⟩ := List.cons.inj hcons
    -- Both start with what they have of the least order.
    have horder : e.order = d.order := le_antisymm hle hle'
    have hfirst := h d.order
    rw [List.filter_cons_of_pos (by simp), List.filter_cons_of_pos (by simp [horder])] at hfirst
    obtain ⟨rfl, -⟩ := List.cons.inj hfirst
    refine congrArg _ (ih (List.pairwise_cons.1 hd).2 (List.pairwise_cons.1 he).2 fun n => ?_)
    have := h n
    rw [List.filter_cons, List.filter_cons] at this
    split at this
    · exact (List.cons.inj this).2
    · exact this

/-- So sorting is the same for lists that have the same of each order. -/
theorem sortByOrder_eq {ds es : List Declaration}
    (hes : es.Pairwise fun d e => d.order ≤ e.order)
    (h : ∀ n, ds.filter (·.order = n) = es.filter (·.order = n)) : sortByOrder ds = es :=
  eq_of_filter_order (pairwise_sortByOrder ds) hes fun n =>
    (filter_order_sortByOrder ds n).trans (h n)

theorem sortByOrder_congr {ds es : List Declaration}
    (h : ∀ n, ds.filter (·.order = n) = es.filter (·.order = n)) :
    sortByOrder ds = sortByOrder es :=
  sortByOrder_eq (pairwise_sortByOrder es) fun n =>
    (h n).trans (filter_order_sortByOrder es n).symm

theorem sortByOrder_sortByOrder (ds : List Declaration) :
    sortByOrder (sortByOrder ds) = sortByOrder ds :=
  sortByOrder_congr (filter_order_sortByOrder ds)

/-- Without one of them, declarations are sorted as they were with it. -/
theorem exists_ranked_append (a : List Declaration) (d : Declaration) (b : List Declaration) :
    ∃ u v, ranked (a ++ d :: b) = u ++ (d, a.length) :: v ∧
      sortByOrder (a ++ b) = (u ++ v).map Prod.fst := by
  have hmem : (d, a.length) ∈ ranked (a ++ d :: b) := mem_ranked.2 (by simp)
  obtain ⟨u, v, huv⟩ := List.append_of_mem hmem
  have hranked := pairwise_ranked (a ++ d :: b)
  rw [huv] at hranked
  have hpair : (u ++ v).Pairwise fun e f => rank e < rank f :=
    hranked.sublist (List.Sublist.append_left (List.sublist_cons_self _ _) u)
  obtain ⟨za, zb, hz, rfl, rfl⟩ : ∃ za zb, (a ++ d :: b).zipIdx = za ++ (d, a.length) :: zb ∧
      za.map Prod.fst = a ∧ zb.map Prod.fst = b := by
    refine ⟨a.zipIdx, b.zipIdx (a.length + 1), ?_, List.zipIdx_map_fst _ _, List.zipIdx_map_fst _ _⟩
    rw [List.zipIdx_append, List.zipIdx_cons, Nat.zero_add]
  have hz' := hz ▸ pairwise_zipIdx (za.map Prod.fst ++ d :: zb.map Prod.fst)
  have hperm : (za ++ zb).Perm (u ++ v) := by
    have := List.mergeSort_perm (za.map Prod.fst ++ d :: zb.map Prod.fst).zipIdx
      fun e f => decide (rank e ≤ rank f)
    rw [← ranked, huv, hz] at this
    exact (List.perm_middle.symm.trans (this.symm.trans List.perm_middle)).cons_inv
  refine ⟨u, v, huv, sortByOrder_eq
    (List.pairwise_map.2 (hpair.imp order_le_of_rank_lt)) fun n => ?_⟩
  rw [← List.map_append, List.filter_map, List.filter_map]
  -- What there is of one order stands on both sides in the order of the places.
  have hasymm : ∀ e f : Declaration × ℕ, e.2 < f.2 → f.2 < e.2 → e = f :=
    fun e f h h' => absurd h (lt_asymm h')
  refine congrArg _ ((hperm.filter _).eq_of_pairwise (fun e f _ _ => hasymm e f) ?_ ?_)
  · exact (hz'.sublist (List.Sublist.append_left (List.sublist_cons_self _ _) za)).filter _
  · refine (List.Pairwise.and_mem.1 (hpair.filter _)).imp fun ⟨he, hf, hlt⟩ => ?_
    simp only [Function.comp_apply, List.mem_filter, decide_eq_true_eq] at he hf
    exact place_lt_of_rank_lt hlt (he.2.trans hf.2.symm)

/-! ### What is listed -/

/-- The texts of declarations, each once, in the order of their foremost places. -/
structure ListsForemost (ds : List Declaration) (texts : List String) : Prop where
  nodup : texts.Nodup
  mem_iff : ∀ x, x ∈ texts ↔ ∃ d ∈ ds, d.text = x
  before_iff : ∀ x y, [x, y].Sublist texts ↔
    ∃ p q, IsLeast (places ds x) p ∧ IsLeast (places ds y) q ∧ p < q

theorem map_text_ranked (ds : List Declaration) :
    ((ranked ds).map fun e => e.1.text) = (sortByOrder ds).map Declaration.text := by
  rw [← map_fst_ranked, List.map_map]
  rfl

theorem listsForemost_firstOccurrences (ds : List Declaration) :
    ListsForemost ds (firstOccurrences [] ((sortByOrder ds).map Declaration.text)) where
  nodup := nodup_firstOccurrences _ _
  mem_iff x := by
    rw [mem_firstOccurrences, and_iff_left List.not_mem_nil, List.mem_map]
    exact exists_congr fun d => and_congr_left fun _ => (perm_sortByOrder ds).mem_iff
  before_iff x y := by
    rw [pair_sublist_firstOccurrences, ← map_text_ranked, occurs_before_iff]

/-- A declaration that is not the foremost one with its text makes no difference. -/
theorem headerDefinitions_of_foremost {a b : List Declaration} {d : Declaration} {p : ℕ ×ₗ ℕ}
    (hp : p ∈ places (a ++ d :: b) d.text) (hlt : p < toLex (d.order, a.length)) :
    headerDefinitions (a ++ b) = headerDefinitions (a ++ d :: b) := by
  obtain ⟨u, v, huv, hsort⟩ := exists_ranked_append a d b
  obtain ⟨e, he, htext, rfl⟩ := mem_places.1 hp
  have hmem : d.text ∈ u.map fun e => e.1.text :=
    htext ▸ List.mem_map_of_mem (mem_of_rank_lt huv he hlt)
  rw [headerDefinitions, headerDefinitions, hsort, ← map_text_ranked, huv, List.map_map,
    List.map_append, List.map_append, List.map_cons]
  exact congrArg _ (firstOccurrences_repeat hmem _).symm

/-- What is listed for declarations: their texts, each once, in the order of their foremost places.
    So the listing is the same for declarations that have the same of each order, in the same
    sequence; it is the same without a declaration whose text stands at a place before it; and
    merging what is extracted makes no difference to it. -/
theorem headerDefinitions_listing (ds : List Declaration) :
    (∃ texts, ListsForemost ds texts ∧ headerDefinitions ds = "\n".intercalate texts) ∧
      (∀ es : List Declaration, (∀ n, es.filter (·.order = n) = ds.filter (·.order = n)) →
        headerDefinitions es = headerDefinitions ds) ∧
      (∀ a d b, ds = a ++ d :: b → (∃ p ∈ places ds d.text, p < toLex (d.order, a.length)) →
        headerDefinitions (a ++ b) = headerDefinitions ds) ∧
      ∀ e : Extraction, headerDefinitions e.declarations =
        headerDefinitions (e.directives ++ e.structsAndEnums ++ e.prototypes) := by
  refine ⟨⟨_, listsForemost_firstOccurrences ds, rfl⟩, fun es h => ?_, ?_, fun e => ?_⟩
  · rw [headerDefinitions, headerDefinitions, sortByOrder_congr h]
  · rintro a d b rfl ⟨p, hp, hlt⟩
    exact headerDefinitions_of_foremost hp hlt
  · rw [headerDefinitions, headerDefinitions, Extraction.declarations, sortByOrder_sortByOrder]

/-- The first one in the list is left out, as another one with its text has a lower order. -/
theorem headerDefinitions_of_lower_order :
    headerDefinitions [⟨.prototype, "int f(void);", 12⟩, ⟨.directive, "#define A 1", 0⟩] =
      headerDefinitions [⟨.directive, "#define A 1", 30⟩, ⟨.prototype, "int f(void);", 12⟩,
        ⟨.directive, "#define A 1", 0⟩] :=
  (headerDefinitions_listing _).2.2.1 [] _ _ rfl ⟨toLex (0, 2), ⟨_, rfl, rfl, rfl⟩, by decide⟩

end TestBench
