import TestBench.Proofs.Source.Slice
import TestBench.Source.Offset.Basic

/-!
# Checks that do not fail

A list is put together from parts, and an offset is the length of what stands in front of one; then
the part is found there. A loop is followed through what each of its rounds keeps.

* `slice_middle`, `elementAt_middle`: the parts that a list is put together from are found in it;
* `loop_spec`: a loop gets on and ends, if each of its rounds does.
-/

namespace TestBench.Source.Offset

variable {α β σ : Type}

@[simp]
theorem ok_bind (a : α) (f : α → Checked β) : (Except.ok a >>= f) = f a :=
  rfl

@[simp]
theorem pure_eq_ok (a : α) : (pure a : Checked α) = .ok a :=
  rfl

theorem minus_succ (n : Nat) : minus (n + 1) 1 = .ok n := by
  simp [minus]

section Middle

variable {l xs ys zs : List α} {x : α} {start stop i : Nat}

theorem slice_middle (h : l = xs ++ (ys ++ zs)) (hstart : start = xs.length)
    (hstop : stop = xs.length + ys.length) : slice l start stop = .ok ys := by
  subst h hstart hstop
  have hextract := extract_middle xs ys zs
  rw [List.length_append] at hextract
  rw [slice, if_pos ⟨by omega, by simp⟩, hextract]

theorem sliceFrom_append (h : l = xs ++ ys) (hstart : start = xs.length) :
    sliceFrom l start = .ok ys :=
  slice_middle (by rw [h, List.append_nil]) hstart (by rw [h, List.length_append])

theorem getElem?_middle (h : l = xs ++ x :: ys) (hi : i = xs.length) : l[i]? = some x := by
  subst h hi
  simp

theorem elementAt_middle (h : l = xs ++ x :: ys) (hi : i = xs.length) :
    elementAt l i = .ok x := by
  rw [elementAt, getElem?_middle h hi]

theorem peek_append (h : l = xs ++ ys) (hi : i = xs.length) : peek l i = .ok ys.head? := by
  cases ys with
  | nil => rw [peek, if_neg (by simp [h, hi]), List.head?_nil]
  | cons y ys => rw [peek, if_pos (by simp [h, hi]), elementAt_middle h hi, List.head?_cons]; rfl

end Middle

/-! ### Loops -/

/-- What each round keeps is kept, and the loop ends as its last round does. -/
theorem loop_spec {left : σ → Nat} {round : σ → Checked (σ ⊕ α)} {I : σ → Prop} {Q : α → Prop}
    (h : ∀ s, I s → (∃ a, round s = .ok (.inr a) ∧ Q a) ∨
      ∃ s', round s = .ok (.inl s') ∧ left s' < left s ∧ I s') {s : σ} (hs : I s) :
    ∃ a, loop left round s = .ok a ∧ Q a := by
  induction hn : left s using Nat.strongRecOn generalizing s with
  | _ n ih =>
    subst hn
    rw [loop]
    rcases h s hs with ⟨a, hround, ha⟩ | ⟨s', hround, hless, hs'⟩
    · rw [hround]
      exact ⟨a, rfl, ha⟩
    · rw [hround]
      simp only [if_pos hless]
      exact ih _ hless hs' rfl

/-- A loop gives what each of its rounds leaves to be given. -/
theorem loop_eq_ok {left : σ → Nat} {round : σ → Checked (σ ⊕ α)} {R : σ → α → Prop}
    (h : ∀ s a, R s a → round s = .ok (.inr a) ∨
      ∃ s', round s = .ok (.inl s') ∧ left s' < left s ∧ R s' a) {s : σ} {a : α} (hs : R s a) :
    loop left round s = .ok a := by
  obtain ⟨a', hloop, rfl⟩ := @loop_spec _ _ left round (R · a) (· = a)
    (fun s hs => (h s a hs).imp_left fun hround => ⟨a, hround, rfl⟩) _ hs
  exact hloop

/-! ### Searches -/

theorem passWhile_append (p : α → Bool) {l xs ys : List α} {start : Nat} (h : l = xs ++ ys)
    (hstart : start = xs.length) :
    passWhile p l start = .ok (start + (ys.takeWhile p).length) := by
  refine loop_eq_ok (R := fun pos stop => ∃ xs ys, l = xs ++ ys ∧ pos = xs.length ∧
    stop = pos + (ys.takeWhile p).length) ?_ ⟨xs, ys, h, hstart, rfl⟩
  rintro _ _ ⟨xs, ys, rfl, rfl, rfl⟩
  cases ys with
  | nil => exact .inl (by simp)
  | cons y ys =>
    have hlt : xs.length < (xs ++ y :: ys).length := by simp
    rw [if_pos hlt, elementAt_middle rfl rfl]
    by_cases hy : p y
    · refine .inr ⟨xs.length + 1, by simp [hy], by omega, xs ++ [y], ys, by simp, by simp, ?_⟩
      simp [hy]
      omega
    · exact .inl (by simp [hy])

theorem findIdx?_eq_takeWhile (p : α → Bool) (l : List α) :
    l.findIdx? p = if (l.takeWhile (!p ·)).length < l.length then
      some (l.takeWhile (!p ·)).length else none := by
  induction l with
  | nil => rfl
  | cons x l ih =>
    by_cases hx : p x
    · simp [List.findIdx?_cons, hx]
    · rw [List.findIdx?_cons, if_neg hx, ih]
      simp [hx]

theorem find_append (p : α → Bool) {l xs ys : List α} {start : Nat} (h : l = xs ++ ys)
    (hstart : start = xs.length) :
    find p l start = .ok (start + (ys.takeWhile (!p ·)).length) := by
  rw [find, sliceFrom_append h hstart, ok_bind, findIdx?_eq_takeWhile]
  split
  · next offset hoffset =>
    split at hoffset
    · obtain rfl := Option.some.inj hoffset
      rfl
    · cases hoffset
  · next hnone =>
    split at hnone
    · cases hnone
    · have := (List.takeWhile_sublist (fun x => !p x) (l := ys)).length_le
      simp only [pure_eq_ok, Except.ok.injEq, h, hstart, List.length_append]
      omega

end TestBench.Source.Offset
