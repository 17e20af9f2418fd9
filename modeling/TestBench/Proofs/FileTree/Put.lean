import TestBench.Proofs.FileTree.Extends

/-!
# Files that are put in place

A file is put in its place with the directories on the way to it. If it is there already it is
written again, and behind anything else that is in the way nothing is put. So the tree is only added
to, and it stays proper.

* `Extends.putAll`, `Proper.putAll`: files that are put in place extend a tree, and leave it proper.
-/

namespace TestBench

open FileTree

variable {t t' : FileTree} {base l : Location} {names : List ByteString} {e : Entry}
  {P : FileTree → Prop}

/-- A file to be put in place: where, what is written in it, and whether it may be executed if it is
    not there already. -/
structure FixedFile where
  location : Location
  content : List UInt8
  executable : Bool
  proper : ∀ name ∈ location, IsProperName name

namespace FileTree

/-- The tree with a directory or a file at a place, which has to be free or to have one already. -/
def place (t : FileTree) (l : Location) (e : Entry) : Option FileTree :=
  match t.lookup l, e with
  | none, e => some (t.insert l e)
  | some .directory, .directory => some t
  | some (.file _ executable), .file content _ => some (t.insert l (.file content executable))
  | _, _ => none

/-- The tree with a file where names lead to from a directory, and with the directories on the
    way. -/
def putFrom (t : FileTree) (e : Entry) (base : Location) : List ByteString → FileTree
  | [] => t
  | name :: names =>
    if names.isEmpty then (t.place (base ++ [name]) e).getD t
    else
      match t.place (base ++ [name]) .directory with
      | none => t
      | some t => t.putFrom e (base ++ [name]) names

/-- The tree with a file in its place. -/
def put (t : FileTree) (f : FixedFile) : FileTree :=
  t.putFrom (.file f.content f.executable) [] f.location

/-- The tree with files in their places. -/
def putAll (t : FileTree) (fs : List FixedFile) : FileTree :=
  fs.foldl put t

/-- An entry is put at a free place, or a file is written again, or a directory is there. -/
theorem eq_of_place (h : t.place l e = some t') :
    t.lookup l = none ∧ t' = t.insert l e ∨
      t.lookup l = some .directory ∧ e = .directory ∧ t' = t ∨
      ∃ old content executable executable', t.lookup l = some (.file old executable) ∧
        e = .file content executable' ∧ t' = t.insert l (.file content executable) := by
  unfold place at h
  split at h
  next hl => exact .inl ⟨hl, (Option.some.inj h).symm⟩
  next hl => exact .inr (.inl ⟨hl, rfl, (Option.some.inj h).symm⟩)
  next hl => exact .inr (.inr ⟨_, _, _, _, hl, rfl, (Option.some.inj h).symm⟩)
  next => cases h

/-- What placing each of the directories on the way and the file keeps, putting the file in its
    place keeps. -/
theorem putFrom_keeps {content : List UInt8} {executable : Bool}
    (h : ∀ t t' l e, l <+: base ++ names → (e = .directory ∨ e = .file content executable) →
      P t → t.place l e = some t' → P t') (ht : P t) :
    P (t.putFrom (.file content executable) base names) := by
  induction names generalizing t base with
  | nil => exact ht
  | cons name names ih =>
    rw [List.append_cons] at h
    rw [putFrom]
    split
    · cases hplace : t.place (base ++ [name]) (.file content executable) with
      | none => exact ht
      | some t' => exact h t t' _ _ (List.prefix_append _ _) (.inr rfl) ht hplace
    · split
      next => exact ht
      next t' hplace => exact ih h (h t t' _ _ (List.prefix_append _ _) (.inl rfl) ht hplace)

theorem putAll_keeps {fs : List FixedFile} (h : ∀ t, ∀ f ∈ fs, P t → P (t.put f)) (ht : P t) :
    P (t.putAll fs) :=
  List.foldlRecOn _ _ ht fun t ht f hf => h t f hf ht

theorem Extends.place (he : ∀ text, e ≠ .link text) (h : t.place l e = some t') :
    Extends t t' := by
  have hne : t.lookup l ≠ some .directory → l ≠ [] := by
    rintro hl rfl
    exact hl rfl
  rcases eq_of_place h with ⟨hl, rfl⟩ | ⟨-, -, rfl⟩ | ⟨_, content, executable, _, hl, -, rfl⟩
  · refine .insert (hne (by simp [hl])) he fun e₀ h₀ => ?_
    rw [hl] at h₀
    cases h₀
  · exact .refl _
  · refine .insert (hne (by simp [hl])) (by simp) fun e₀ h₀ => ?_
    obtain rfl := Option.some.inj (hl.symm.trans h₀)
    exact .file _ _ _

theorem Extends.putFrom (t : FileTree) {content : List UInt8} {executable : Bool} :
    Extends t (t.putFrom (.file content executable) base names) := by
  refine putFrom_keeps (P := Extends t) (fun _ _ l e _ he ht h => ht.trans (.place ?_ h)) (.refl t)
  rcases he with rfl | rfl <;> simp

theorem Extends.putAll (t : FileTree) (fs : List FixedFile) : Extends t (t.putAll fs) :=
  putAll_keeps (P := Extends t) (fun t' _ _ ht => ht.trans (.putFrom t')) (.refl t)

theorem Proper.place (ht : t.Proper) (hl : ∀ name ∈ l, IsProperName name)
    (he : ∀ text, e ≠ .link text) (h : t.place l e = some t') : t'.Proper := by
  rcases eq_of_place h with ⟨-, rfl⟩ | ⟨-, -, rfl⟩ | ⟨_, content, executable, _, -, -, rfl⟩
  · exact ht.insert hl fun text htext => absurd htext (he text)
  · exact ht
  · exact ht.insert hl (by simp)

theorem Proper.putAll (ht : t.Proper) (fs : List FixedFile) : (t.putAll fs).Proper := by
  refine putAll_keeps (fun t f _ ht => ?_) ht
  refine putFrom_keeps (fun t₁ t₂ l e hl he ht h => ht.place (fun name hn => ?_) ?_ h) ht
  · exact f.proper name (hl.subset hn)
  · rcases he with rfl | rfl <;> simp

end FileTree

end TestBench
