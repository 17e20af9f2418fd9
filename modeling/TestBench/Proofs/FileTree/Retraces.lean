import TestBench.Proofs.FileTree.Put

/-!
# Trees that retrace others

What is done to a tree is done again to another one, which has in addition what the first time has
left. The other tree *retraces* the first one: at each place it has what the first one has, or what
was left there in the end, and below the top of what is made anew each time it has the same.

As long as the first tree is only added to, each file that is put in place or written the first time
is put there and written the second time too, and then both trees have the same there.

* `Retraces.putAll`, `Retraces.writeFile`: what is done the first time is done the second time;
* `Retraces.extends`: the other tree extends the first one;
* `Retraces.lookup_end`: in the end, there is no difference.
-/

namespace TestBench.FileTree

variable {G F t t' t₁ : FileTree} {top base l : Location} {names : List ByteString} {e : Entry}
  {p : Path} {content : List UInt8} {executable : Bool}

/-! ### The entries from a place on -/

/-- The entries at a place and below it. -/
def entriesFrom (t : FileTree) (top : Location) : List (Location × Entry) :=
  t.entries.filter fun q => top.isPrefixOf q.1

/-- What is found from there on is found among these entries. -/
theorem lookup_entriesFrom (hl : l ≠ []) (h : top <+: l) :
    t.lookup l = entryAt (t.entriesFrom top) l := by
  have hfilter := entryAt_filter t.entries top.isPrefixOf l
  rw [if_pos (List.isPrefixOf_iff_prefix.2 h)] at hfilter
  rw [lookup, if_neg hl, entriesFrom, hfilter]

theorem filter_putEntry (es : List (Location × Entry)) (l : Location) (e : Entry)
    (keep : Location → Bool) : (putEntry l e es).filter (fun q => keep q.1) =
      if keep l then putEntry l e (es.filter fun q => keep q.1)
      else es.filter fun q => keep q.1 := by
  induction es with
  | nil => cases h : keep l <;> simp [putEntry, h]
  | cons q es ih =>
    obtain ⟨k, e'⟩ := q
    rw [putEntry]
    by_cases hk : k = l
    · subst hk
      cases h : keep k <;> simp [putEntry, h]
    · rw [if_neg hk, List.filter_cons, ih]
      cases h : keep k <;> cases h' : keep l <;> simp [putEntry, h, hk]

theorem entriesFrom_insert (t : FileTree) (l : Location) (e : Entry) :
    (t.insert l e).entriesFrom top =
      if top <+: l then putEntry l e (t.entriesFrom top) else t.entriesFrom top := by
  rw [entriesFrom, insert, filter_putEntry]
  simp only [List.isPrefixOf_iff_prefix, entriesFrom]

/-- To put what is there changes nothing. -/
theorem putEntry_of_entryAt {es : List (Location × Entry)} (h : entryAt es l = some e) :
    putEntry l e es = es := by
  induction es with
  | nil => cases h
  | cons q es ih =>
    obtain ⟨k, e'⟩ := q
    rw [entryAt] at h
    rw [putEntry]
    split at h
    next hk => rw [if_pos hk, Option.some.inj h, hk]
    next hk => rw [if_neg hk, ih h]

/-! ### Two trees -/

/-- Whether a tree has at each place what another one has, or what was left there, and from a place
    on just what the other one has. -/
structure Retraces (G : FileTree) (top : Location) (t t' : FileTree) : Prop where
  here : t'.here = t.here
  lookup : ∀ l, t'.lookup l = t.lookup l ∨ ∃ e, t'.lookup l = some e ∧ G.lookup l = some e
  inside : t'.entriesFrom top = t.entriesFrom top

namespace Retraces

theorem refl (G : FileTree) (top : Location) (t : FileTree) : Retraces G top t t :=
  ⟨rfl, fun _ => .inl rfl, rfl⟩

variable (h : Retraces G top t t')
include h

theorem lookup_inside (hl : top <+: l) : t'.lookup l = t.lookup l := by
  by_cases hne : l = []
  · subst hne
    rfl
  · rw [lookup_entriesFrom hne hl, lookup_entriesFrom hne hl, h.inside]

/-- The same is put in both. -/
theorem insert (hne : l ≠ []) (e : Entry) : Retraces G top (t.insert l e) (t'.insert l e) := by
  refine ⟨h.here, fun l' => ?_, ?_⟩
  · rw [lookup_insert _ _ _ hne, lookup_insert _ _ _ hne]
    split
    · exact .inl rfl
    · exact h.lookup l'
  · rw [entriesFrom_insert, entriesFrom_insert, h.inside]

/-- What is in the other one already is put in the first one. -/
theorem insert_left (hne : l ≠ []) (hl : t'.lookup l = some e) :
    Retraces G top (t.insert l e) t' := by
  refine ⟨h.here, fun l' => ?_, ?_⟩
  · rw [lookup_insert _ _ _ hne]
    split
    next heq => exact .inl (heq ▸ hl)
    next => exact h.lookup l'
  · rw [entriesFrom_insert, h.inside]
    split
    next htop =>
      rw [h.lookup_inside htop, lookup_entriesFrom hne htop] at hl
      rw [putEntry_of_entryAt hl]
    next => rfl

variable (hG : Part G F)
include hG

/-- In the end, there is no difference. -/
theorem lookup_end (hF : t = F) (l : Location) : t'.lookup l = t.lookup l := by
  rcases h.lookup l with hl | ⟨e, hl, hleft⟩
  · exact hl
  · rw [hl, hF, hG.lookup l e hleft]

/-- The other tree extends the first one, as the tree does that is there in the end. -/
theorem «extends» (hF : Extends t F) : Extends t t' := by
  refine ⟨h.here, fun l e he => ?_, fun l text htext => ?_⟩
  · rcases h.lookup l with hl | ⟨e', hl, hleft⟩
    · exact ⟨e, hl.trans he, .same e⟩
    · obtain ⟨e₁, he₁, halike⟩ := hF.lookup l e he
      obtain rfl := Option.some.inj ((hG.lookup l e' hleft).symm.trans he₁)
      exact ⟨e', hl, halike⟩
  · rcases h.lookup l with hl | ⟨e', hl, hleft⟩
    · rwa [hl] at htext
    · obtain rfl := Option.some.inj (hl.symm.trans htext)
      exact hF.links l text (hG.lookup l _ hleft)

/-! ### What is done again -/

/-- What is placed the first time is placed the second time. -/
theorem place (he : ∀ text, e ≠ .link text) (hplace : t.place l e = some t₁)
    (hF : Extends t₁ F) : ∃ t₁', t'.place l e = some t₁' ∧ Retraces G top t₁ t₁' := by
  have hextends := h.extends hG ((Extends.place he hplace).trans hF)
  rcases eq_of_place hplace with ⟨hl, rfl⟩ | ⟨hl, rfl, rfl⟩ |
    ⟨old, content, executable, _, hl, rfl, rfl⟩
  · have hne : l ≠ [] := by
      rintro rfl
      cases hl
    rcases h.lookup l with hl' | ⟨e', hl', hleft⟩
    · refine ⟨t'.insert l e, ?_, h.insert hne e⟩
      simp [FileTree.place, hl', hl]
    · -- What is there was left where the same has been placed.
      obtain ⟨e₁, he₁, halike⟩ := hF.lookup l e (by rw [lookup_insert _ _ _ hne, if_pos rfl])
      obtain rfl := Option.some.inj ((hG.lookup l e' hleft).symm.trans he₁)
      cases halike with
      | same =>
        cases e with
        | file content executable =>
          refine ⟨t'.insert l (.file content executable), ?_, h.insert hne _⟩
          simp [FileTree.place, hl']
        | directory => exact ⟨t', by simp [FileTree.place, hl'], h.insert_left hne hl'⟩
        | link text => exact absurd rfl (he text)
      | file content _ executable =>
        refine ⟨t'.insert l (.file content executable), ?_, h.insert hne _⟩
        simp [FileTree.place, hl']
  · have hl' := hextends.lookup_of_not_file (by simp) hl
    exact ⟨t', by simp [FileTree.place, hl'], h⟩
  · have hne : l ≠ [] := by
      rintro rfl
      cases hl
    obtain ⟨old', hl'⟩ := hextends.exists_file hl
    exact ⟨_, by simp [FileTree.place, hl'], h.insert hne _⟩

/-- What cannot be placed the first time cannot be placed the second time. -/
theorem place_eq_none (hplace : t.place l e = none) (hF : Extends t F) : t'.place l e = none := by
  have hextends := h.extends hG hF
  unfold FileTree.place at hplace ⊢
  cases hl : t.lookup l with
  | none => simp [hl] at hplace
  | some e₀ =>
    obtain ⟨e₀', hl', halike⟩ := hextends.lookup l e₀ hl
    rw [hl] at hplace
    rw [hl']
    -- Whether it can be placed is for the kinds of the entries to say.
    cases halike with
    | same => cases e₀ <;> cases e <;> first | rfl | cases hplace
    | file => cases e <;> first | rfl | cases hplace

theorem putFrom (hF : Extends (t.putFrom (.file content executable) base names) F) :
    Retraces G top (t.putFrom (.file content executable) base names)
      (t'.putFrom (.file content executable) base names) := by
  induction names generalizing t t' base with
  | nil => exact h
  | cons name names ih =>
    rw [FileTree.putFrom] at hF ⊢
    rw [FileTree.putFrom]
    split at hF
    next hlast =>
      rw [if_pos hlast, if_pos hlast]
      cases hplace : t.place (base ++ [name]) (.file content executable) with
      | none =>
        rw [hplace] at hF
        rw [h.place_eq_none hG hplace hF]
        exact h
      | some t₁ =>
        rw [hplace] at hF
        obtain ⟨t₁', hplace', h₁⟩ := h.place hG (by simp) hplace hF
        rw [hplace']
        exact h₁
    next hlast =>
      rw [if_neg hlast, if_neg hlast]
      cases hplace : t.place (base ++ [name]) .directory with
      | none =>
        rw [hplace] at hF
        rw [h.place_eq_none hG hplace hF]
        exact h
      | some t₁ =>
        rw [hplace] at hF
        obtain ⟨t₁', hplace', h₁⟩ := h.place hG (by simp) hplace
          ((Extends.putFrom t₁).trans hF)
        rw [hplace']
        exact ih h₁ hF

/-- Files that are put in place the first time are put in place the second time. -/
theorem putAll {fs : List FixedFile} (hF : Extends (t.putAll fs) F) :
    Retraces G top (t.putAll fs) (t'.putAll fs) := by
  induction fs generalizing t t' with
  | nil => exact h
  | cons f fs ih => exact ih (h.putFrom hG ((Extends.putAll _ fs).trans hF)) hF

/-- A file that is written the first time is written the second time. -/
theorem writeFile (hwrite : t.writeFile p content = .ok t₁) (hF : Extends t₁ F) :
    ∃ t₁', t'.writeFile p content = .ok t₁' ∧ Retraces G top t₁ t₁' := by
  have hextends := h.extends hG ((Extends.writeFile hwrite).trans hF)
  rw [FileTree.writeFile] at hwrite
  split at hwrite
  · cases hwrite
  next l old executable hr =>
    obtain rfl := Except.ok.inj hwrite
    obtain ⟨e', hf, halike⟩ := hextends.find (find_eq_ok_iff.2 hr)
    obtain ⟨old', rfl⟩ := halike.exists_file
    refine ⟨_, ?_, h.insert (resolve_eq_ok_iff.1 hr).2.lookup_file.1 _⟩
    rw [FileTree.writeFile, find_eq_ok_iff.1 hf]
  · cases hwrite
  next d name hr =>
    obtain rfl := Except.ok.inj hwrite
    have hfree := (resolve_eq_ok_iff.1 hr).2.lookup_vacant
    have hne : d ++ [name] ≠ [] := by simp
    refine ⟨t'.insert (d ++ [name]) (.file content false), ?_, h.insert hne _⟩
    rcases h.lookup (d ++ [name]) with hl' | ⟨e', hl', hleft⟩
    · have hr' := (hextends.resolve_vacant hr).1 (hl'.trans hfree)
      rw [FileTree.writeFile, hr']
    · obtain ⟨e₁, he₁, halike⟩ := hF.lookup (d ++ [name]) (.file content false)
        (by rw [lookup_insert _ _ _ hne, if_pos rfl])
      obtain rfl := Option.some.inj ((hG.lookup _ _ hleft).symm.trans he₁)
      obtain ⟨content', rfl⟩ := halike.exists_file
      rw [FileTree.writeFile, (hextends.resolve_vacant hr).2 _ _ hl']

end Retraces

end TestBench.FileTree
