import TestBench.Proofs.FileTree.Request

/-!
# Parts of a file tree

A tree is a *part* of another one if it has nothing that the other one does not have. What a way
passes by in a part it passes by in the whole, so a way to an entry leads there in both
(`Leads.of_part`), and a way leads to one place only (`Leads.unique`). Hence removing files never
makes a path lead elsewhere: it leads where it did, or nowhere.

Cutting off a location, with all that is below it, leaves a part (`prune`).

* `Leads.of_part`: the ways in a part are ways in the whole;
* `Leads.of_hasWays`: a way to a directory stays one as long as the directories and links do;
* `lookup_prune`: what is left of a tree of which a location was cut off.
-/

namespace TestBench.FileTree

variable {t t' t'' : FileTree} {p : Path} {last : Bool} {links : Nat} {base d l top : Location}
  {name : ByteString} {way rest : List ByteString} {e : Entry} {target target' : Target}

/-! ### Parts -/

/-- Whether a tree has nothing that another one does not have. -/
structure Part (t' t : FileTree) : Prop where
  here : t'.here = t.here
  lookup : ∀ l e, t'.lookup l = some e → t.lookup l = some e

namespace Part

theorem refl (t : FileTree) : Part t t :=
  ⟨rfl, fun _ _ h => h⟩

theorem trans (h : Part t'' t') (h' : Part t' t) : Part t'' t :=
  ⟨h.here.trans h'.here, fun l e hl => h'.lookup l e (h.lookup l e hl)⟩

theorem erase (t : FileTree) (l : Location) : Part (t.erase l) t := by
  refine ⟨rfl, fun l' e h => ?_⟩
  have hf := entryAt_filter t.entries (fun k => decide (k ≠ l)) l'
  rw [FileTree.lookup] at h ⊢
  split at h
  next hr => rwa [if_pos hr]
  next hr =>
    rw [FileTree.erase, hf] at h
    split at h
    · rwa [if_neg hr]
    · cases h

theorem eraseBelow (t : FileTree) (top : Location) : Part (t.eraseBelow top) t := by
  refine ⟨rfl, fun l e h => ?_⟩
  rw [lookup_eraseBelow] at h
  split at h
  · cases h
  · exact h

/-- Removing a file leaves a part, whether or not it succeeds. -/
theorem removeFile (t : FileTree) (p : Path) : Part ((t.removeFile p).toOption.getD t) t := by
  rw [FileTree.removeFile]
  split
  · exact .refl t
  · exact .refl t
  · exact .erase t _

end Part

/-- An inserted entry changes what is found at its own place only. -/
theorem eq_of_lookup_insert {l' : Location} (hl : l ≠ [])
    (h : (t.insert l e).lookup l' ≠ t.lookup l') : l' = l := by
  by_contra hne
  exact h (by rw [lookup_insert _ _ _ hl, if_neg hne])

/-- An erased entry changes what is found at its own place only. -/
theorem eq_of_lookup_erase {l' : Location} (hl : l ≠ [])
    (h : (t.erase l).lookup l' ≠ t.lookup l') : l' = l := by
  by_contra hne
  exact h (by rw [lookup_erase _ _ hl, if_neg hne])

/-! ### Ways -/

/-- A way leads to one place only. -/
theorem Leads.unique (h : Leads t last links base way target)
    (h' : Leads t last links base way target') : target = target' :=
  Except.ok.inj ((walk_of_leads h).symm.trans (walk_of_leads h'))

theorem Passes.of_part (ht : Part t' t) {base' : Location} (h : Passes t' base name base') :
    Passes t base name base' := by
  cases h with
  | stay => exact .stay
  | up => exact .up
  | down hn hl => exact .down hn (ht.lookup _ _ hl)

/-- A way to an entry of a part leads there in the whole. -/
theorem Leads.of_part (ht : Part t' t) (h : Leads t' last links base way (.found l e)) :
    Leads t last links base way (.found l e) := by
  generalize htarget : Target.found l e = found at h
  induction h with
  | here => exact .here
  | pass hp _ ih => exact .pass (hp.of_part ht) (ih htarget)
  | through hn hl hr _ ih => exact .through hn (ht.lookup _ _ hl) hr (ih htarget)
  | free => cases htarget
  | stop hn hl hd he => exact .stop hn (ht.lookup _ _ hl) hd he

/-- Whether a walk ends where nothing is. -/
def EndsInNothing (r : Except ErrorNumber Target) : Prop :=
  r = .error .notFound ∨ ∃ d name, r = .ok (.vacant d name)

/-- A walk in a part ends as it does in the whole, or where nothing is any more. -/
theorem walk_of_part (ht : Part t' t) (last : Bool) (links : Nat) (base : Location)
    (way : List ByteString) :
    t'.walk last links base way = t.walk last links base way ∨
      EndsInNothing (t'.walk last links base way) := by
  have hstep : ∀ follow follow' : Location → List ByteString → Except ErrorNumber Target,
      (∀ base way, follow' base way = follow base way ∨ EndsInNothing (follow' base way)) →
      ∀ way base, t'.walkFrom last follow' base way = t.walkFrom last follow base way ∨
        EndsInNothing (t'.walkFrom last follow' base way) := by
    intro follow follow' hfollow way
    induction way with
    | nil => exact fun _ => .inl rfl
    | cons name rest ih =>
      intro base
      rw [walkFrom, walkFrom]
      split
      · exact ih _
      split
      · exact ih _
      split
      · exact .inl rfl
      cases hl : t'.lookup (base ++ [name]) with
      | none =>
        refine .inr ?_
        dsimp only
        split
        · exact .inr ⟨_, _, rfl⟩
        · exact .inl rfl
      | some e =>
        rw [ht.lookup _ _ hl]
        cases e with
        | directory => exact ih _
        | file content executable => exact .inl rfl
        | link target =>
          dsimp only
          split
          · exact .inl rfl
          · exact hfollow _ _
  induction links generalizing base way with
  | zero => exact hstep _ _ (fun _ _ => .inl rfl) way base
  | succ links ih => exact hstep _ _ ih way base

/-- A path leads in a part to what it leads to in the whole, or to nothing any more. -/
theorem find_of_part (ht : Part t' t) (p : Path) (last : Bool) :
    t'.find p last = t.find p last ∨ t'.find p last = .error (.system .notFound) := by
  by_cases htext : IsPathText p.text
  · rw [find, find, resolve_of_isPathText htext, resolve_of_isPathText htext, ht.here]
    rcases walk_of_part ht last maxLinks (origin p.text t.here) (steps p.text) with
      h | h | ⟨d, name, h⟩
    · exact .inl (by rw [h])
    · exact .inr (by rw [h]; rfl)
    · exact .inr (by rw [h]; rfl)
  · obtain ⟨fault, -, hresolve⟩ := resolve_of_not_isPathText htext
    exact .inl (by rw [find, find, hresolve, hresolve])

/-- Whether a tree has the directories and the links of another one. -/
structure HasWays (t' t : FileTree) : Prop where
  here : t'.here = t.here
  lookup : ∀ l e, (∀ content executable, e ≠ .file content executable) →
    t.lookup l = some e → t'.lookup l = some e

namespace HasWays

theorem of_part (h : Part t t') : HasWays t' t :=
  ⟨h.here.symm, fun l e _ hl => h.lookup l e hl⟩

/-- What changes only at a place where no directory and no link stands keeps all ways. -/
theorem of_lookup (hhere : t'.here = t.here) (h : ∀ l', l' ≠ l → t'.lookup l' = t.lookup l')
    (hl : ∀ e, t.lookup l = some e → ∃ content executable, e = .file content executable) :
    HasWays t' t := by
  refine ⟨hhere, fun l' e he hl' => ?_⟩
  have hne : l' ≠ l := by
    rintro rfl
    obtain ⟨content, executable, hfile⟩ := hl e hl'
    exact he _ _ hfile
  rw [h l' hne, hl']

theorem insert (e : Entry) (hne : l ≠ [])
    (hl : ∀ e, t.lookup l = some e → ∃ content executable, e = .file content executable) :
    HasWays (t.insert l e) t := by
  refine of_lookup rfl (fun l' hl' => ?_) hl
  rw [lookup_insert _ _ _ hne, if_neg hl']

theorem erase {content : List UInt8} {executable : Bool} (hne : l ≠ [])
    (hl : t.lookup l = some (.file content executable)) : HasWays (t.erase l) t := by
  refine of_lookup (l := l) rfl (fun l' hl' => ?_) fun e he => ⟨content, executable, ?_⟩
  · rw [lookup_erase _ _ hne, if_neg hl']
  · exact Option.some.inj (he.symm.trans hl)

end HasWays

/-- A way to a directory passes by directories and links only. -/
theorem Leads.of_hasWays (ht : HasWays t' t)
    (h : Leads t last links base way (.found d .directory)) :
    Leads t' last links base way (.found d .directory) := by
  generalize htarget : Target.found d .directory = found at h
  induction h with
  | here => exact .here
  | pass hp _ ih =>
    refine .pass ?_ (ih htarget)
    cases hp with
    | stay => exact .stay
    | up => exact .up
    | down hn hl => exact .down hn (ht.lookup _ _ (by simp) hl)
  | through hn hl hr _ ih => exact .through hn (ht.lookup _ _ (by simp) hl) hr (ih htarget)
  | free => cases htarget
  | stop _ _ hd =>
    rw [Target.found.injEq] at htarget
    exact absurd htarget.2.symm hd

/-! ### Directories that are added -/

/-- Whether a tree is another one with directories added. -/
structure Grows (t t' : FileTree) : Prop where
  part : Part t t'
  lookup : ∀ l e, t'.lookup l = some e → t.lookup l = some e ∨ e = .directory

namespace Grows

theorem refl (t : FileTree) : Grows t t :=
  ⟨.refl t, fun _ _ h => .inl h⟩

theorem trans (h : Grows t t') (h' : Grows t' t'') : Grows t t'' := by
  refine ⟨h.part.trans h'.part, fun l e hl => ?_⟩
  rcases h'.lookup l e hl with hl | hdir
  · exact h.lookup l e hl
  · exact .inr hdir

theorem makeDirectory (h : t.makeDirectory p = .ok t') : Grows t t' := by
  obtain ⟨d, name, hr, rfl⟩ := exists_of_makeDirectory h
  have hfree := (resolve_eq_ok_iff.1 hr).2.lookup_vacant
  refine ⟨⟨rfl, fun l e hl => ?_⟩, fun l e hl => ?_⟩
  · rw [lookup_insert _ _ _ (by simp), if_neg, hl]
    rintro rfl
    exact absurd (hfree.symm.trans hl) (by simp)
  · rw [lookup_insert _ _ _ (by simp)] at hl
    split at hl
    · exact .inr (Option.some.inj hl).symm
    · exact .inl hl

theorem makeDirectories (t : FileTree) (p : Path) : Grows t (t.makeDirectories p).2 :=
  makeDirectories_keeps p (fun _ _ _ _ ht h => ht.trans (makeDirectory h)) (.refl t)

end Grows

/-! ### Cutting off -/

/-- The tree without a location and all that is below it. -/
def prune (t : FileTree) (top : Location) : FileTree :=
  (t.eraseBelow top).erase top

theorem isBelow_iff : isBelow l top ↔ top <+: l ∧ l ≠ top := by
  rw [isBelow, Bool.and_eq_true, List.isPrefixOf_iff_prefix, decide_eq_true_eq]

theorem lookup_prune (ht : top ≠ []) :
    (t.prune top).lookup l = if top <+: l then none else t.lookup l := by
  rw [prune, lookup_erase _ _ ht, lookup_eraseBelow]
  by_cases hl : l = top
  · rw [if_pos hl, if_pos (hl ▸ List.prefix_refl top)]
  · rw [if_neg hl]
    simp only [isBelow_iff, and_iff_left hl]

theorem prune_part (t : FileTree) (top : Location) : Part (t.prune top) t :=
  (Part.erase _ _).trans (Part.eraseBelow _ _)

/-- Cutting off the same location keeps the ways of the other tree. -/
theorem HasWays.prune (h : HasWays t' t) (ht : top ≠ []) :
    HasWays (t'.prune top) (t.prune top) := by
  refine ⟨h.here, fun l e he hl => ?_⟩
  rw [lookup_prune ht] at hl ⊢
  split at hl
  next => cases hl
  next hb => rw [if_neg hb, h.lookup l e he hl]

/-- Removing what a path leads to, with all that is in it, removes nothing else: it is refused, or
    it is carried out, or what is in it is gone but it cannot go itself. -/
theorem exists_of_removeTree (t : FileTree) (p : Path) :
    (t.removeTree p).2 = t ∨ ∃ l e, t.find p false = .ok (l, e) ∧
      (∀ content executable, e ≠ .file content executable) ∧
      ((t.removeTree p).2 = t.erase l ∨ (t.removeTree p).2 = t.eraseBelow l ∨
        (t.removeTree p).2 = t.prune l) := by
  have hemptied : ∀ l, ((t.eraseBelow l).removeEmptied p l).2 = t.eraseBelow l ∨
      ((t.eraseBelow l).removeEmptied p l).2 = t.prune l := by
    intro l
    rw [removeEmptied]
    split
    · exact .inl rfl
    · exact .inl rfl
    split
    · exact .inl rfl
    · exact .inl rfl
    split
    · exact .inl rfl
    · exact .inr rfl
  rw [removeTree]
  split
  · exact .inl rfl
  next l text hfind => exact .inr ⟨l, _, hfind, by simp, .inl rfl⟩
  · exact .inl rfl
  next l hfind => exact .inr ⟨l, _, hfind, by simp, .inr (hemptied l)⟩

theorem Part.removeTree (t : FileTree) (p : Path) : Part (t.removeTree p).2 t := by
  rcases exists_of_removeTree t p with h | ⟨l, e, -, -, h | h | h⟩
  · rw [h]
    exact .refl t
  · rw [h]
    exact .erase t l
  · rw [h]
    exact .eraseBelow t l
  · rw [h]
    exact prune_part t l

/-- What goes with the tree that a path leads to is in it. -/
theorem exists_of_lookup_removeTree (h : (t.removeTree p).2.lookup l ≠ t.lookup l) :
    ∃ top e, t.find p false = .ok (top, e) ∧ (∀ content executable, e ≠ .file content executable) ∧
      top <+: l := by
  rcases exists_of_removeTree t p with hleft | ⟨top, e, hfind, hfile, hleft⟩
  · exact absurd (by rw [hleft]) h
  refine ⟨top, e, hfind, hfile, ?_⟩
  by_cases htop : top = []
  · exact htop ▸ List.nil_prefix
  by_contra hl
  have hne : l ≠ top := fun h => hl (h ▸ List.prefix_rfl)
  refine h ?_
  rcases hleft with hleft | hleft | hleft
  · rw [hleft, lookup_erase _ _ htop, if_neg hne]
  · rw [hleft, lookup_eraseBelow, if_neg fun h => hl (isBelow_iff.1 h).1]
  · rw [hleft, lookup_prune htop, if_neg hl]

end TestBench.FileTree
