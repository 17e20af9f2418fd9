import TestBench.Proofs.FileTree.Proper

/-!
# Trees that are added to

A tree *extends* another one if what stands in the other one stands in it as well, but for what is
written in files, and if it has no other links. As long as files are only made and written, each
tree extends the one before. So a path that leads to an entry leads to the same place in both
(`Extends.find`), and a path to a free name leads there still, unless a file was made there
(`Extends.resolve_vacant`).

* `Extends.insert`, `Extends.writeFile`: what is made and written extends a tree;
* `Extends.hasWays`: all ways to directories stay.
-/

namespace TestBench

open FileTree

/-- Whether two entries differ at most in what is written in a file. -/
inductive Entry.Alike : Entry → Entry → Prop
  | same (e : Entry) : Entry.Alike e e
  | file (content content' : List UInt8) (executable : Bool) :
    Entry.Alike (.file content executable) (.file content' executable)

namespace Entry.Alike

variable {e e' e'' : Entry} {content : List UInt8} {executable : Bool}

theorem symm (h : e.Alike e') : e'.Alike e := by
  cases h with
  | same => exact .same _
  | file => exact .file _ _ _

theorem trans (h : e.Alike e') (h' : e'.Alike e'') : e.Alike e'' := by
  cases h with
  | same => exact h'
  | file =>
    cases h' with
    | same => exact .file _ _ _
    | file => exact .file _ _ _

/-- Only files may differ. -/
theorem eq_of_not_file (h : e.Alike e') (he : ∀ content executable, e ≠ .file content executable) :
    e' = e := by
  cases h with
  | same => rfl
  | file content _ executable => exact absurd rfl (he content executable)

theorem exists_file (h : Entry.Alike (.file content executable) e) :
    ∃ content', e = .file content' executable := by
  cases h with
  | same => exact ⟨content, rfl⟩
  | file _ content' => exact ⟨content', rfl⟩

end Entry.Alike

namespace FileTree

variable {t t' t'' : FileTree} {p : Path} {last : Bool} {links : Nat} {base d l : Location}
  {name : ByteString} {way : List ByteString} {e : Entry} {content : List UInt8} {executable : Bool}

/-- Whether a tree has all that another one has, but for what is written in files, and no other
    links. -/
structure Extends (t t' : FileTree) : Prop where
  here : t'.here = t.here
  lookup : ∀ l e, t.lookup l = some e → ∃ e', t'.lookup l = some e' ∧ e.Alike e'
  links : ∀ l text, t'.lookup l = some (.link text) → t.lookup l = some (.link text)

namespace Extends

theorem refl (t : FileTree) : Extends t t :=
  ⟨rfl, fun _ e h => ⟨e, h, .same e⟩, fun _ _ h => h⟩

theorem trans (h : Extends t t') (h' : Extends t' t'') : Extends t t'' := by
  refine ⟨h'.here.trans h.here, fun l e hl => ?_,
    fun l text hl => h.links l text (h'.links l text hl)⟩
  obtain ⟨e', hl', he⟩ := h.lookup l e hl
  obtain ⟨e'', hl'', he'⟩ := h'.lookup l e' hl'
  exact ⟨e'', hl'', he.trans he'⟩

theorem lookup_of_not_file (h : Extends t t')
    (he : ∀ content executable, e ≠ .file content executable) (hl : t.lookup l = some e) :
    t'.lookup l = some e := by
  obtain ⟨e', hl', halike⟩ := h.lookup l e hl
  rwa [halike.eq_of_not_file he] at hl'

theorem exists_file (h : Extends t t') (hl : t.lookup l = some (.file content executable)) :
    ∃ content', t'.lookup l = some (.file content' executable) := by
  obtain ⟨e', hl', halike⟩ := h.lookup l _ hl
  obtain ⟨content', rfl⟩ := halike.exists_file
  exact ⟨content', hl'⟩

/-- All ways to directories stay. -/
theorem hasWays (h : Extends t t') : HasWays t' t :=
  ⟨h.here, fun _ _ he hl => h.lookup_of_not_file he hl⟩

/-! ### What is made and written -/

/-- An entry that is put where nothing is, or where one like it is. -/
theorem insert (hne : l ≠ []) (hlink : ∀ text, e ≠ .link text)
    (he : ∀ e₀, t.lookup l = some e₀ → e₀.Alike e) : Extends t (t.insert l e) := by
  refine ⟨rfl, fun l' e' hl' => ?_, fun l' text hl' => ?_⟩
  · rw [lookup_insert _ _ _ hne]
    split
    next heq => exact ⟨e, rfl, he e' (heq ▸ hl')⟩
    next => exact ⟨e', hl', .same e'⟩
  · rw [lookup_insert _ _ _ hne] at hl'
    split at hl'
    next => exact absurd (Option.some.inj hl') (hlink text)
    next => exact hl'

theorem makeDirectory (h : t.makeDirectory p = .ok t') : Extends t t' := by
  obtain ⟨d, name, hr, rfl⟩ := exists_of_makeDirectory h
  have hfree := (resolve_eq_ok_iff.1 hr).2.lookup_vacant
  refine insert (by simp) (by simp) fun e he => ?_
  rw [hfree] at he
  cases he

theorem writeFile (h : t.writeFile p content = .ok t') : Extends t t' := by
  rw [FileTree.writeFile] at h
  split at h
  · cases h
  next l old executable hr =>
    obtain rfl := Except.ok.inj h
    obtain ⟨hne, hl⟩ := (resolve_eq_ok_iff.1 hr).2.lookup_file
    refine insert hne (by simp) fun e he => ?_
    obtain rfl := Option.some.inj (hl.symm.trans he)
    exact .file _ _ _
  · cases h
  next d name hr =>
    obtain rfl := Except.ok.inj h
    have hfree := (resolve_eq_ok_iff.1 hr).2.lookup_vacant
    refine insert (by simp) (by simp) fun e he => ?_
    rw [hfree] at he
    cases he

/-! ### Where paths lead -/

theorem passes (h : Extends t t') {base' : Location} (hp : Passes t base name base') :
    Passes t' base name base' := by
  cases hp with
  | stay => exact .stay
  | up => exact .up
  | down hn hl => exact .down hn (h.lookup_of_not_file (by simp) hl)

/-- A way to an entry leads to the same place. -/
theorem leads (h : Extends t t') (hl : Leads t last links base way (.found l e)) :
    ∃ e', Leads t' last links base way (.found l e') ∧ e.Alike e' := by
  generalize htarget : Target.found l e = target at hl
  induction hl with
  | here =>
    obtain ⟨rfl, rfl⟩ := Target.found.inj htarget
    exact ⟨_, .here, .same _⟩
  | pass hp _ ih =>
    obtain ⟨e', hl', he⟩ := ih htarget
    exact ⟨e', .pass (h.passes hp) hl', he⟩
  | through hn hlink hr _ ih =>
    obtain ⟨e', hl', he⟩ := ih htarget
    exact ⟨e', .through hn (h.lookup_of_not_file (by simp) hlink) hr hl', he⟩
  | free => cases htarget
  | stop hn hl hd hlast =>
    obtain ⟨rfl, rfl⟩ := Target.found.inj htarget
    obtain ⟨e', hl', he⟩ := h.lookup _ _ hl
    refine ⟨e', .stop hn hl' ?_ ?_, he⟩
    · rintro rfl
      exact hd (he.symm.eq_of_not_file (by simp))
    · rintro text rfl
      exact hlast text (he.symm.eq_of_not_file (by simp))

/-- A path that leads to an entry leads to the same place. -/
theorem find (h : Extends t t') (hf : t.find p last = .ok (l, e)) :
    ∃ e', t'.find p last = .ok (l, e') ∧ e.Alike e' := by
  obtain ⟨htext, hl⟩ := resolve_eq_ok_iff.1 (find_eq_ok_iff.1 hf)
  obtain ⟨e', hl', he⟩ := h.leads hl
  rw [← h.here] at hl'
  exact ⟨e', find_eq_ok_iff.2 (resolve_eq_ok_iff.2 ⟨htext, hl'⟩), he⟩

theorem directory (h : Extends t t') (hd : t.directory p = .ok d) : t'.directory p = .ok d := by
  obtain ⟨e', hf, he⟩ := h.find (directory_eq_ok_iff.1 hd)
  obtain rfl := he.eq_of_not_file (by simp)
  exact directory_eq_ok_iff.2 hf

theorem canonical {full : Path} (h : Extends t t') (hc : t.canonical p = .ok full) :
    t'.canonical p = .ok full := by
  rw [FileTree.canonical] at hc ⊢
  cases hf : t.find p true with
  | error fault =>
    rw [hf] at hc
    cases hc
  | ok found =>
    obtain ⟨l, e⟩ := found
    obtain ⟨e', hf', -⟩ := h.find hf
    rw [hf']
    rw [hf] at hc
    exact hc

/-- A file that has not changed is read the same. -/
theorem readBytes {bytes : List UInt8} (h : Extends t t')
    (hsame : ∀ l content executable, t.find p true = .ok (l, .file content executable) →
      t'.lookup l = t.lookup l) (hb : t.readBytes p = .ok bytes) : t'.readBytes p = .ok bytes := by
  rw [FileTree.readBytes] at hb
  split at hb
  · cases hb
  next l content executable hf =>
    obtain rfl := Except.ok.inj hb
    obtain ⟨e', hf', halike⟩ := h.find hf
    obtain ⟨content', rfl⟩ := halike.exists_file
    have hl := (resolve_eq_ok_iff.1 (find_eq_ok_iff.1 hf)).2.lookup_file.2
    have hl' := (resolve_eq_ok_iff.1 (find_eq_ok_iff.1 hf')).2.lookup_file.2
    rw [hsame l _ _ hf, hl] at hl'
    obtain ⟨rfl, -⟩ := Entry.file.inj (Option.some.inj hl')
    rw [FileTree.readBytes, hf']
  · cases hb

/-- A way to a free name leads to what stands there now, if that is a file or nothing. -/
theorem leads_vacant (h : Extends t t') (hl : Leads t last links base way (.vacant d name)) :
    (t'.lookup (d ++ [name]) = none → Leads t' last links base way (.vacant d name)) ∧
      ∀ content executable, t'.lookup (d ++ [name]) = some (.file content executable) →
        Leads t' last links base way (.found (d ++ [name]) (.file content executable)) := by
  generalize htarget : Target.vacant d name = target at hl
  induction hl with
  | here => cases htarget
  | pass hp _ ih =>
    exact ⟨fun hnone => .pass (h.passes hp) ((ih htarget).1 hnone),
      fun _ _ hfile => .pass (h.passes hp) ((ih htarget).2 _ _ hfile)⟩
  | through hn hlink hr _ ih =>
    have hlink' := h.lookup_of_not_file (by simp) hlink
    exact ⟨fun hnone => .through hn hlink' hr ((ih htarget).1 hnone),
      fun _ _ hfile => .through hn hlink' hr ((ih htarget).2 _ _ hfile)⟩
  | free hn _ =>
    obtain ⟨rfl, rfl⟩ := Target.vacant.inj htarget
    exact ⟨fun hnone => .free hn hnone, fun _ _ hfile => .stop hn hfile (by simp) (by simp)⟩
  | stop => cases htarget

/-- A path to a free name leads to what stands there now, if that is a file or nothing. -/
theorem resolve_vacant (h : Extends t t') (hr : t.resolve p last = .ok (.vacant d name)) :
    (t'.lookup (d ++ [name]) = none → t'.resolve p last = .ok (.vacant d name)) ∧
      ∀ content executable, t'.lookup (d ++ [name]) = some (.file content executable) →
        t'.resolve p last = .ok (.found (d ++ [name]) (.file content executable)) := by
  obtain ⟨htext, hl⟩ := resolve_eq_ok_iff.1 hr
  have hleads := h.leads_vacant hl
  rw [← h.here] at hleads
  exact ⟨fun hnone => resolve_eq_ok_iff.2 ⟨htext, hleads.1 hnone⟩,
    fun _ _ hfile => resolve_eq_ok_iff.2 ⟨htext, hleads.2 _ _ hfile⟩⟩

end Extends

/-! ### Directories that are made -/

/-- A directory that is made is found by its path, without the slashes at its end. -/
theorem find_of_makeDirectory (h : t.makeDirectory p = .ok t') :
    ∃ l, l ≠ [] ∧ t.lookup l = none ∧ t' = t.insert l .directory ∧
      t'.find ⟨withoutTrailingSlashes p.text⟩ false = .ok (l, .directory) := by
  obtain ⟨d, name, hr, rfl⟩ := exists_of_makeDirectory h
  obtain ⟨htext, hleads⟩ := resolve_eq_ok_iff.1 hr
  exact ⟨d ++ [name], by simp, hleads.lookup_vacant, rfl,
    find_eq_ok_iff.2 (resolve_eq_ok_iff.2 ⟨htext, hleads.insert (by simp)⟩)⟩

/-- Making a directory and those on the way changes only places where nothing stood, and to each of
    them, a start of the path leads now. -/
theorem exists_of_lookup_makeDirectories (h : (t.makeDirectories p).2.lookup l ≠ t.lookup l) :
    t.lookup l = none ∧ ∃ q : Path, q.components <+: p.components ∧
      (t.makeDirectories p).2.find q false = .ok (l, .directory) := by
  refine (makeDirectories_keeps (P := fun t' => Extends t t' ∧ ∀ l, t'.lookup l ≠ t.lookup l →
      t.lookup l = none ∧ ∃ q : Path, q.components <+: p.components ∧
        t'.find q false = .ok (l, .directory)) p (fun t₁ t₂ q hq ht hmake => ?_)
    ⟨.refl t, fun _ h => absurd rfl h⟩).2 l h
  obtain ⟨place, hne, hfree, rfl, hfind⟩ := find_of_makeDirectory hmake
  have hextends := Extends.makeDirectory hmake
  refine ⟨ht.1.trans hextends, fun l hl => ?_⟩
  by_cases heq : l = place
  · subst heq
    refine ⟨?_, _, by rwa [components_withoutTrailingSlashes], hfind⟩
    -- Nothing has gone, so that nothing was there before.
    by_contra hsome
    obtain ⟨e, he⟩ := Option.ne_none_iff_exists'.1 hsome
    obtain ⟨e', he', -⟩ := ht.1.lookup l e he
    exact absurd (hfree.symm.trans he') (by simp)
  · rw [lookup_insert _ _ _ hne, if_neg heq] at hl
    obtain ⟨hnone, q', hq', hfind'⟩ := ht.2 l hl
    obtain ⟨e', hfind'', halike⟩ := hextends.find hfind'
    obtain rfl := halike.eq_of_not_file (by simp)
    exact ⟨hnone, q', hq', hfind''⟩

end FileTree

end TestBench
