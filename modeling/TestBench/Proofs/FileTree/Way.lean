import TestBench.FileTree.Resolve

/-!
# The ways in a file tree

A way that leads somewhere is a derivation (`Leads`): it passes from directory to directory, or
through a link, and stops at an entry or at a free name. What a derivation rests on are the
entries it comes by, so a way is not changed by what changes elsewhere.

* `walk_eq_ok_iff`: a way leads where following it step by step ends;
* `Leads.append`, `Leads.exists_of_append`: a way in two parts leads through a directory;
* `Leads.unfollowed`: a way to a directory ends somewhere also if a link at its end is not
  followed;
* `Leads.insert`, `Leads.erase`: what is put at a free name is found there, and where a file is
  erased, its name is free.
-/

namespace TestBench.FileTree

variable {t : FileTree} {last : Bool} {links : Nat} {base d l : Location}
  {name : ByteString} {way rest : List ByteString} {e : Entry} {target : Target}

/-- Whether a step names an entry of a directory. -/
def IsEntryName (name : ByteString) : Prop :=
  name ≠ "." ∧ name ≠ ".." ∧ name.length ≤ maxNameBytes

instance (name : ByteString) : Decidable (IsEntryName name) :=
  inferInstanceAs (Decidable (_ ∧ _ ∧ _))

/-- A step from a directory to a directory, not through a link. -/
inductive Passes (t : FileTree) (base : Location) : ByteString → Location → Prop where
  | stay : Passes t base "." base
  | up : Passes t base ".." base.dropLast
  | down {name : ByteString} (hn : IsEntryName name)
      (hl : t.lookup (base ++ [name]) = some .directory) : Passes t base name (base ++ [name])

/-- A way from a directory to a target. -/
inductive Leads (t : FileTree) (last : Bool) :
    Nat → Location → List ByteString → Target → Prop where
  | here {links : Nat} {base : Location} : Leads t last links base [] (.found base .directory)
  | pass {links : Nat} {base base' : Location} {name : ByteString} {rest : List ByteString}
      {target : Target} (hp : Passes t base name base') (h : Leads t last links base' rest target) :
      Leads t last links base (name :: rest) target
  | through {links : Nat} {base : Location} {name text : ByteString} {rest : List ByteString}
      {target : Target} (hn : IsEntryName name)
      (hl : t.lookup (base ++ [name]) = some (.link text)) (hr : rest = [] → last = true)
      (h : Leads t last links (origin text base) (steps text ++ rest) target) :
      Leads t last (links + 1) base (name :: rest) target
  | free {links : Nat} {base : Location} {name : ByteString} (hn : IsEntryName name)
      (hl : t.lookup (base ++ [name]) = none) : Leads t last links base [name] (.vacant base name)
  | stop {links : Nat} {base : Location} {name : ByteString} {e : Entry} (hn : IsEntryName name)
      (hl : t.lookup (base ++ [name]) = some e) (hd : e ≠ .directory)
      (he : ∀ text, e = .link text → last = false) :
      Leads t last links base [name] (.found (base ++ [name]) e)

/-! ### Following a way -/

/-- What following a way does at a name: it stops there, goes on below, or goes on where a link
    leads. -/
theorem walk_name (hn : IsEntryName name) :
    t.walk last links base (name :: rest) =
      match t.lookup (base ++ [name]) with
      | none => if rest.isEmpty then .ok (.vacant base name) else .error .notFound
      | some .directory => t.walk last links (base ++ [name]) rest
      | some (.file content executable) =>
        if rest.isEmpty then .ok (.found (base ++ [name]) (.file content executable))
        else .error .notDirectory
      | some (.link target) =>
        if rest.isEmpty && !last then .ok (.found (base ++ [name]) (.link target))
        else
          match links with
          | 0 => .error .tooManyLinks
          | links + 1 => t.walk last links (origin target base) (steps target ++ rest) := by
  cases links <;>
    exact (if_neg hn.1).trans ((if_neg hn.2.1).trans (if_neg (Nat.not_lt.2 hn.2.2)))

theorem walk_of_passes {base' : Location} (h : Passes t base name base') :
    t.walk last links base (name :: rest) = t.walk last links base' rest := by
  cases h with
  | stay => cases links <;> rfl
  | up => cases links <;> rfl
  | down hn hl => rw [walk_name hn, hl]

theorem walk_of_leads (h : Leads t last links base way target) :
    t.walk last links base way = .ok target := by
  induction h with
  | here => rw [walk_nil]
  | pass hp _ ih => rw [walk_of_passes hp, ih]
  | through hn hl hr _ ih =>
    rw [walk_name hn, hl, ← ih]
    exact if_neg (by simpa using hr)
  | free hn hl =>
    rw [walk_name hn, hl]
    rfl
  | stop hn hl hd he =>
    rw [walk_name hn, hl]
    rename_i e
    cases e with
    | file content executable => rfl
    | directory => exact absurd rfl hd
    | link text => rw [he text rfl]; rfl

/-- A way up to a link is one as far as that behind the link is. -/
theorem leads_of_walkFrom {follow : Location → List ByteString → Except ErrorNumber Target}
    (hf : ∀ text rest, (rest = [] → last = true) → ∀ base name, IsEntryName name →
      t.lookup (base ++ [name]) = some (.link text) →
      follow (origin text base) (steps text ++ rest) = .ok target →
      Leads t last links base (name :: rest) target)
    (h : t.walkFrom last follow base way = .ok target) : Leads t last links base way target := by
  -- One case for each branch of the walk; those that are left over end in an error.
  fun_induction walkFrom t last follow base way with
  | case1 => exact Except.ok.inj h ▸ .here
  | case2 _ _ ih => exact .pass .stay (ih h)
  | case3 _ _ _ ih => exact .pass .up (ih h)
  | case5 _ _ _ hd hdd hlong hl hr =>
    rw [List.isEmpty_iff] at hr
    exact hr ▸ Except.ok.inj h ▸ .free ⟨hd, hdd, Nat.not_lt.1 hlong⟩ hl
  | case7 _ _ _ hd hdd hlong hl ih => exact .pass (.down ⟨hd, hdd, Nat.not_lt.1 hlong⟩ hl) (ih h)
  | case8 _ _ _ hd hdd hlong _ _ hl hr =>
    rw [List.isEmpty_iff] at hr
    exact hr ▸ Except.ok.inj h ▸ .stop ⟨hd, hdd, Nat.not_lt.1 hlong⟩ hl (by simp) (by simp)
  | case10 _ _ _ hd hdd hlong _ hl hr =>
    rw [Bool.and_eq_true, List.isEmpty_iff, Bool.not_eq_true'] at hr
    exact hr.1 ▸ Except.ok.inj h ▸ .stop ⟨hd, hdd, Nat.not_lt.1 hlong⟩ hl (by simp)
      fun _ _ => hr.2
  | case11 _ _ _ hd hdd hlong _ hl hr =>
    exact hf _ _ (by simpa using hr) _ _ ⟨hd, hdd, Nat.not_lt.1 hlong⟩ hl h
  | case4 | case6 | case9 => cases h

theorem leads_of_walk (h : t.walk last links base way = .ok target) :
    Leads t last links base way target := by
  induction links generalizing base way with
  | zero => exact leads_of_walkFrom (fun _ _ _ _ _ _ _ hend => by cases hend) h
  | succ links ih =>
    exact leads_of_walkFrom (fun _ _ hr _ _ hn hl hend => .through hn hl hr (ih hend)) h

/-- A way leads where following it ends. -/
theorem walk_eq_ok_iff :
    t.walk last links base way = .ok target ↔ Leads t last links base way target :=
  ⟨leads_of_walk, walk_of_leads⟩

/-- A way does not lead on from where nothing is. -/
theorem walk_of_missing (hn : IsEntryName name) (hl : t.lookup (base ++ [name]) = none)
    (hr : rest ≠ []) : t.walk last links base (name :: rest) = .error .notFound := by
  rw [walk_name hn, hl]
  exact if_neg (by simpa using hr)

/-- Following a way depends only on what stands where. -/
theorem walk_congr {t' : FileTree} (h : t'.lookup = t.lookup) : t'.walk = t.walk := by
  have hstep : ∀ last follow base way,
      t'.walkFrom last follow base way = t.walkFrom last follow base way := by
    intro last follow base way
    induction way generalizing base with
    | nil => rfl
    | cons name rest ih =>
      rw [walkFrom, walkFrom, h]
      simp only [ih]
  funext last links base way
  induction links generalizing base way with
  | zero => rw [walk, walk, hstep]
  | succ links ih =>
    have hfollow : t'.walk last links = t.walk last links := by
      funext base way
      exact ih base way
    rw [walk, walk, hstep, hfollow]

/-! ### Ways in two parts -/

/-- Behind a way to a directory, any further way leads on from there. -/
theorem Leads.append (h : Leads t true links base way (.found d .directory)) :
    ∃ links', ∀ {last rest target}, rest ≠ [] → Leads t last links' d rest target →
      Leads t last links base (way ++ rest) target := by
  generalize ht : Target.found d .directory = found at h
  induction h with
  | here =>
    rw [Target.found.injEq] at ht
    exact ⟨_, fun _ h => ht.1 ▸ h⟩
  | pass hp _ ih =>
    obtain ⟨links', ih⟩ := ih ht
    exact ⟨links', fun hr h => .pass hp (ih hr h)⟩
  | through hn hl _ _ ih =>
    obtain ⟨links', ih⟩ := ih ht
    refine ⟨links', fun hr h => .through hn hl (fun he => ?_) ?_⟩
    · exact absurd (List.append_eq_nil_iff.1 he).2 hr
    · exact List.append_assoc _ _ _ ▸ ih hr h
  | free => cases ht
  | stop _ _ hd =>
    rw [Target.found.injEq] at ht
    exact absurd ht.2.symm hd

/-- Behind a way to a directory, following a further way is following it from there, wherever it
    ends. -/
theorem Leads.walk_append (h : Leads t true links base way (.found d .directory)) :
    ∃ links', ∀ last rest, rest ≠ [] →
      t.walk last links base (way ++ rest) = t.walk last links' d rest := by
  generalize ht : Target.found d .directory = found at h
  induction h with
  | here =>
    rw [Target.found.injEq] at ht
    exact ⟨_, fun last rest _ => by rw [ht.1, List.nil_append]⟩
  | pass hp _ ih =>
    obtain ⟨links', ih⟩ := ih ht
    refine ⟨links', fun last rest hr => ?_⟩
    rw [List.cons_append, walk_of_passes hp, ih last rest hr]
  | through hn hl _ _ ih =>
    obtain ⟨links', ih⟩ := ih ht
    refine ⟨links', fun last rest hr => ?_⟩
    rw [List.cons_append, walk_name hn, hl, ← ih last rest hr, List.append_assoc]
    exact if_neg (by simp [hr])
  | free => cases ht
  | stop _ _ hd =>
    rw [Target.found.injEq] at ht
    exact absurd ht.2.symm hd

/-- A way with something behind it leads to a directory, from where what is behind it leads on. -/
theorem Leads.exists_of_append (h : Leads t last links base (way ++ rest) target)
    (hr : rest ≠ []) : ∃ d links', Leads t true links base way (.found d .directory) ∧
      Leads t last links' d rest target := by
  generalize hw : way ++ rest = whole at h
  induction h generalizing way with
  | here => exact absurd (List.append_eq_nil_iff.1 hw).2 hr
  | pass hp h ih =>
    cases way with
    | nil =>
      obtain rfl : rest = _ := hw
      exact ⟨_, _, .here, .pass hp h⟩
    | cons name way =>
      rw [List.cons_append, List.cons.injEq] at hw
      obtain ⟨d, links', hway, hrest⟩ := ih hw.2
      exact ⟨d, links', .pass (hw.1 ▸ hp) hway, hrest⟩
  | through hn hl hlast h ih =>
    cases way with
    | nil =>
      obtain rfl : rest = _ := hw
      exact ⟨_, _, .here, .through hn hl hlast h⟩
    | cons name way =>
      rw [List.cons_append, List.cons.injEq] at hw
      obtain ⟨d, links', hway, hrest⟩ := ih (by rw [List.append_assoc, hw.2])
      exact ⟨d, links', .through (hw.1 ▸ hn) (hw.1 ▸ hl) (fun _ => rfl) hway, hrest⟩
  | free hn hl =>
    -- Such a way has one step, which is behind the cut.
    cases way with
    | nil =>
      obtain rfl : rest = _ := hw
      exact ⟨_, links, .here, .free hn hl⟩
    | cons name way =>
      rw [List.cons_append, List.cons.injEq] at hw
      exact absurd (List.append_eq_nil_iff.1 hw.2).2 hr
  | stop hn hl hd he =>
    cases way with
    | nil =>
      obtain rfl : rest = _ := hw
      exact ⟨_, links, .here, .stop hn hl hd he⟩
    | cons name way =>
      rw [List.cons_append, List.cons.injEq] at hw
      exact absurd (List.append_eq_nil_iff.1 hw.2).2 hr

/-- A way to a directory ends somewhere also if a link at its end is not followed. -/
theorem Leads.unfollowed (h : Leads t true links base way (.found d .directory)) :
    ∃ l e, Leads t false links base way (.found l e) := by
  generalize ht : Target.found d .directory = found at h
  induction h with
  | here => exact ⟨_, _, .here⟩
  | pass hp _ ih =>
    obtain ⟨l, e, ih⟩ := ih ht
    exact ⟨l, e, .pass hp ih⟩
  | @through _ _ _ _ rest _ hn hl _ _ ih =>
    cases rest with
    | nil =>
      -- The link at the end is where the way ends now.
      exact ⟨_, _, .stop hn hl (by simp) fun _ _ => rfl⟩
    | cons name rest =>
      obtain ⟨l, e, ih⟩ := ih ht
      exact ⟨l, e, .through hn hl (by simp) ih⟩
  | free => cases ht
  | stop _ _ hd =>
    rw [Target.found.injEq] at ht
    exact absurd ht.2.symm hd

/-! ### Ways in changed trees -/

/-- Nothing stands where a way leads to a free name. -/
theorem Leads.lookup_vacant (h : Leads t last links base way (.vacant d name)) :
    t.lookup (d ++ [name]) = none := by
  generalize ht : Target.vacant d name = vacant at h
  induction h with
  | here => cases ht
  | pass _ _ ih => exact ih ht
  | through _ _ _ _ ih => exact ih ht
  | free _ hl =>
    rw [Target.vacant.injEq] at ht
    rw [ht.1, ht.2, hl]
  | stop => cases ht

/-- A file that a way leads to stands where it does, below a directory. -/
theorem Leads.lookup_file {content : List UInt8} {executable : Bool}
    (h : Leads t last links base way (.found l (.file content executable))) :
    l ≠ [] ∧ t.lookup l = some (.file content executable) := by
  generalize ht : Target.found l (.file content executable) = found at h
  induction h with
  | here => cases ht
  | pass _ _ ih => exact ih ht
  | through _ _ _ _ ih => exact ih ht
  | free => cases ht
  | stop _ hl =>
    rw [Target.found.injEq] at ht
    rw [ht.1, ht.2]
    exact ⟨by simp, hl⟩

/-- What stands on the way to a place is not changed by what changes there. -/
theorem lookup_of_ne {t' : FileTree} (ht : ∀ l', l' ≠ l → t'.lookup l' = t.lookup l')
    {place : Location} (h : t.lookup place ≠ t.lookup l) : t'.lookup place = t.lookup place :=
  ht place fun hp => h (hp ▸ rfl)

theorem Passes.of_lookup {t' : FileTree} {base' : Location}
    (ht : ∀ l', l' ≠ l → t'.lookup l' = t.lookup l') (hd : t.lookup l ≠ some .directory)
    (h : Passes t base name base') : Passes t' base name base' := by
  cases h with
  | stay => exact .stay
  | up => exact .up
  | down hn hl =>
    refine .down hn ?_
    rw [lookup_of_ne ht (by rw [hl]; exact hd.symm), hl]

/-- What is put at a free name, unless it is a link, is found there. -/
theorem Leads.insert (h : Leads t last links base way (.vacant d name)) {e : Entry}
    (he : ∀ text, e ≠ .link text) :
    Leads (t.insert (d ++ [name]) e) last links base way (.found (d ++ [name]) e) := by
  have hnone := h.lookup_vacant
  have hnew : ∀ l', l' ≠ d ++ [name] → (t.insert (d ++ [name]) e).lookup l' = t.lookup l' := by
    intro l' hl'
    rw [lookup_insert _ _ _ (by simp), if_neg hl']
  have hput : (t.insert (d ++ [name]) e).lookup (d ++ [name]) = some e := by
    rw [lookup_insert _ _ _ (by simp), if_pos rfl]
  generalize ht : Target.vacant d name = vacant at h
  induction h with
  | here => cases ht
  | pass hp _ ih => exact .pass (hp.of_lookup hnew (by rw [hnone]; simp)) (ih ht)
  | through hn hl hr _ ih =>
    refine .through hn ?_ hr (ih ht)
    rw [lookup_of_ne hnew (by rw [hl, hnone]; simp), hl]
  | free hn _ =>
    obtain ⟨rfl, rfl⟩ := Target.vacant.inj ht
    by_cases hdir : e = .directory
    · subst hdir
      exact .pass (.down hn hput) .here
    · exact .stop hn hput hdir fun text htext => absurd htext (he text)
  | stop => cases ht

/-- Where a file is erased, its name is free. -/
theorem Leads.erase {content : List UInt8} {executable : Bool}
    (h : Leads t last links base way (.found l (.file content executable))) :
    ∃ d name, Leads (t.erase l) last links base way (.vacant d name) := by
  obtain ⟨hroot, hfile⟩ := h.lookup_file
  have hnew : ∀ l', l' ≠ l → (t.erase l).lookup l' = t.lookup l' := by
    intro l' hl'
    rw [lookup_erase _ _ hroot, if_neg hl']
  generalize ht : Target.found l (.file content executable) = found at h
  induction h with
  | here => cases ht
  | pass hp _ ih =>
    obtain ⟨d, name, ih⟩ := ih ht
    exact ⟨d, name, .pass (hp.of_lookup hnew (by rw [hfile]; simp)) ih⟩
  | through hn hl hr _ ih =>
    obtain ⟨d, name, ih⟩ := ih ht
    refine ⟨d, name, .through hn ?_ hr ih⟩
    rw [lookup_of_ne hnew (by rw [hl, hfile]; simp), hl]
  | free => cases ht
  | stop hn _ =>
    rw [Target.found.injEq] at ht
    refine ⟨_, _, .free hn ?_⟩
    rw [← ht.1, lookup_erase _ _ hroot, if_pos rfl]

end TestBench.FileTree
