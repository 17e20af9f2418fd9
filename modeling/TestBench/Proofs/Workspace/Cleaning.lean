import TestBench.Proofs.FileTree.Proper
import TestBench.Proofs.Tool.Quiet
import TestBench.Proofs.Workspace.Root
import TestBench.Workspace.Cleaning

/-!
# What cleaning removes

Cleaning removes, and it never removes more than the clone and the files in the root that come from
building and from measuring coverage (`Cleans`): this holds whatever is refused on the way. That it
removes all of this takes more: the way to the root must not go through the clone, since behind
the clone the root would be gone (`Stands`).

* `keeps_cleans`: cleaning a proper tree removes nothing but what may be removed;
* `run_clean_of_stands`: where the root stands, cleaning removes all of it.
-/

namespace TestBench.Workspace

open FileTree

variable {σ : Type} {w : Workspace} {t t' t'' : FileTree} {R l : Location} {name : ByteString}
  {e : Entry}

/-! ### What may be removed -/

/-- Where the clone is, given where the root is. -/
def cloneAt (w : Workspace) (R : Location) : Location :=
  R ++ [w.cloneName]

theorem cloneAt_ne_nil (w : Workspace) (R : Location) : w.cloneAt R ≠ [] :=
  List.append_ne_nil_of_right_ne_nil R (List.cons_ne_nil _ _)

/-- Whether cleaning may remove what stands at a place: it belongs to the clone, which is no file,
    or it is a file in the root that a run leaves behind. -/
inductive Removable (w : Workspace) (t : FileTree) (l : Location) : Prop where
  | clone {R : Location} {e : Entry} (hroot : w.RootAt t R) (hl : w.cloneAt R <+: l)
      (he : t.lookup (w.cloneAt R) = some e)
      (hfile : ∀ content executable, e ≠ .file content executable)
  | artifact {R : Location} {name : ByteString} {content : List UInt8} {executable : Bool}
      (hroot : w.RootAt t R) (hl : l = R ++ [name]) (hname : isArtifact (w.root.join name))
      (he : t.lookup l = some (.file content executable))

theorem Removable.of_part (ht : Part t' t) (h : w.Removable t' l) : w.Removable t l := by
  cases h with
  | clone hroot hl he hfile => exact .clone (hroot.of_part ht) hl (ht.lookup _ _ he) hfile
  | artifact hroot hl hname he => exact .artifact (hroot.of_part ht) hl hname (ht.lookup _ _ he)

/-- Whether a tree is left of another one by removing only what cleaning may remove. -/
structure Cleans (w : Workspace) (t t' : FileTree) : Prop where
  part : Part t' t
  lookup : ∀ l, t'.lookup l = t.lookup l ∨ w.Removable t l

namespace Cleans

theorem refl (w : Workspace) (t : FileTree) : w.Cleans t t :=
  ⟨.refl t, fun _ => .inl rfl⟩

theorem trans (h : w.Cleans t t') (h' : w.Cleans t' t'') : w.Cleans t t'' := by
  refine ⟨h'.part.trans h.part, fun l => ?_⟩
  rcases h'.lookup l with h' | h'
  · rw [h']
    exact h.lookup l
  · exact .inr (h'.of_part h.part)

/-- Erasing what may be removed. -/
theorem erase (hl : l ≠ []) (h : w.Removable t l) : w.Cleans t (t.erase l) := by
  refine ⟨.erase t l, fun l' => ?_⟩
  rw [lookup_erase _ _ hl]
  split
  next he => exact .inr (he ▸ h)
  next => exact .inl rfl

end Cleans

/-! ### Removing no more -/

/-- Removing the clone removes nothing else. -/
theorem cleans_removeTree (hn : Path.IsName w.cloneName) (t : FileTree) :
    w.Cleans t (t.removeTree w.clone).2 := by
  refine ⟨.removeTree t w.clone, fun l => ?_⟩
  by_cases h : (t.removeTree w.clone).2.lookup l = t.lookup l
  · exact .inl h
  obtain ⟨top, e, hfind, hfile, hl⟩ := exists_of_lookup_removeTree h
  obtain ⟨R, hroot, rfl, he⟩ := find_join hn hfind
  exact .inr (.clone hroot hl he hfile)

/-- Whether a path is one of a file in the root that a run leaves behind. -/
structure IsLeftover (w : Workspace) (t : FileTree) (p : Path) (name : ByteString) : Prop where
  proper : IsProperName name
  path : p = w.root.join name
  artifact : isArtifact p
  file : ∀ R, w.RootAt t R → ∃ content executable,
    t.lookup (R ++ [name]) = some (.file content executable)

/-- Removing a file that a run leaves behind removes nothing else, also when others are gone. -/
theorem cleans_removeFile {t₀ : FileTree} {p : Path} (hp : w.IsLeftover t₀ p name)
    (ht : Part t t₀) (h : t.removeFile p = .ok t') : w.Cleans t t' := by
  obtain rfl := hp.path
  obtain ⟨R, e, hroot, hl, -, rfl⟩ := exists_of_removeFile_join hp.proper.isName h
  obtain ⟨content, executable, hfile⟩ := hp.file R (hroot.of_part ht)
  obtain rfl : e = .file content executable :=
    Option.some.inj ((ht.lookup _ _ hl).symm.trans hfile)
  exact .erase (by simp) (.artifact hroot rfl hp.artifact hl)

/-- The key of an entry that is listed in a directory. -/
theorem eq_of_child {q : Location × Entry} {c : ByteString × Entry}
    (h : (if R.isPrefixOf q.1 then
        match q.1.drop R.length with
        | [name] => some (name, q.2)
        | _ => none
      else none) = some c) : q = (R ++ [c.1], c.2) := by
  obtain ⟨k, e⟩ := q
  split at h
  next hp =>
    obtain ⟨rest, rfl⟩ := List.isPrefixOf_iff_prefix.1 hp
    rw [List.drop_left] at h
    match rest with
    | [name] =>
      obtain rfl := Option.some.inj h
      rfl
    | [] => cases h
    | _ :: _ :: _ => cases h
  next => cases h

theorem mem_entries_of_children {c : ByteString × Entry} (h : c ∈ t.children R) :
    (R ++ [c.1], c.2) ∈ t.entries := by
  obtain ⟨q, hq, h⟩ := List.mem_filterMap.1 h
  exact eq_of_child h ▸ hq

theorem mem_children (h : (R ++ [name], e) ∈ t.entries) : (name, e) ∈ t.children R := by
  refine List.mem_filterMap.2 ⟨_, h, ?_⟩
  rw [if_pos (List.isPrefixOf_iff_prefix.2 (List.prefix_append _ _))]
  simp

/-- The entry of a file that is listed as left behind. -/
theorem eq_of_artifact {c : ByteString × Entry} {p : Path}
    (h : (match c.2 with
      | .file _ _ =>
        let p := w.root.join c.1
        if isArtifact p then some p else none
      | _ => none) = some p) :
    p = w.root.join c.1 ∧ isArtifact p ∧ ∃ content executable, c.2 = .file content executable := by
  obtain ⟨name, e⟩ := c
  cases e with
  | file content executable =>
    simp only at h
    split at h
    next hartifact =>
      obtain rfl := Option.some.inj h
      exact ⟨rfl, hartifact, content, executable, rfl⟩
    next => cases h
  | directory => cases h
  | link text => cases h

/-- In a proper tree, what is listed as left behind is a file in the root. -/
theorem exists_isLeftover (ht : t.Proper) (hroot : w.RootAt t R) {p : Path}
    (hp : p ∈ w.artifacts t R) : ∃ name, w.IsLeftover t p name := by
  obtain ⟨⟨name, e⟩, hchild, hp⟩ := List.mem_filterMap.1 hp
  have hmem := mem_entries_of_children hchild
  obtain ⟨hpath, hartifact, content, executable, rfl⟩ := eq_of_artifact (c := (name, e)) hp
  refine ⟨name, ht.names _ hmem name (by simp), hpath, hartifact, fun R' hroot' => ?_⟩
  obtain rfl := hroot.unique hroot'
  exact ⟨content, executable, (ht.lookup_iff (by simp)).2 hmem⟩

/-- Removing the clone keeps what the removal of the tree keeps. -/
theorem keeps_removeClone {P : FileTree → Prop} (hclone : ∀ t, P t → P (t.removeTree w.clone).2) :
    Keeps P (w.removeClone : Action σ Unit) := by
  refine .bind (.tryRequest hclone) fun done => ?_
  split
  · exact OnlyReads.report.keeps
  · split
    · exact (OnlyReads.fail _).keeps
    · exact (OnlyReads.pure ()).keeps

/-- Removing files that were left behind keeps what the removal of each of them keeps. -/
theorem keeps_removeFiles {P : FileTree → Prop} {t₁ : FileTree}
    (hremove : ∀ t t' p name, w.IsLeftover t₁ p name → Part t t₁ → P t →
      t.removeFile p = .ok t' → P t')
    {ps : List Path} (hps : ∀ p ∈ ps, ∃ name, w.IsLeftover t₁ p name) :
    Keeps (fun t => P t ∧ Part t t₁) (removeFiles ps : Action σ Unit) := by
  induction ps with
  | nil => exact (OnlyReads.pure ()).keeps
  | cons p ps ih =>
    rw [List.forall_mem_cons] at hps
    obtain ⟨⟨name, hname⟩, hps⟩ := hps
    refine .bind (.request fun t ht => Deed.settle_keeps (P := fun t => P t ∧ Part t t₁) ht
      fun t' h => ⟨hremove t t' p name hname ht.2 ht.1 h, ?_⟩) fun _ =>
        .bind OnlyReads.report.keeps fun _ => ih hps
    -- The others are still there, since nothing but files is removed.
    exact (cleans_removeFile hname ht.2 h).part.trans ht.2

/-- Cleaning a proper tree keeps what removing the clone and each of the files keeps. -/
theorem keeps_clean {P : FileTree → Prop} (hproper : ∀ t, P t → t.Proper)
    (hclone : ∀ t, P t → P (t.removeTree w.clone).2)
    (hremove : ∀ t₁ t t' p name, w.IsLeftover t₁ p name → Part t t₁ → P t →
      t.removeFile p = .ok t' → P t') : Keeps P (w.clean : Action σ Unit) := by
  refine .bind (keeps_removeClone hclone) fun _ => .files_bind fun world ht => ?_
  split
  next R hR =>
    have hroot := (directory_root_iff.1 hR).2
    have hleft := keeps_removeFiles (σ := σ) (hremove world.files) fun p hp =>
      exists_isLeftover (hproper _ ht) hroot hp
    exact (hleft world ⟨ht, .refl _⟩).1
  next => exact ht

theorem keeps_cleans_removeClone (hn : Path.IsName w.cloneName) (t₀ : FileTree) :
    Keeps (fun t => w.Cleans t₀ t ∧ t.Proper) (w.removeClone : Action σ Unit) :=
  keeps_removeClone fun t ht => ⟨ht.1.trans (cleans_removeTree hn t), ht.2.removeTree w.clone⟩

/-- Cleaning a proper tree removes nothing but what may be removed, and keeps the tree proper. -/
theorem keeps_cleans (hn : Path.IsName w.cloneName) (t₀ : FileTree) :
    Keeps (fun t => w.Cleans t₀ t ∧ t.Proper) (w.clean : Action σ Unit) :=
  keeps_clean (fun _ ht => ht.2)
    (fun t ht => ⟨ht.1.trans (cleans_removeTree hn t), ht.2.removeTree w.clone⟩)
    fun _ _ _ _ _ hp hpart ht h => ⟨ht.1.trans (cleans_removeFile hp hpart h), ht.2.removeFile h⟩

/-! ### How cleaning fails -/

/-- Whether a computation ended because files could not be changed. -/
def IsIo (halt : Halt) : Prop :=
  ∃ fault, halt = .failure (.io fault)

theorem IsIo.isOwn {halt : Halt} (h : IsIo halt) : halt.IsOwn := by
  obtain ⟨fault, rfl⟩ := h
  trivial

theorem quiet_removeFiles (ps : List Path) :
    Quiet IsIo (removeFiles ps : Action σ Unit) := by
  induction ps with
  | nil => exact .pure ()
  | cons p ps ih =>
    exact .bind (.request fun fault => ⟨fault, rfl⟩) fun _ => .bind .report fun _ => ih

/-- Cleaning calls nothing, and fails only where files cannot be removed. -/
theorem quiet_clean (w : Workspace) : Quiet IsIo (w.clean : Action σ Unit) := by
  have hclone : Quiet IsIo (w.removeClone : Action σ Unit) := by
    refine .bind (.tryRequest _) fun done => ?_
    split
    · exact .report
    · split
      · exact .fail ⟨_, rfl⟩
      · exact .pure ()
  refine .bind hclone fun _ => .bind .files fun t => ?_
  split
  · exact quiet_removeFiles _
  · exact .pure ()

/-! ### What stays -/

/-- A file in the root stays if it is none that a run leaves behind. -/
theorem not_removable_of_file {content : List UInt8} {executable : Bool} (hn : Path.IsName name)
    (hf : t.find (w.root.join name) false = .ok (l, .file content executable))
    (hname : isArtifact (w.root.join name) = false) : ¬w.Removable t l := by
  obtain ⟨R, hroot, rfl, hl⟩ := find_join hn hf
  intro h
  cases h with
  | clone hroot' hprefix he hfile =>
    obtain rfl := hroot.unique hroot'
    have hsame : w.cloneAt R = R ++ [name] := hprefix.eq_of_length (by simp [cloneAt])
    rw [hsame, hl, Option.some.injEq] at he
    exact hfile _ _ he.symm
  | artifact hroot' hl' hname' =>
    obtain rfl := hroot.unique hroot'
    rw [List.append_cancel_left_eq, List.singleton_inj] at hl'
    subst hl'
    rw [hname] at hname'
    exact Bool.false_ne_true hname'

/-- Whether a directory has nothing to do with the clone. -/
def Apart (w : Workspace) (t : FileTree) (D : Location) : Prop :=
  ∀ R, w.RootAt t R → ¬D <+: w.cloneAt R ∧ ¬w.cloneAt R <+: D

/-- What is in such a directory stays. -/
theorem Apart.not_removable {D : Location} (h : w.Apart t D) (hdir : t.lookup D = some .directory)
    (hl : D <+: l) : ¬w.Removable t l := by
  intro hremovable
  cases hremovable with
  | clone hroot hprefix =>
    rcases List.prefix_or_prefix_of_prefix hl hprefix with hsub | hsub
    · exact (h _ hroot).1 hsub
    · exact (h _ hroot).2 hsub
  | artifact hroot hl' _ hfile =>
    subst hl'
    rcases List.prefix_concat_iff.1 hl with rfl | hsub
    · rw [hdir] at hfile
      cases hfile
    · exact (h _ hroot).1 (hsub.trans (List.prefix_append _ _))

/-- A directory in the root is apart from the clone if it has another name. -/
theorem apart_of_find {D : Location} (hn : Path.IsName name) (hne : name ≠ w.cloneName)
    (h : t.find (w.root.join name) false = .ok (D, e)) : w.Apart t D := by
  obtain ⟨R, hroot, rfl, -⟩ := find_join hn h
  intro R' hroot'
  obtain rfl := hroot.unique hroot'
  refine ⟨fun hsub => hne ?_, fun hsub => hne ?_⟩
  · have hsame := hsub.eq_of_length (by simp [cloneAt])
    simpa [cloneAt] using hsame
  · have hsame := hsub.eq_of_length (by simp [cloneAt])
    simpa [cloneAt] using hsame.symm

/-! ### Removing all of it -/

/-- Whether the root is where it is without the help of the clone. -/
def Stands (w : Workspace) (t : FileTree) (R : Location) : Prop :=
  w.RootAt (t.prune (w.cloneAt R)) R

theorem Stands.rootAt (h : w.Stands t R) : w.RootAt t R :=
  h.of_part (prune_part _ _)

theorem Stands.of_hasWays (ht : HasWays t' t) (h : w.Stands t R) : w.Stands t' R :=
  RootAt.of_hasWays (ht.prune (w.cloneAt_ne_nil R)) h

/-- The directory where paths start always stands. -/
theorem stands_here (h : w.root = ⟨"."⟩) (t : FileTree) : w.Stands t t.here := by
  have hnames : namesOf "." = ["."] := by decide
  have horigin : origin "." t.here = t.here := if_neg (by decide)
  rw [Stands, RootAt, h, hnames]
  change Leads _ _ _ (origin "." t.here) _ _
  rw [horigin]
  exact .pass .stay .here

/-- Where the root stands, cleaning leaves it standing. -/
theorem Stands.of_cleans (hc : w.Cleans t t') (h : w.Stands t R) : w.Stands t' R := by
  have hways : HasWays (t'.prune (w.cloneAt R)) (t.prune (w.cloneAt R)) := by
    refine ⟨hc.part.here, fun l e he hl => ?_⟩
    rw [lookup_prune (w.cloneAt_ne_nil R)] at hl ⊢
    split at hl
    next => cases hl
    next hb =>
      rw [if_neg hb]
      -- Neither a directory nor a link is removed elsewhere than in the clone.
      rcases hc.lookup l with hsame | hremovable
      · rw [hsame, hl]
      · cases hremovable with
        | clone hroot hl' =>
          obtain rfl := hroot.unique h.rootAt
          exact absurd hl' hb
        | artifact _ _ _ hfile => exact absurd (Option.some.inj (hl.symm.trans hfile)) (he _ _)
  exact RootAt.of_hasWays hways h

/-- The emptied directory under a name in the root can go. -/
theorem removeEmptied_join (hn : Path.IsName name) {l' : Location}
    (h : t.find (w.root.join name) false = .ok (l, .directory)) :
    t.removeEmptied (w.root.join name) l' = (.ok (), t.erase l') := by
  have hlast : ((Text.pieces '/' (w.root.join name).text.toList).filter (!·.isEmpty)).getLast? =
      some name.toList := by
    have hnames := congrArg List.getLast? (namesOf_join w hn)
    rw [List.getLast?_concat, namesOf, List.getLast?_map] at hnames
    obtain ⟨cs, hcs, rfl⟩ := Option.map_eq_some_iff.1 hnames
    rw [hcs, String.toList_ofList]
  have hplain := withoutTrailingSlashes_of_getLast (getLast_join w hn)
  have hdot : name.toList ≠ ['.'] := fun h => hn.2.2.1 (String.toList_inj.1 h)
  have hdots : name.toList ≠ ['.', '.'] := fun h => hn.2.2.2 (String.toList_inj.1 h)
  rw [removeEmptied, h, hlast]
  simp only
  split
  next he => exact absurd (Option.some.inj he) hdot
  next he => exact absurd (Option.some.inj he) hdots
  next =>
    rw [hplain, h]

/-- Where the root stands, the clone is removed with all that is in it. -/
theorem removeTree_of_stands (hn : Path.IsName w.cloneName) (hstands : w.Stands t R)
    (h : t.find w.clone false = .ok (l, .directory)) :
    t.removeTree w.clone = (.ok (), t.prune (w.cloneAt R)) := by
  obtain ⟨R', hroot, rfl, hl⟩ := find_join hn h
  obtain rfl := hstands.rootAt.unique hroot
  have htext := (resolve_join_iff hn).1 (find_eq_ok_iff.1 h)
  -- The emptied directory is still found.
  have hemptied : w.RootAt (t.eraseBelow (w.cloneAt R)) R := RootAt.of_part (Part.erase _ _) hstands
  have hlookup : (t.eraseBelow (w.cloneAt R)).lookup (R ++ [w.cloneName]) = some .directory := by
    rw [lookup_eraseBelow, if_neg, hl]
    exact fun hb => (isBelow_iff.1 hb).2 rfl
  have hfind := find_join_of_rootAt hn htext.1.2 htext.1.1 hemptied
  rw [hlookup] at hfind
  rw [removeTree, h]
  exact removeEmptied_join hn hfind

section Exact

variable {world : World σ}

theorem run_removeClone (world : World σ) :
    ∃ events requests, (w.removeClone : Action σ Unit).run world =
      (match (world.files.removeTree w.clone).1 with
        | .error fault =>
          if fault ≠ .system .notFound then .error (.failure (.io fault)) else .ok ()
        | .ok _ => .ok (),
        ⟨(world.files.removeTree w.clone).2, events, world.tools, requests⟩) := by
  rw [removeClone, Action.run_bind, Action.run_tryRequest, World.after, Deed.perform]
  simp only
  cases (world.files.removeTree w.clone).1 with
  | ok _ => exact ⟨_, _, rfl⟩
  | error fault =>
    simp only
    split
    · exact ⟨_, _, rfl⟩
    · exact ⟨_, _, rfl⟩

/-- Where the root stands, the clone goes if it is a directory, and then nothing is in its place. -/
theorem run_removeClone_of_stands (hn : IsProperName w.cloneName)
    (htext : IsPathText w.clone.text) (hstands : w.Stands world.files R)
    (hclone : ∀ l e, world.files.find w.clone false = .ok (l, e) → e = .directory) :
    ∃ events requests t, (w.removeClone : Action σ Unit).run world =
        (.ok (), ⟨t, events, world.tools, requests⟩) ∧
      t.lookup (w.cloneAt R) = none := by
  obtain ⟨events, requests, hrun⟩ := @run_removeClone σ w world
  have hfind := find_join_of_rootAt hn.isName hn.isEntryName htext hstands.rootAt
  cases hl : world.files.lookup (R ++ [w.cloneName]) with
  | none =>
    rw [hl] at hfind
    have hremove : world.files.removeTree w.clone = (.error (.system .notFound), world.files) := by
      rw [removeTree, clone, hfind]
    rw [hremove] at hrun
    exact ⟨events, requests, world.files, hrun, hl⟩
  | some e =>
    rw [hl] at hfind
    obtain rfl := hclone _ _ hfind
    have hremove := removeTree_of_stands hn.isName hstands hfind
    rw [hremove] at hrun
    refine ⟨events, requests, _, hrun, ?_⟩
    rw [lookup_prune (w.cloneAt_ne_nil R), if_pos (List.prefix_refl _)]

theorem join_injective {name' : ByteString} (hn : Path.IsName name) (hn' : Path.IsName name')
    (h : w.root.join name = w.root.join name') : name = name' := by
  have hnames := namesOf_join w hn
  rw [h, namesOf_join w hn', List.append_cancel_left_eq, List.singleton_inj] at hnames
  exact hnames.symm

/-- No path of a file that a run leaves behind is listed twice. -/
theorem nodup_artifacts (ht : t.Proper) (R : Location) : (w.artifacts t R).Nodup := by
  have hkeys : t.entries.Pairwise fun q q' => q.1 ≠ q'.1 := List.pairwise_map.1 ht.keys
  have hnames : (t.children R).Pairwise fun c c' => c.1 ≠ c'.1 := by
    refine hkeys.filterMap _ fun q q' hne c hc c' hc' hsame => hne ?_
    rw [eq_of_child hc, eq_of_child hc', hsame]
  have hpaths : (t.children R).Pairwise fun c c' => w.root.join c.1 ≠ w.root.join c'.1 := by
    refine hnames.imp_of_mem fun {c c'} hc hc' hne hsame => hne ?_
    have hname := (ht.names _ (mem_entries_of_children hc) c.1 (by simp)).isName
    have hname' := (ht.names _ (mem_entries_of_children hc') c'.1 (by simp)).isName
    exact join_injective hname hname' hsame
  refine hpaths.filterMap _ fun c c' hne p hp p' hp' => ?_
  rw [(eq_of_artifact hp).1, (eq_of_artifact hp').1]
  exact hne

/-- A file that a run leaves behind is still there when another one is removed. -/
theorem IsLeftover.of_erase {p : Path} {name' : ByteString} (h : w.IsLeftover t p name')
    (hroot : w.RootAt t R) (hne : name' ≠ name) : w.IsLeftover (t.erase (R ++ [name])) p name' := by
  refine ⟨h.proper, h.path, h.artifact, fun R' hroot' => ?_⟩
  obtain rfl := (hroot'.of_part (Part.erase _ _)).unique hroot
  obtain ⟨content, executable, hfile⟩ := h.file R' hroot
  refine ⟨content, executable, ?_⟩
  rw [lookup_erase _ _ (by simp), if_neg, hfile]
  simpa using hne

/-- After a file that is removed, the others are. -/
theorem run_removeFiles_cons {p : Path} {ps : List Path} (h : world.files.removeFile p = .ok t) :
    ∃ events requests, (removeFiles (p :: ps) : Action σ Unit).run world =
      (removeFiles ps).run ⟨t, events, world.tools, requests⟩ := by
  have hrequest : (Action.request (.removeFile p)).run world = _ :=
    Action.run_request_ok (congrArg (Deed.settle _) h)
  rw [removeFiles, Action.run_bind, hrequest]
  exact ⟨_, _, rfl⟩

theorem run_removeFiles_refused {p : Path} {ps : List Path} {fault : Fault}
    (h : world.files.removeFile p = .error fault) :
    ∃ requests, (removeFiles (p :: ps) : Action σ Unit).run world =
      (.error (.failure (.io fault)), { world with requests }) := by
  have hrequest : (Action.request (.removeFile p)).run world = _ :=
    Action.run_request_error (congrArg (Deed.settle _) h)
  rw [removeFiles, Action.run_bind, hrequest]
  exact ⟨_, rfl⟩

/-- Files that a run leaves behind are removed one after the other. -/
theorem run_removeFiles (hroot : w.RootAt world.files R) {ps : List Path} (hnodup : ps.Nodup)
    (hps : ∀ p ∈ ps, ∃ name, w.IsLeftover world.files p name)
    (hpaths : ∀ p ∈ ps, IsPathText p.text) :
    ∃ events requests t, (removeFiles ps : Action σ Unit).run world =
        (.ok (), ⟨t, events, world.tools, requests⟩) ∧
      Part t world.files ∧ ∀ p ∈ ps, ∀ name, Path.IsName name → p = w.root.join name →
        t.lookup (R ++ [name]) = none := by
  induction ps generalizing world with
  | nil => exact ⟨world.events, world.requests, world.files, rfl, .refl _, by simp⟩
  | cons p ps ih =>
    rw [List.forall_mem_cons] at hps hpaths
    rw [List.nodup_cons] at hnodup
    obtain ⟨⟨name, hp⟩, hps⟩ := hps
    obtain rfl := hp.path
    obtain ⟨content, executable, hfile⟩ := hp.file R hroot
    have hname := hp.proper
    have hfind := find_join_of_rootAt hname.isName hname.isEntryName hpaths.1 hroot
    rw [hfile] at hfind
    have hremove : world.files.removeFile (w.root.join name) =
        .ok (world.files.erase (R ++ [name])) := by
      rw [removeFile, hfind]
    -- The root and the other files are still there.
    have hways : HasWays (world.files.erase (R ++ [name])) world.files := .erase (by simp) hfile
    have hothers : ∀ p ∈ ps, ∃ name', w.IsLeftover (world.files.erase (R ++ [name])) p name' := by
      intro p hp'
      obtain ⟨name', hleft⟩ := hps p hp'
      refine ⟨name', hleft.of_erase hroot ?_⟩
      rintro rfl
      exact hnodup.1 (hleft.path ▸ hp')
    obtain ⟨events', requests', hcons⟩ := @run_removeFiles_cons σ _ world _ ps hremove
    obtain ⟨events, requests, t, hrun, hpart, hgone⟩ := @ih
      ⟨world.files.erase (R ++ [name]), events', world.tools, requests'⟩
      (hroot.of_hasWays hways) hnodup.2 hothers hpaths.2
    refine ⟨events, requests, t, hcons.trans hrun, hpart.trans (Part.erase _ _), ?_⟩
    · intro p hp' name' hname' hjoin
      rcases List.mem_cons.1 hp' with rfl | hp'
      · obtain rfl := join_injective hname.isName hname' hjoin
        -- What is gone does not come back.
        by_contra hne
        obtain ⟨e, he⟩ := Option.ne_none_iff_exists'.1 hne
        have := hpart.lookup _ _ he
        rw [lookup_erase _ _ (by simp), if_pos rfl] at this
        cases this
      · exact hgone p hp' name' hname' hjoin

/-- Whether the paths of the files in the root that a run leaves behind are such as the system
    takes. -/
def Reaches (w : Workspace) (t : FileTree) (R : Location) : Prop :=
  ∀ name content executable, t.lookup (R ++ [name]) = some (.file content executable) →
    isArtifact (w.root.join name) → IsPathText (w.root.join name).text

theorem reaches_of_hasRoom (hroom : w.HasRoom) (hpath : IsPathText w.root.text) (ht : t.Proper)
    (R : Location) : w.Reaches t R := by
  intro name content executable hfile _
  have hname := ht.of_lookup hfile name (by simp)
  exact isPathText_join hroom hpath hname.isName.1 hname.zero hname.size

theorem Reaches.of_part (ht : Part t' t) (h : w.Reaches t R) : w.Reaches t' R :=
  fun name content executable hfile => h name content executable (ht.lookup _ _ hfile)

/-- The files in the root that a run leaves behind are listed. -/
theorem mem_artifacts {content : List UInt8} {executable : Bool}
    (hfile : t.lookup (R ++ [name]) = some (.file content executable))
    (hname : isArtifact (w.root.join name)) : w.root.join name ∈ w.artifacts t R := by
  refine List.mem_filterMap.2 ⟨_, mem_children (mem_of_lookup (by simp) hfile), ?_⟩
  simp only [hname, if_true]

/-- Where the root stands and the clone is a directory or absent, cleaning succeeds, and leaves
    neither the clone nor a file in the root that a run leaves behind. -/
theorem run_clean_of_stands (hn : IsProperName w.cloneName) (hpath : IsPathText w.root.text)
    (htext : IsPathText w.clone.text) (hreaches : w.Reaches world.files R)
    (ht : world.files.Proper) (hstands : w.Stands world.files R)
    (hclone : ∀ l e, world.files.find w.clone false = .ok (l, e) → e = .directory) :
    ∃ events requests t, (w.clean : Action σ Unit).run world =
        (.ok (), ⟨t, events, world.tools, requests⟩) ∧
      t.lookup (w.cloneAt R) = none ∧ ∀ name content executable,
        t.lookup (R ++ [name]) = some (.file content executable) →
          isArtifact (w.root.join name) = false := by
  obtain ⟨events, requests, t, hrun, hgone⟩ := run_removeClone_of_stands hn htext hstands hclone
  obtain ⟨hcleans, hproper⟩ : w.Cleans world.files t ∧ t.Proper := by
    have := keeps_cleans_removeClone hn.isName world.files world ⟨.refl w _, ht⟩
    rwa [hrun] at this
  have hroot : w.RootAt t R := (hstands.of_cleans hcleans).rootAt
  have hleftover : ∀ p ∈ w.artifacts t R, ∃ name, w.IsLeftover t p name :=
    fun p hp => exists_isLeftover hproper hroot hp
  obtain ⟨events', requests', t', hrun', hpart, hleft⟩ := @run_removeFiles σ w R
    ⟨t, events, world.tools, requests⟩ hroot _ (nodup_artifacts hproper R) hleftover fun p hp => by
      obtain ⟨name, hname⟩ := hleftover p hp
      obtain ⟨content, executable, hfile⟩ := hname.file R hroot
      obtain rfl := hname.path
      exact hreaches.of_part hcleans.part name content executable hfile hname.artifact
  refine ⟨events', requests', t', ?_, ?_, ?_⟩
  · rw [clean, Action.run_bind, hrun]
    simp only
    rw [Action.run_bind, Action.files, Action.run_ofFunction]
    simp only [directory_root_iff.2 ⟨hpath, hroot⟩]
    exact hrun'
  · by_contra hne
    obtain ⟨e, he⟩ := Option.ne_none_iff_exists'.1 hne
    exact absurd (hgone.symm.trans (hpart.lookup _ _ he)) (by simp)
  · intro name content executable hfile
    by_contra hartifact
    rw [Bool.not_eq_false] at hartifact
    have hbefore := hpart.lookup _ _ hfile
    have hname := (hproper.of_lookup hbefore name (by simp)).isName
    rw [hleft _ (mem_artifacts hbefore hartifact) name hname rfl] at hfile
    cases hfile

end Exact

end TestBench.Workspace
