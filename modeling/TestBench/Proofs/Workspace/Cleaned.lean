import TestBench.Proofs.Workspace.Cleaning

/-!
# What a cleaning that succeeds leaves

Cleaning never removes more than it may (`Cleans`), but it may remove less, as it may fail. If it
succeeds and the root stands, it has removed all of it: the workspace is *clean* (`Clean`). So it is
known what stands where after it.

* `clean_of_run`: a cleaning that succeeds leaves a clean workspace;
* `Clean.lookup_of_removable`: nothing stands there where something may be removed.
-/

namespace TestBench.Workspace

open FileTree

variable {σ : Type} {w : Workspace} {t t' : FileTree} {R l : Location} {name : ByteString}
  {world : World σ}

/-- Whether the system takes the name of the clone, and the paths of the root and of the clone. -/
structure Addressable (w : Workspace) : Prop where
  name : IsProperName w.cloneName
  root : IsPathText w.root.text
  clone : IsPathText w.clone.text

/-! ### Clean workspaces -/

/-- Whether a workspace with its root at a place is clean: nothing is where the clone is made, or
    below it, and no file in the root is one that a run leaves behind. -/
structure Clean (w : Workspace) (t : FileTree) (R : Location) : Prop where
  clone : ∀ l, w.cloneAt R <+: l → t.lookup l = none
  artifact : ∀ name content executable, t.lookup (R ++ [name]) = some (.file content executable) →
    isArtifact (w.root.join name) = false

namespace Clean

/-- In a clean workspace, nothing is to be removed. -/
theorem not_removable (h : w.Clean t R) (hroot : w.RootAt t R) : ¬w.Removable t l := by
  intro hl
  cases hl with
  | clone hroot' _ he =>
    obtain rfl := hroot.unique hroot'
    exact absurd ((h.clone _ List.prefix_rfl).symm.trans he) (by simp)
  | artifact hroot' hl hname he =>
    obtain rfl := hroot.unique hroot'
    subst hl
    exact absurd ((h.artifact _ _ _ he).symm.trans hname) (by simp)

/-- Where something may be removed, nothing stands in the clean workspace that is left. -/
theorem lookup_of_removable (h : w.Clean t' R) (hc : w.Cleans t t') (hroot : w.RootAt t R)
    (hl : w.Removable t l) : t'.lookup l = none := by
  by_contra hne
  obtain ⟨e, he⟩ := Option.ne_none_iff_exists'.1 hne
  cases hl with
  | clone hroot' hl =>
    obtain rfl := hroot.unique hroot'
    exact hne (h.clone l hl)
  | artifact hroot' hl hname hfile =>
    obtain rfl := hroot.unique hroot'
    subst hl
    obtain rfl := Option.some.inj (hfile.symm.trans (hc.part.lookup _ _ he))
    exact absurd ((h.artifact _ _ _ he).symm.trans hname) (by simp)

end Clean

/-- What leads to the root is not removed. -/
theorem Cleans.lookup_above (h : w.Cleans t t') (hroot : w.RootAt t R) (hl : l <+: R) :
    t'.lookup l = t.lookup l := by
  refine (h.lookup l).resolve_right fun hremovable => ?_
  have hlong : ∀ name, ¬R ++ [name] <+: R := by
    intro name hsub
    have hlength := hsub.length_le
    rw [List.length_append, List.length_singleton] at hlength
    omega
  cases hremovable with
  | clone hroot' hsub =>
    obtain rfl := hroot.unique hroot'
    exact hlong _ (hsub.trans hl)
  | artifact hroot' hname =>
    obtain rfl := hroot.unique hroot'
    exact hlong _ (hname ▸ hl)

/-! ### The clone -/

/-- Whether all that is below the place of the clone is in a directory there. -/
def Encloses (w : Workspace) (t : FileTree) (R : Location) : Prop :=
  ∀ l, w.cloneAt R <+: l → l ≠ w.cloneAt R → t.lookup l ≠ none →
    t.lookup (w.cloneAt R) = some .directory

/-- Removing the clone leaves all that is elsewhere. -/
theorem lookup_removeClone (hn : Path.IsName w.cloneName) (hroot : w.RootAt world.files R)
    (hl : ¬w.cloneAt R <+: l) :
    ((w.removeClone : Action σ Unit).run world).2.files.lookup l = world.files.lookup l := by
  obtain ⟨events, requests, hrun⟩ := @run_removeClone σ w world
  rw [hrun]
  by_contra hne
  obtain ⟨top, e, hfind, -, htop⟩ := exists_of_lookup_removeTree hne
  obtain ⟨R', hroot', rfl, -⟩ := find_join hn hfind
  obtain rfl := hroot.unique hroot'
  exact hl htop

/-- Removing the clone, if it succeeds, leaves nothing of it, and then it was no file. -/
theorem lookup_of_run_removeClone (hw : w.Addressable) (hstands : w.Stands world.files R)
    (hclone : w.Encloses world.files R)
    (h : ((w.removeClone : Action σ Unit).run world).1 = .ok ()) :
    (∀ l, w.cloneAt R <+: l →
      ((w.removeClone : Action σ Unit).run world).2.files.lookup l = none) ∧
    ∀ content executable, world.files.lookup (w.cloneAt R) ≠ some (.file content executable) := by
  obtain ⟨events, requests, hrun⟩ := @run_removeClone σ w world
  rw [hrun] at h ⊢
  have hfind := find_join_of_rootAt hw.name.isName hw.name.isEntryName hw.clone hstands.rootAt
  -- Below the place of the clone, nothing is left if no directory is there.
  have hbelow : world.files.lookup (w.cloneAt R) ≠ some .directory →
      ∀ l, w.cloneAt R <+: l → l ≠ w.cloneAt R → world.files.lookup l = none :=
    fun hdir l hl hne => by_contra fun hsome => hdir (hclone l hl hne hsome)
  cases hl : world.files.lookup (R ++ [w.cloneName]) with
  | none =>
    rw [hl] at hfind
    have hremove : world.files.removeTree w.clone = (.error (.system .notFound), world.files) := by
      rw [removeTree, clone, hfind]
    rw [hremove]
    refine ⟨fun l hsub => ?_, fun content executable hfile => ?_⟩
    · by_cases hne : l = w.cloneAt R
      · exact hne ▸ hl
      · exact hbelow (by simp [cloneAt, hl]) l hsub hne
    · rw [cloneAt, hl] at hfile
      cases hfile
  | some e =>
    rw [hl] at hfind
    refine ⟨?_, fun content executable hfile => ?_⟩
    · cases e with
      | directory =>
        rw [removeTree_of_stands hw.name.isName hstands hfind]
        intro l hsub
        change (world.files.prune _).lookup l = none
        rw [lookup_prune (w.cloneAt_ne_nil R), if_pos hsub]
      | link text =>
        have hremove : world.files.removeTree w.clone =
            (.ok (), world.files.erase (w.cloneAt R)) := by
          rw [removeTree, clone, hfind, cloneAt]
        rw [hremove]
        intro l hsub
        change (world.files.erase _).lookup l = none
        rw [lookup_erase _ _ (w.cloneAt_ne_nil R)]
        split
        · rfl
        next hne => exact hbelow (by simp [cloneAt, hl]) l hsub hne
      | file content executable =>
        rw [removeTree, clone, hfind] at h
        cases h
    · rw [cloneAt, hl] at hfile
      obtain rfl := Option.some.inj hfile
      rw [removeTree, clone, hfind] at h
      cases h

/-! ### The files -/

theorem isPathText_of_removeFile {p : Path} (h : t.removeFile p = .ok t') : IsPathText p.text := by
  rw [removeFile] at h
  split at h
  · cases h
  · cases h
  next hf => exact (resolve_eq_ok_iff.1 (find_eq_ok_iff.1 hf)).1

/-- Files that are removed are gone, and their paths are such as the system takes. -/
theorem lookup_of_run_removeFiles {ps : List Path}
    (h : ((removeFiles ps : Action σ Unit).run world).1 = .ok ()) :
    Part ((removeFiles ps : Action σ Unit).run world).2.files world.files ∧
      ∀ p ∈ ps, ∀ name, Path.IsName name → p = w.root.join name → IsPathText p.text ∧
        ∃ R, w.RootAt world.files R ∧
          ((removeFiles ps : Action σ Unit).run world).2.files.lookup (R ++ [name]) = none := by
  induction ps generalizing world with
  | nil => exact ⟨.refl _, by simp⟩
  | cons p ps ih =>
    cases hremove : world.files.removeFile p with
    | error fault =>
      obtain ⟨requests, hrefused⟩ := @run_removeFiles_refused σ world p ps fault hremove
      rw [hrefused] at h
      cases h
    | ok t =>
      obtain ⟨events, requests, hcons⟩ := @run_removeFiles_cons σ t world p ps hremove
      rw [hcons] at h ⊢
      have hpart : Part t world.files := by
        have := Part.removeFile world.files p
        rwa [hremove] at this
      obtain ⟨hrest, hgone⟩ := ih h
      refine ⟨hrest.trans hpart, fun q hq name hname hjoin => ?_⟩
      rcases List.mem_cons.1 hq with rfl | hq
      · obtain rfl := hjoin
        obtain ⟨R, e, hroot, hl, -, rfl⟩ := exists_of_removeFile_join hname hremove
        refine ⟨isPathText_of_removeFile hremove, R, hroot, ?_⟩
        -- What is gone does not come back.
        by_contra hne
        obtain ⟨e', he'⟩ := Option.ne_none_iff_exists'.1 hne
        have := hrest.lookup _ _ he'
        rw [lookup_erase _ _ (by simp), if_pos rfl] at this
        cases this
      · obtain ⟨htext, R, hroot, hl⟩ := hgone q hq name hname hjoin
        exact ⟨htext, R, hroot.of_part hpart, hl⟩

/-! ### Cleaning -/

/-- A cleaning that succeeds leaves a clean workspace, and the paths of what it has removed are such
    as the system takes. -/
theorem clean_of_run (hw : w.Addressable) (ht : world.files.Proper)
    (hstands : w.Stands world.files R) (hclone : w.Encloses world.files R)
    (h : ((w.clean : Action σ Unit).run world).1 = .ok ()) :
    w.Clean ((w.clean : Action σ Unit).run world).2.files R ∧ w.Reaches world.files R := by
  obtain ⟨_, w₁, hremove, -⟩ := Action.exists_of_run_bind h
  obtain ⟨hgone, hfile⟩ := lookup_of_run_removeClone hw hstands hclone (by rw [hremove])
  have hkept := fun l => @lookup_removeClone σ w R l world hw.name.isName hstands.rootAt
  have hcleans := keeps_cleans_removeClone hw.name.isName world.files world ⟨.refl w _, ht⟩
  rw [hremove] at hgone hkept hcleans
  obtain ⟨hcleans, hproper⟩ := hcleans
  have hroot : w.RootAt w₁.files R := (hstands.of_cleans hcleans).rootAt
  have hrun : (w.clean : Action σ Unit).run world =
      (removeFiles (w.artifacts w₁.files R)).run w₁ := by
    rw [clean, Action.run_bind, hremove]
    simp only
    rw [Action.run_bind, Action.files, Action.run_ofFunction]
    simp only [directory_root_iff.2 ⟨hw.root, hroot⟩]
  rw [hrun] at h ⊢
  obtain ⟨hpart, hleft⟩ := @lookup_of_run_removeFiles σ w w₁ _ h
  refine ⟨⟨fun l hl => ?_, fun name content executable hl => ?_⟩, ?_⟩
  · by_contra hne
    obtain ⟨e, he⟩ := Option.ne_none_iff_exists'.1 hne
    exact absurd ((hgone l hl).symm.trans (hpart.lookup _ _ he)) (by simp)
  · by_contra hartifact
    rw [Bool.not_eq_false] at hartifact
    have hbefore := hpart.lookup _ _ hl
    have hname := (hproper.of_lookup hbefore name (by simp)).isName
    obtain ⟨-, R', hroot', hnone⟩ := hleft _ (mem_artifacts hbefore hartifact) name hname rfl
    obtain rfl := hroot.unique hroot'
    rw [hnone] at hl
    cases hl
  · intro name content executable hl hartifact
    have hname := (ht.of_lookup hl name (by simp)).isName
    have hne : ¬w.cloneAt R <+: R ++ [name] := by
      intro hsub
      have hsame : w.cloneAt R = R ++ [name] := hsub.eq_of_length (by simp [cloneAt])
      exact hfile content executable (hsame ▸ hl)
    have hl' := (hkept _ hne).trans hl
    exact (hleft _ (mem_artifacts hl' hartifact) name hname rfl).1

end TestBench.Workspace
