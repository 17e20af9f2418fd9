import TestBench.Proofs.FileTree.Retraces
import TestBench.Proofs.Workspace.Cleaned
import TestBench.Proofs.Workspace.Holding

/-!
# A workspace that is used again

A run that cleans its workspace and gives it back leaves all but what is removed then, and the lock
(`Closes`). Another run takes the lock again, and finds the workspace clean. So what it starts its
work with retraces what the first run has started its work with: there is nothing in it but what was
there then, or has been left.

* `Closes.lookup_eq`: what is left depends on what was there;
* `Closes.locked`: the workspace can be locked again, and then it is clean;
* `Closes.retraces`: what is there then retraces what was there the first time.
-/

namespace TestBench.Workspace

open FileTree

variable {w : Workspace} {t t' A A' F F' G G' : FileTree} {R l : Location}

/-! ### Held workspaces -/

/-- The lock file of a held workspace is in its root, and the root stands. -/
theorem Held.at_root (h : w.Held t) (hroot : w.RootAt t R) : w.Stands t R ∧
    ∃ content executable, t.lookup (R ++ [lockName]) = some (.file content executable) := by
  obtain ⟨R', content, executable, hstands, hfile⟩ := h.file
  obtain rfl := hroot.unique hstands.rootAt
  exact ⟨hstands, content, executable, hfile⟩

/-- What is added to a workspace leaves it held. -/
theorem Held.extends (h : w.Held t) (hproper : t'.Proper) (he : Extends t t') : w.Held t' :=
  h.of_hasWays hproper he.hasWays fun _ _ executable hl =>
    (he.exists_file hl).elim fun content' hl' => ⟨content', executable, hl'⟩

/-- In a clean workspace there are no entries of the clone. -/
theorem Clean.entriesFrom (h : w.Clean t R) (ht : t.Proper) :
    t.entriesFrom (w.cloneAt R) = [] := by
  refine List.filter_eq_nil_iff.2 fun q hq hl => ?_
  rw [List.isPrefixOf_iff_prefix] at hl
  have hne : q.1 ≠ [] := fun hnil => w.cloneAt_ne_nil R (List.prefix_nil.1 (hnil ▸ hl))
  exact absurd ((h.clone q.1 hl).symm.trans ((ht.lookup_iff hne).2 hq)) (by simp)

/-! ### What is left -/

/-- Whether a tree is what a run leaves of another one when it has cleaned the workspace and has
    given it back. -/
structure Closes (w : Workspace) (R : Location) (t t' : FileTree) : Prop where
  proper : t'.Proper
  part : Part t' t
  stands : w.Stands t' R
  free : t'.lookup (R ++ [lockName]) = none
  gone : ∀ l, w.Removable t l → t'.lookup l = none
  stays : ∀ l, l ≠ R ++ [lockName] → ¬w.Removable t l → t'.lookup l = t.lookup l

/-- A cleaning that succeeds, and then the unlocking, lead there. -/
theorem closes_of_clean (hroot : w.RootAt t R) (hheld : w.Held t') (hcleans : w.Cleans t t')
    (hclean : w.Clean t' R) :
    w.Closes R t ((t'.removeFile w.lockFile).toOption.getD t') := by
  have hgone := fun l (hl : w.Removable t l) => hclean.lookup_of_removable hcleans hroot hl
  obtain ⟨R', content, executable, hstands, hfile⟩ := hheld.file
  obtain rfl := hroot.unique (hstands.rootAt.of_part hcleans.part)
  have hfind := find_join_of_rootAt isName_lockName (by decide) hheld.text hstands.rootAt
  rw [hfile] at hfind
  have hremove : t'.removeFile w.lockFile = .ok (t'.erase (R ++ [lockName])) := by
    rw [removeFile, lockFile, hfind]
  have hlookup : ∀ l, (t'.erase (R ++ [lockName])).lookup l =
      if l = R ++ [lockName] then none else t'.lookup l :=
    fun l => lookup_erase _ _ (by simp)
  rw [hremove]
  change w.Closes R t (t'.erase (R ++ [lockName]))
  refine ⟨hheld.proper.erase _, (Part.erase _ _).trans hcleans.part,
    hstands.of_hasWays (.erase (by simp) hfile), by rw [hlookup, if_pos rfl], fun l hl => ?_,
    fun l hne hl => ?_⟩
  · rw [hlookup, hgone l hl, ite_self]
  · rw [hlookup, if_neg hne, (hcleans.lookup l).resolve_right hl]

namespace Closes

/-- What is left depends on what was there. -/
theorem lookup_eq (h : w.Closes R F G) (h' : w.Closes R F' G') (hhere : F'.here = F.here)
    (hsame : ∀ l, F'.lookup l = F.lookup l) (l : Location) : G'.lookup l = G.lookup l := by
  have hpart : Part F' F := ⟨hhere, fun l e he => (hsame l).symm.trans he⟩
  have hpart' : Part F F' := ⟨hhere.symm, fun l e he => (hsame l).trans he⟩
  by_cases hlock : l = R ++ [lockName]
  · rw [hlock, h.free, h'.free]
  by_cases hl : w.Removable F l
  · rw [h.gone l hl, h'.gone l (hl.of_part hpart')]
  · rw [h.stays l hlock hl, h'.stays l hlock fun hl' => hl (hl'.of_part hpart), hsame]

variable (h : w.Closes R F G)
include h

/-- The workspace can be locked again, and then it is clean. -/
theorem locked (hheld : w.Held F) (hclone : F.lookup (w.cloneAt R) = some .directory) :
    G.createFile w.lockFile = .ok (G.insert (R ++ [lockName]) (.file [] false)) ∧
      w.Held (G.insert (R ++ [lockName]) (.file [] false)) ∧
      w.RootAt (G.insert (R ++ [lockName]) (.file [] false)) R ∧
      w.Clean (G.insert (R ++ [lockName]) (.file [] false)) R := by
  have hroot := h.stands.rootAt
  have hresolve : G.resolve w.lockFile false = .ok (.vacant R lockName) :=
    (resolve_join_iff isName_lockName).2
      ⟨⟨hheld.text, by decide⟩, R, hroot, by rw [targetAt, h.free]⟩
  have hlookup : ∀ l, (G.insert (R ++ [lockName]) (.file [] false)).lookup l =
      if l = R ++ [lockName] then some (.file [] false) else G.lookup l :=
    fun l => lookup_insert _ _ _ (by simp)
  have hrootF := hroot.of_part h.part
  refine ⟨createFile_of_vacant hresolve, held_of_vacant h.proper h.stands hresolve,
    hroot.of_hasWays (hasWays_insert_lockFile hresolve _), fun l hl => ?_,
    fun name content executable hfile => ?_⟩
  · -- The clone was not in the place of the lock file.
    rw [hlookup, if_neg, h.gone l (.clone hrootF hl hclone (by simp))]
    rintro rfl
    obtain ⟨-, content, executable, hfile⟩ := hheld.at_root hrootF
    have hsame : w.cloneAt R = R ++ [lockName] := hl.eq_of_length (by simp [cloneAt])
    rw [hsame, hfile] at hclone
    cases hclone
  · rw [hlookup] at hfile
    split at hfile
    next hname =>
      obtain rfl := List.singleton_inj.1 (List.append_cancel_left hname)
      exact w.isArtifact_lockFile
    next =>
      by_contra hartifact
      rw [Bool.not_eq_false] at hartifact
      have hremovable := Removable.artifact hrootF rfl hartifact (h.part.lookup _ _ hfile)
      exact absurd ((h.gone _ hremovable).symm.trans hfile) (by simp)

/-- What is there when the workspace is locked again and has been cleaned retraces what was there
    the first time. -/
theorem retraces (hA : w.Clean A R) (hproper : A.Proper)
    (hlock : A.lookup (R ++ [lockName]) = some (.file [] false)) (hextends : Extends A F)
    (hA' : w.Clean A' R) (hproper' : A'.Proper) (hhere : A'.here = G.here)
    (hsame : ∀ l, A'.lookup l = (G.insert (R ++ [lockName]) (.file [] false)).lookup l) :
    Retraces G (w.cloneAt R) A A' := by
  refine ⟨hhere.trans (h.part.here.trans hextends.here), fun l => ?_, ?_⟩
  · rw [hsame, lookup_insert _ _ _ (by simp)]
    split
    next hl => exact .inl (hl ▸ hlock.symm)
    next hl =>
      cases hG : G.lookup l with
      | some e => exact .inr ⟨e, rfl, rfl⟩
      | none =>
        -- What was there the first time is not gone, since it was not to be removed.
        refine .inl (by_contra fun hne => ?_)
        obtain ⟨e, he⟩ := Option.ne_none_iff_exists'.1 (Ne.symm hne)
        obtain ⟨e', he', halike⟩ := hextends.lookup l e he
        by_cases hremovable : w.Removable F l
        · cases hremovable with
          | clone hroot hl' =>
            obtain rfl := (h.stands.rootAt.of_part h.part).unique hroot
            exact absurd ((hA.clone l hl').symm.trans he) (by simp)
          | artifact hroot hl' hname hfile =>
            obtain rfl := (h.stands.rootAt.of_part h.part).unique hroot
            subst hl'
            obtain rfl := Option.some.inj (hfile.symm.trans he')
            obtain ⟨content, rfl⟩ := halike.symm.exists_file
            exact absurd ((hA.artifact _ _ _ he).symm.trans hname) (by simp)
        · exact absurd (hG.symm.trans ((h.stays l hl hremovable).trans he')) (by simp)
  · rw [hA.entriesFrom hproper, hA'.entriesFrom hproper']

end Closes

end TestBench.Workspace
