import TestBench.Proofs.Project.Handover
import TestBench.Proofs.Project.Keeping

/-!
# What a run removes

A run that has taken the lock ends with its work, whatever the stages fail with, and then it cleans
up and gives the lock back. So it leaves neither the clone nor a file that comes from building, and
no lock file. There are two conditions. If the program breaks down, only the lock is given back.
And the root has to be where it is without the help of the clone, since otherwise it is gone with
the clone and nothing in it is found again.

* `cleaned_up`: what is gone after a run that has taken the lock.
-/

namespace TestBench

open FileTree

variable {σ : Type} {s : Settings} {w : Workspace} {runner : Runner σ} {R : Location}

/-! ### Options -/

namespace Options

variable {o : Options}

/-- The path of the workspace is accepted only if it may be one, but for its length. -/
theorem text_root (h : o.check = .ok ()) :
    Char.ofNat 0 ∉ o.workspace.root.text.toList ∧ o.workspace.root.text ≠ "" := by
  have hcheck : checkGiven o.workspaceRoot (fun p => Check.path "workspace_dir" p.display) =
      .ok () := check_eq_ok_iff.1 h _ (.tail _ (.tail _ (.tail _ (.tail _ (.head _)))))
  cases hroot : o.workspaceRoot with
  | none =>
    have hdot : o.workspace.root = ⟨"."⟩ := by rw [workspace, hroot]; rfl
    rw [hdot]
    decide
  | some p =>
    have hp : o.workspace.root = p := by rw [workspace, hroot]; rfl
    rw [hroot] at hcheck
    rw [hp]
    rw [checkGiven, Check.path] at hcheck
    split at hcheck
    · cases hcheck
    next hne =>
      split at hcheck
      · cases hcheck
      next hzero =>
        refine ⟨fun hmem => hzero ?_, fun hempty => hne ?_⟩
        · exact List.contains_iff_mem.2 (ByteString.mem_display (by decide) hmem)
        · rw [Path.display, hempty]
          rfl

theorem isPathText_root (h : o.check = .ok ()) (hroom : o.workspace.HasRoom) :
    IsPathText o.workspace.root.text := by
  have hsize : o.workspace.root.text.length < pathBytes := by
    rw [Workspace.HasRoom] at hroom
    omega
  exact ⟨(text_root h).1, (text_root h).2, hsize⟩

end Options

namespace Project

/-- Where the root stands, the cleaning at the end of a run removes all it should. -/
theorem run_cleanUp_of_stands (s : Settings) (runner : Runner σ)
    (hclone : IsProperName w.cloneName) (hpath : IsPathText w.root.text) (hroom : w.HasRoom)
    {left : World σ} (hproper : left.files.Proper) (hstands : w.Stands left.files R)
    (hdir : ∀ l e, left.files.find w.clone false = .ok (l, e) → e = .directory) :
    w.RootAt ((stages s w runner).cleanUp.run left).2.files R ∧
      ((stages s w runner).cleanUp.run left).2.files.lookup (w.cloneAt R) = none ∧
      ∀ name content executable, ((stages s w runner).cleanUp.run left).2.files.lookup
          (R ++ [name]) = some (.file content executable) →
        Workspace.isArtifact (w.root.join name) = false := by
  obtain ⟨events, requests, t, hclean, hgone⟩ :=
    Workspace.run_clean_of_stands hclone hpath
      (Workspace.isPathText_join hroom hpath hclone.isName.1 hclone.zero hclone.size)
      (Workspace.reaches_of_hasRoom hroom hpath hproper R) hproper hstands hdir
  have hcleans := (Workspace.keeps_cleans hclone.isName left.files left ⟨.refl w _, hproper⟩).1
  have hfiles : ((stages s w runner).cleanUp.run left).2.files = t := by
    have hcleanup : (stages s w runner).cleanup.run left = _ := hclean
    rw [Stages.cleanUp, Action.run_bind, Action.attempt, Action.run_ofFunction, hcleanup]
    rfl
  rw [hclean] at hcleans
  rw [hfiles]
  exact ⟨(hstands.of_cleans hcleans).rootAt, hgone⟩

/-- A run that has taken the lock gets to the end of its work, and if the root stands then, unless
    there is none, the run leaves no lock file in it. Unless the program breaks down, it leaves
    neither the clone, which has to be a directory if there is one, nor a file in the root that
    comes from building or from measuring coverage. -/
theorem cleaned_up {o : Options} (ho : o.check = .ok ())
    (hclone : IsProperName o.workspace.cloneName) (hroom : o.workspace.HasRoom)
    (hrunner : runner.Keeps FileTree.Proper) {world taken : World σ} (hworld : world.files.Proper)
    (htaken : (stages o.settings o.workspace runner).Passes world ⟨.locked, taken⟩) :
    (∃ result left, (stages o.settings o.workspace runner).Passes world ⟨.worked result, left⟩) ∧
    ∀ result left,
      (stages o.settings o.workspace runner).Passes world ⟨.worked result, left⟩ →
      (∀ R, o.workspace.RootAt left.files R → o.workspace.Stands left.files R) →
      (∀ l e, left.files.find o.workspace.clone false = .ok (l, e) → e = .directory) →
      let t := ((stages o.settings o.workspace runner).run.run world).2.files
      (∀ R, o.workspace.RootAt t R → o.workspace.RootAt left.files R) ∧
      ∀ R, o.workspace.RootAt left.files R →
        (∀ e, t.lookup (R ++ [Workspace.lockName]) = some e → e = .directory) ∧
        (result ≠ .error .crash →
          t.lookup (o.workspace.cloneAt R) = none ∧
          ∀ name content executable, t.lookup (R ++ [name]) = some (.file content executable) →
            Workspace.isArtifact (o.workspace.root.join name) = false) := by
  refine ⟨Stages.exists_worked_of_locked htaken, fun result left hleft hall hdir => ?_⟩
  have hpath := Options.isPathText_root ho hroom
  have hlock : IsPathText o.workspace.lockFile.text :=
    Workspace.isPathText_join hroom hpath (by decide) (by decide) (by decide)
  have hproper : left.files.Proper := proper_of_passes hclone.isName hrunner hworld hleft
  have hend : ((stages o.settings o.workspace runner).run.run world) = _ :=
    (Stages.outcome_of_passes hleft).symm
  rw [hend]
  refine ⟨fun R hroot => ?_, fun R hroot => ?_⟩
  · obtain ⟨t, hcleans, hclosed⟩ :=
      exists_cleans_closed o.settings runner hclone.isName result hproper
    have hpart := (Part.removeFile t o.workspace.lockFile).trans hcleans.part
    rw [← hclosed] at hpart
    exact hroot.of_part hpart
  have hstands := hall R hroot
  by_cases hcrash : result = .error .crash
  · have hfiles : ((stages o.settings o.workspace runner).outcome
        ⟨.worked (.error .crash), left⟩).2.files = _ := Stages.files_unlocked _ _ left
    rw [hcrash, hfiles]
    exact ⟨Workspace.lookup_unlocked hlock hroot, fun hne => absurd rfl hne⟩
  · obtain ⟨r, hclosed⟩ :=
      (stages o.settings o.workspace runner).closed_of_ne_crash hcrash left
    obtain ⟨hkept, hgone, hartifacts⟩ :=
      run_cleanUp_of_stands o.settings runner hclone hpath hroom hproper hstands hdir
    have hfiles : ((stages o.settings o.workspace runner).outcome
        ⟨.worked result, left⟩).2.files = _ :=
      (congrArg (·.2.files) hclosed).trans (Stages.files_unlocked _ _ _)
    have hpart := Part.removeFile ((stages o.settings o.workspace runner).cleanUp.run left).2.files
      o.workspace.lockFile
    rw [hfiles]
    refine ⟨Workspace.lookup_unlocked hlock hkept, fun _ => ⟨?_, ?_⟩⟩
    · by_contra hne
      obtain ⟨e, he⟩ := Option.ne_none_iff_exists'.1 hne
      exact absurd (hgone.symm.trans (hpart.lookup _ _ he)) (by simp)
    · intro name content executable hfile
      exact hartifacts name content executable (hpart.lookup _ _ hfile)

/-- The run of a small project takes the lock and makes the clone and the file of the coverage
    data, and leaves neither of them, nor the lock. -/
theorem cleaned_up_small :
    smallOptions.check = .ok () ∧ smallOptions.workspace.HasRoom ∧
      smallTools.Keeps FileTree.Proper ∧ smallWorld.files.Proper ∧
      (∃ taken, smallStages.Passes smallWorld ⟨.locked, taken⟩) ∧
      (smallStages.run.run smallWorld).2.files.lookup ["cloned_repo"] = none ∧
      (∀ content executable, (smallStages.run.run smallWorld).2.files.lookup ["coverage.info"] ≠
        some (.file content executable)) ∧
      ∀ content executable, (smallStages.run.run smallWorld).2.files.lookup [".cscaffold.lock"] ≠
        some (.file content executable) := by
  have hcheck : smallOptions.check = .ok () := by decide +kernel
  have hroom : smallOptions.workspace.HasRoom := by unfold Workspace.HasRoom; decide
  have hlocked : (smallStages.moment smallWorld 2).phase = .locked := by decide +kernel
  have htaken : smallStages.Passes smallWorld ⟨.locked, (smallStages.moment smallWorld 2).world⟩ :=
    ⟨2, by rw [← hlocked]⟩
  have hcleaned := cleaned_up hcheck (by decide) hroom smallTools_keeps_proper proper_smallWorld
    (by rw [smallStages_eq]; exact htaken)
  rw [smallStages_eq] at hcleaned
  obtain ⟨hhere, hclone⟩ : smallLeft.files.here = [] ∧
      smallLeft.files.find smallOptions.workspace.clone false =
        .ok (["cloned_repo"], .directory) := by decide +kernel
  have hstands : smallOptions.workspace.Stands smallLeft.files [] := by
    have := Workspace.stands_here (w := smallOptions.workspace) rfl smallLeft.files
    rwa [hhere] at this
  have hall : ∀ R, smallOptions.workspace.RootAt smallLeft.files R →
      smallOptions.workspace.Stands smallLeft.files R := by
    intro R hroot
    obtain rfl := hroot.unique hstands.rootAt
    exact hstands
  have hdir : ∀ l e, smallLeft.files.find smallOptions.workspace.clone false = .ok (l, e) →
      e = .directory := by
    intro l e hfind
    rw [hclone] at hfind
    exact (Prod.mk.inj (Except.ok.inj hfind)).2.symm
  obtain ⟨hlock, hrest⟩ := (hcleaned.2 _ _ small_worked hall hdir).2 [] hstands.rootAt
  obtain ⟨hgone, hartifacts⟩ := hrest (by simp)
  refine ⟨hcheck, hroom, smallTools_keeps_proper, proper_smallWorld, ⟨_, htaken⟩, hgone,
    fun content executable hfile => ?_, fun content executable hfile => ?_⟩
  · have hname := hartifacts "coverage.info" content executable hfile
    exact absurd hname (by decide +kernel)
  · exact absurd (hlock _ hfile) (by simp)

end Project

end TestBench
