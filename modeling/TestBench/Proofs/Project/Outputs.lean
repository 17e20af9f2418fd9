import TestBench.Proofs.Project.Handover
import TestBench.Proofs.Project.Keeping

/-!
# What a run leaves

After its work, a run removes what it leaves behind, but the test module and the report are to
stay. They do, with two exceptions: a test module that has the extension of a built file, as one
has whose template has it, and a report that shares its name with the clone.

* `outputs_stay`: the test module and the report survive the end of a run.
-/

namespace TestBench

open FileTree

variable {σ : Type} {s : Settings} {w : Workspace} {runner : Runner σ} {t t' : FileTree}
  {R D l : Location} {name : String} {e : Entry}

namespace Project

/-! ### The end of a run -/

/-- What cleaning may not remove survives the end of a run, if it is not the lock file. -/
theorem lookup_closed (s : Settings) (runner : Runner σ) (hn : Path.IsName w.cloneName)
    (result : Except Halt Summary) {left : World σ} (ht : left.files.Proper)
    (hl : ¬w.Removable left.files l)
    (hlock : ∀ R, w.RootAt left.files R → l = R ++ [Workspace.lockName] →
      ∀ e, left.files.lookup l = some e → e = .directory) :
    ((stages s w runner).closed (result, left)).2.files.lookup l = left.files.lookup l := by
  obtain ⟨t, hcleans, hend⟩ := exists_cleans_closed s runner hn result ht
  have hkept : t.lookup l = left.files.lookup l := (hcleans.lookup l).resolve_right hl
  rw [hend]
  cases hremove : t.removeFile w.lockFile with
  | error fault => exact hkept
  | ok t' =>
    obtain ⟨R, e, hroot, he, hdir, rfl⟩ :=
      Workspace.exists_of_removeFile_join Workspace.isName_lockName hremove
    change (t.erase _).lookup l = _
    rw [lookup_erase _ _ (by simp), if_neg, hkept]
    rintro rfl
    exact hdir (hlock R (hroot.of_part hcleans.part) rfl e (hkept ▸ he))

/-- What is in a directory that has nothing to do with the clone survives. -/
theorem lookup_closed_of_apart (s : Settings) (runner : Runner σ) (hn : Path.IsName w.cloneName)
    (result : Except Halt Summary) {left : World σ} (ht : left.files.Proper)
    (hdir : left.files.lookup D = some .directory) (hapart : w.Apart left.files D) (hl : D <+: l) :
    ((stages s w runner).closed (result, left)).2.files.lookup l = left.files.lookup l := by
  refine lookup_closed s runner hn result ht (hapart.not_removable hdir hl) ?_
  rintro R hroot rfl e he
  rcases List.prefix_concat_iff.1 hl with rfl | hsub
  · exact Option.some.inj (he.symm.trans hdir)
  · exact absurd (hsub.trans (List.prefix_append _ _)) (hapart R hroot).1

/-- A file in the root survives under the name of a test module, if it is none that a run leaves
    behind. -/
theorem lookup_closed_of_file (s : Settings) (runner : Runner σ) (hn : Path.IsName w.cloneName)
    (result : Except Halt Summary) {left : World σ} (ht : left.files.Proper)
    (hname : IsModuleName (.ofText name)) {content : List UInt8} {executable : Bool}
    (hfind : left.files.find (w.modulePath name) false = .ok (l, .file content executable))
    (hartifact : Workspace.isArtifact (w.modulePath name) = false) :
    ((stages s w runner).closed (result, left)).2.files.lookup l = left.files.lookup l := by
  refine lookup_closed s runner hn result ht
    (Workspace.not_removable_of_file hname.1 hfind hartifact) ?_
  rintro R - rfl
  obtain ⟨R', -, hl, -⟩ := Workspace.find_join hname.1 hfind
  exact absurd (List.singleton_inj.1 (List.append_inj' hl rfl).2).symm hname.2

/-- A run that succeeds has worked, and what its work left survives the end of the run: the test
    module, unless it is named as a file that a run leaves behind, and the report, unless it shares
    its name with the clone. More generally, and also where one of them is a link, whatever belongs
    neither to the clone nor to the files that a run leaves behind survives, but for the lock. -/
theorem outputs_stay {o : Options} (ho : o.check = .ok ()) (hrunner : runner.Keeps FileTree.Proper)
    {world : World σ} (hworld : world.files.Proper) {summary : Summary}
    (hrun : ((stages o.settings o.workspace runner).run.run world).1 = .ok summary) :
    (∃ left,
      (stages o.settings o.workspace runner).Passes world ⟨.worked (.ok summary), left⟩) ∧
    ∀ left, (stages o.settings o.workspace runner).Passes world ⟨.worked (.ok summary), left⟩ →
      let stays := fun l =>
        ((stages o.settings o.workspace runner).run.run world).2.files.lookup l =
          left.files.lookup l
      (Workspace.isArtifact summary.modulePath = false → ∀ l content executable,
        left.files.find summary.modulePath false = .ok (l, .file content executable) → stays l) ∧
      (o.workspace.cloneName ≠ o.workspace.reportName → ∀ D,
        left.files.find o.workspace.report false = .ok (D, .directory) →
        ∀ l, D <+: l → stays l) ∧
      ∀ l, ¬o.workspace.Removable left.files l →
        (∀ R, o.workspace.RootAt left.files R → l ≠ R ++ [Workspace.lockName]) → stays l := by
  have hclone := Options.isName_cloneName ho
  have hreport := Options.isName_reportName ho
  refine ⟨Stages.exists_worked hrun, fun left hleft => ?_⟩
  have hproper : left.files.Proper := proper_of_passes hclone hrunner hworld hleft
  obtain ⟨m, hname, hmodule⟩ := Stages.exists_testModule
    (fun clone w m h => yields_generate clone w m h) hrun
  have hend : (stages o.settings o.workspace runner).run.run world =
      (stages o.settings o.workspace runner).closed (.ok summary, left) :=
    (Stages.outcome_of_passes hleft).symm
  rw [hend]
  refine ⟨fun hartifact l content executable hfind => ?_, fun hne D hfind l hl => ?_,
    fun l hl hlock => ?_⟩
  · rw [hmodule] at hartifact hfind
    exact lookup_closed_of_file o.settings runner hclone _ hproper hname hfind hartifact
  · obtain ⟨R, -, rfl, hdir⟩ := Workspace.find_join hreport hfind
    have hapart := Workspace.apart_of_find hreport hne.symm hfind
    exact lookup_closed_of_apart o.settings runner hclone _ hproper hdir hapart hl
  · exact lookup_closed o.settings runner hclone _ hproper hl
      fun R hroot heq => absurd heq (hlock R hroot)

/-- The run of a small project succeeds, and leaves the test module and the report. -/
theorem outputs_stay_small :
    smallOptions.check = .ok () ∧ smallTools.Keeps FileTree.Proper ∧
      smallWorld.files.Proper ∧ (smallStages.run.run smallWorld).1 = .ok smallSummary ∧
      (smallStages.run.run smallWorld).2.files.lookup ["test_math.py"] =
        some (smallEntry (some "int f(void);\nint f(void) { return 1; }\n\n")) ∧
      (smallStages.run.run smallWorld).2.files.lookup ["coverage_report", "index.html"] =
        some (smallEntry (some "")) := by
  have hcheck : smallOptions.check = .ok () := by decide +kernel
  have hrun : (smallStages.run.run smallWorld).1 = .ok smallSummary := by decide +kernel
  -- What the work has left, before the end of the run.
  obtain ⟨hmodule, hreport, hmoduleFile, hindex⟩ :
      smallLeft.files.find smallSummary.modulePath false =
          .ok (["test_math.py"], smallEntry (some "int f(void);\nint f(void) { return 1; }\n\n")) ∧
        smallLeft.files.find smallOptions.workspace.report false =
          .ok (["coverage_report"], .directory) ∧
        smallLeft.files.lookup ["test_math.py"] =
          some (smallEntry (some "int f(void);\nint f(void) { return 1; }\n\n")) ∧
        smallLeft.files.lookup ["coverage_report", "index.html"] =
          some (smallEntry (some "")) := by decide +kernel
  have hstays := outputs_stay hcheck smallTools_keeps_proper proper_smallWorld
    (by rw [smallStages_eq]; exact hrun)
  rw [smallStages_eq] at hstays
  obtain ⟨hmoduleStays, hreportStays, -⟩ := hstays.2 _ small_worked
  have hartifact : Workspace.isArtifact smallSummary.modulePath = false := by decide +kernel
  exact ⟨hcheck, smallTools_keeps_proper, proper_smallWorld, hrun,
    (hmoduleStays hartifact _ _ _ hmodule).trans hmoduleFile,
    (hreportStays (by decide) _ hreport _ (List.prefix_append _ ["index.html"])).trans hindex⟩

end Project

end TestBench
