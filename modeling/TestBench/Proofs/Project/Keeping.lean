import TestBench.Proofs.Project.Generation
import TestBench.Proofs.Stages.Phase
import TestBench.Proofs.Workspace.Cleaning

/-!
# What the stages of a project keep

The stages of a project change files in four ways only: they clean, they make the root of the
workspace, they write the test module, and they call tools. Everything else in them reads. So they
keep whatever these four keep.

* `allKeep_stages`: what the stages keep;
* `proper_of_passes`: a run with tools that keep trees proper keeps them proper;
* `exists_cleans_closed`: the end of a run cleans, and removes the lock file.
-/

namespace TestBench

variable {σ : Type} {P : FileTree → Prop} {s : Settings} {w : Workspace} {runner : Runner σ}

namespace Project

/-! ### The stages -/

theorem keeps_prepare (hclean : Keeps P (w.clean : Action σ Unit))
    (hroot : ∀ t, P t → P (t.makeDirectories w.root).2) (hrunner : runner.Keeps P) :
    Keeps P (prepare s w runner) := by
  refine .bind hclean fun _ => .bind (.request hroot) fun _ => ?_
  refine .bind OnlyReads.report.keeps fun _ => .bind (.call hrunner _) fun output => ?_
  exact .bind (OnlyReads.ofExcept _).keeps fun _ => (OnlyReads.pure _).keeps

theorem keeps_generate
    (hwrite : ∀ t t' name content, IsModuleName (.ofText name) → P t →
      t.writeFile (w.modulePath name) content = .ok t' → P t') (clone : Path) :
    Keeps P (generate s w clone : Action σ TestModule) := by
  rw [generate_eq]
  refine .bind_of_yields (reads_composing s clone).onlyReads.keeps (yields_composing clone)
    fun made hmade => ?_
  refine .bind (.writeFile fun t t' => hwrite t t' _ _ hmade) fun _ => ?_
  exact .bind OnlyReads.report.keeps fun _ => (OnlyReads.pure _).keeps

theorem keeps_execute (hrunner : runner.Keeps P) (m : TestModule) :
    Keeps P (execute s w runner m) := by
  refine .bind (reads_headerDirectory (Q := fun _ => False) s w).onlyReads.keeps fun _ => ?_
  refine .bind OnlyReads.report.keeps fun _ => ?_
  exact .bind (.call hrunner _) fun output => (OnlyReads.ofExcept _).keeps

theorem keeps_report (hrunner : runner.Keeps P) (artifact : String) :
    Keeps P (Coverage.report runner w artifact) := by
  have hsteps : ∀ commands, Keeps P (Coverage.runSteps runner commands) := by
    intro commands
    induction commands with
    | nil => exact (OnlyReads.pure ()).keeps
    | cons command commands ih =>
      refine .bind OnlyReads.report.keeps fun _ => .bind (.call hrunner _) fun output => ?_
      refine .bind (OnlyReads.ofExcept _).keeps fun output => ?_
      split
      · exact .bind OnlyReads.report.keeps fun _ => ih
      · exact ih
  exact .bind (hsteps _) fun _ => (OnlyReads.pure _).keeps

/-- The stages of a project keep what cleaning, making the root, writing the test module and the
    tools keep. -/
theorem allKeep_stages (hclean : Keeps P (w.clean : Action σ Unit))
    (hroot : ∀ t, P t → P (t.makeDirectories w.root).2)
    (hwrite : ∀ t t' name content, IsModuleName (.ofText name) → P t →
      t.writeFile (w.modulePath name) content = .ok t' → P t')
    (hrunner : runner.Keeps P) : (stages s w runner).AllKeep P where
  prepare := keeps_prepare hclean hroot hrunner
  generate := keeps_generate hwrite
  execute := keeps_execute hrunner
  report _ := keeps_report hrunner _
  cleanup := hclean

/-- With tools that keep trees proper, a run keeps them proper. -/
theorem proper_of_passes (hn : Path.IsName w.cloneName) (hrunner : runner.Keeps FileTree.Proper)
    {world : World σ} (hw : world.files.Proper) {m : Moment σ}
    (hm : (stages s w runner).Passes world m) : m.world.files.Proper := by
  have hclean : Keeps FileTree.Proper (w.clean : Action σ Unit) := fun world hw =>
    (Workspace.keeps_cleans hn world.files world ⟨.refl w _, hw⟩).2
  have hstages : (stages s w runner).AllKeep FileTree.Proper :=
    allKeep_stages hclean (fun _ ht => ht.makeDirectories _) (fun _ _ _ _ _ ht h => ht.writeFile h)
      hrunner
  exact Stages.keeps_of_passes hstages (OnlyReads.ofExcept _).keeps
    (Workspace.keeps_lock (fun _ ht => ht.makeDirectories _) fun _ _ ht h => ht.createFile h)
    (Workspace.keeps_unlock fun _ _ ht h => ht.removeFile h) hw hm

/-- The end of a run removes nothing but what cleaning may remove, and then the lock file. -/
theorem exists_cleans_closed (s : Settings) (runner : Runner σ) (hn : Path.IsName w.cloneName)
    (result : Except Halt Summary) {left : World σ} (ht : left.files.Proper) :
    ∃ t, w.Cleans left.files t ∧ ((stages s w runner).closed (result, left)).2.files =
      (t.removeFile w.lockFile).toOption.getD t := by
  by_cases hcrash : result = .error .crash
  · exact ⟨left.files, .refl w _, by rw [hcrash]; exact Stages.files_unlocked _ _ left⟩
  · obtain ⟨r, hclosed⟩ := (stages s w runner).closed_of_ne_crash hcrash left
    have hkept := Stages.keeps_cleanUp (s := stages s w runner)
      (Workspace.keeps_cleans hn left.files) left ⟨.refl w _, ht⟩
    exact ⟨_, hkept.1, by rw [hclosed]; exact Stages.files_unlocked _ _ _⟩

/-! ### A small project -/

/-- The least that options have to give, and a template. -/
def smallOptions : Options :=
  { Options.none with
    repository := some "git@github.com:org/repo"
    implementation := some "math.c"
    header := some "math.h"
    template := some ⟨"t.py"⟩ }

/-- The entry that a text is, or a directory. -/
def smallEntry : Option String → Entry
  | some text => .file (Utf8.encode text) false
  | none => .directory

/-- What a tool makes for a small project: files with their texts, and directories. -/
def smallFiles (program : String) : List (Location × Option String) :=
  if program = "git" then
    [(["cloned_repo"], none), (["cloned_repo", "math.h"], some "int f(void);\n"),
      (["cloned_repo", "math.c"], some "int f(void) { return 1; }\n")]
  else if program = "lcov" then [(["coverage.info"], some "")]
  else if program = "genhtml" then
    [(["coverage_report"], none), (["coverage_report", "index.html"], some "")]
  else []

/-- Tools that make what they make for a small project, and do nothing else. -/
def smallTools : Runner Unit := fun command world =>
  (.ok ⟨0, "", ""⟩, { world with
    files := (smallFiles command.program).foldl (fun t q => t.insert q.1 (smallEntry q.2))
      world.files })

/-- The stages of a small project. -/
def smallStages : Stages Unit :=
  stages smallOptions.settings smallOptions.workspace smallTools

theorem smallStages_eq :
    stages smallOptions.settings smallOptions.workspace smallTools = smallStages :=
  rfl

/-- What a run of a small project leaves. -/
def smallSummary : Summary :=
  ⟨⟨"./test_math.py"⟩, ⟨"./coverage_report/index.html"⟩⟩

/-- A world with nothing in it but the template. -/
def smallWorld : World Unit :=
  ⟨FileTree.empty.insert ["t.py"]
    (smallEntry (some "__HEADER_DEFINITIONS__\n__FUNCTIONS_IMPLEMENTATION__\n")), [], (), []⟩

theorem proper_insert_smallEntry {t : FileTree} (ht : t.Proper) {l : Location}
    (hl : ∀ name ∈ l, FileTree.IsProperName name) (text : Option String) :
    (t.insert l (smallEntry text)).Proper := by
  refine ht.insert hl fun target htarget => ?_
  cases text <;> cases htarget

/-- Such tools keep what making each of their files keeps. -/
theorem smallTools_keeps (h : ∀ program, ∀ q ∈ smallFiles program, ∀ t,
    P t → P (t.insert q.1 (smallEntry q.2))) : smallTools.Keeps P := by
  intro command world hw
  exact List.foldlRecOn _ _ hw fun t ht q hq => h command.program q hq t ht

/-- The places of the files have proper names, and none is that of the lock file. -/
theorem smallFiles_names (program : String) : ∀ q ∈ smallFiles program,
    (∀ name ∈ q.1, FileTree.IsProperName name) ∧ Workspace.lockName ∉ q.1 ∧ q.1 ≠ [] := by
  rw [smallFiles]
  split
  · decide
  split
  · decide
  split
  · decide
  · simp

theorem smallTools_keeps_proper : smallTools.Keeps FileTree.Proper :=
  smallTools_keeps fun program q hq _ ht =>
    proper_insert_smallEntry ht (smallFiles_names program q hq).1 q.2

theorem proper_empty : FileTree.empty.Proper :=
  ⟨by simp [FileTree.empty], by simp [FileTree.empty], List.nodup_nil, by simp [FileTree.empty]⟩

theorem proper_smallWorld : smallWorld.files.Proper :=
  proper_insert_smallEntry proper_empty (by decide) _

/-- What the work of a small project leaves. -/
def smallLeft : World Unit :=
  (smallStages.moment smallWorld 6).world

/-- The run of a small project passes through a moment when its work has ended. -/
theorem small_worked :
    smallStages.Passes smallWorld ⟨.worked (.ok smallSummary), smallLeft⟩ := by
  have hphase : (smallStages.moment smallWorld 6).phase = .worked (.ok smallSummary) := by
    decide +kernel
  exact ⟨6, by rw [← hphase, smallLeft]⟩

end Project

end TestBench
