import TestBench.Proofs.Project.Handover
import TestBench.Proofs.Project.Keeping
import TestBench.Proofs.Stages.Sharing

/-!
# Projects that share a workspace

Runs of projects that share a workspace keep out of each other's way: whichever of them takes its
next step, the lock file is there if and only if one run is between taking the lock and giving it
back, and no other run changes a file meanwhile. This takes tools that leave the lock file alone,
and a workspace that is open at first, so that its root does not depend on the clone that is
removed.

* `one_at_a_time`: no two runs ever have the lock, and the lock file is there while one has it.
-/

namespace TestBench.Project

variable {ι σ : Type} [DecidableEq ι] {w : Workspace} {s : Settings} {runner : Runner σ}

/-- The stages of a project leave the lock file alone if the tools do. -/
theorem minds_stages (hn : Path.IsName w.cloneName) (hrunner : runner.Keeps w.Held) :
    (stages s w runner).Minds w where
  workspace := rfl
  validate := OnlyReads.ofExcept _
  stages := by
    refine allKeep_stages (fun world h => ?_) (fun _ h => h.makeDirectories _)
      (fun _ _ _ _ _ h hw => h.writeFile hw) hrunner
    obtain ⟨hcleans, hproper⟩ := Workspace.keeps_cleans hn world.files world ⟨.refl w _, h.proper⟩
    exact h.of_cleans hproper hcleans

/-- Of runs that share a workspace, at most one has the lock at any time, and the lock file is there
    if and only if one has. Meanwhile, the steps of the others change no file and do not get them
    the lock, and of the steps of the one that has it, the cleaning included, all leave the lock
    file in place but the one that gives it back. -/
theorem one_at_a_time {accepted : String}
    (haccepted : Check.directoryName "repo_dir" accepted = .ok ())
    (hname : w.cloneName = .ofText accepted) (settings : ι → Settings) (runners : ι → Runner σ)
    (htools : ∀ i, (runners i).Keeps w.Held)
    {start : World σ} (hstart : w.Open start.files) {st : Shared ι σ}
    (hst : Shared.Reaches (fun i => stages (settings i) w (runners i)) start st) :
    let step := Shared.step fun i => stages (settings i) w (runners i)
    let locked := fun t : FileTree => ∃ l content executable,
      t.find w.lockFile false = .ok (l, .file content executable)
    (locked st.world.files ↔ ∃! i, (st.phase i).HasLock) ∧
    (∀ i j, (st.phase i).HasLock → (st.phase j).HasLock → i = j) ∧
    (∀ i, (st.phase i).HasLock → ∀ j, j ≠ i →
      (step st j).world.files = st.world.files ∧ ¬((step st j).phase j).HasLock) ∧
    ∀ i, (st.phase i).HasLock → (∀ result, st.phase i ≠ .cleaned result) →
      ((step st i).phase i).HasLock ∧ locked (step st i).world.files := by
  intro step locked
  have hclone : Path.IsName w.cloneName := hname ▸ Check.isName_of_directoryName haccepted
  have hminds := fun i => minds_stages (s := settings i) hclone (htools i)
  have hexclusive := Shared.exclusive_of_reaches hminds hstart hst
  refine ⟨hexclusive.find_iff, fun i j => hexclusive.eq, fun i hi j hj => ?_, fun i hi hne => ?_⟩
  · -- Another run does not have the lock.
    have hother : ¬(st.phase j).HasLock := fun h => hj (hexclusive.eq h hi)
    obtain ⟨hfiles, hnext⟩ := Stages.advance_of_held (m := st.moment j) (hminds j)
      (hexclusive.held hi) hother
    exact ⟨hfiles, by rwa [Shared.phase_step_self]⟩
  · have hnext : ((step st i).phase i).HasLock := by
      rw [Shared.phase_step_self]
      exact Stages.hasLock_advance hi hne
    exact ⟨hnext, ((hexclusive.after_step hminds i).held hnext).find⟩

theorem smallTools_keeps_held : smallTools.Keeps smallOptions.workspace.Held := by
  refine smallTools_keeps fun program q hq t ht => ?_
  obtain ⟨hnames, hlock, hne⟩ := smallFiles_names program q hq
  exact ht.insert rfl (proper_insert_smallEntry ht.proper hnames q.2) hlock hne

theorem open_smallWorld : smallOptions.workspace.Open smallWorld.files :=
  Workspace.open_of_free proper_smallWorld (Workspace.stands_here rfl _) (by decide +kernel)

/-- Two runs of the small project, of which one takes the lock and prepares, and the other one
    comes too late. -/
def contest : Shared Bool Unit :=
  [true, true, false, false, true].foldl
    (Shared.step fun _ => stages smallOptions.settings smallOptions.workspace smallTools)
    ⟨fun _ => .started, smallWorld⟩

/-- The one that has the lock is the only one, and the lock file is there. -/
theorem one_at_a_time_contest :
    Check.directoryName "repo_dir" "cloned_repo" = .ok () ∧
      smallOptions.workspace.cloneName = .ofText "cloned_repo" ∧
      smallTools.Keeps smallOptions.workspace.Held ∧
      smallOptions.workspace.Open smallWorld.files ∧
      contest.phase true = .prepared smallOptions.workspace.clone ∧
      contest.phase false =
        .done (.error (.failure (.locked smallOptions.workspace.lockFile))) ∧
      ∃ l content executable, contest.world.files.find smallOptions.workspace.lockFile false =
        .ok (l, .file content executable) := by
  have haccepted : Check.directoryName "repo_dir" "cloned_repo" = .ok () := by
    decide +kernel
  have hfirst : contest.phase true = .prepared smallOptions.workspace.clone := by decide +kernel
  have hsecond : contest.phase false =
      .done (.error (.failure (.locked smallOptions.workspace.lockFile))) := by decide +kernel
  have hreaches : Shared.Reaches (fun _ : Bool =>
      stages smallOptions.settings smallOptions.workspace smallTools) smallWorld contest :=
    Shared.reaches_foldl _ smallWorld _
  obtain ⟨hfind, -⟩ := one_at_a_time haccepted rfl (fun _ : Bool => smallOptions.settings)
    (fun _ => smallTools) (fun _ => smallTools_keeps_held) open_smallWorld hreaches
  have hlock : (contest.phase true).HasLock := by
    rw [hfirst]
    trivial
  have hother : ¬(contest.phase false).HasLock := by
    rw [hsecond]
    exact id
  refine ⟨haccepted, rfl, smallTools_keeps_held, open_smallWorld, hfirst, hsecond,
    hfind.2 ⟨true, hlock, fun i hi => ?_⟩⟩
  cases i with
  | true => rfl
  | false => exact absurd hi hother

end TestBench.Project
