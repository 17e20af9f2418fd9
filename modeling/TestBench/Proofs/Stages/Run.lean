import TestBench.Proofs.Stages.Calls
import TestBench.Proofs.Workspace.Lock

/-!
# What a run keeps to

A run validates, takes the lock, works, cleans up and gives the lock back. What the stages do is
left open, but that validation changes no files and that the others leave the lock file alone
(`Orderly`). Then a run keeps to a contract, whatever its stages fail with:

* `run_of_taken`: a run that takes the lock calls the stages in turn up to the first that fails,
  and then the cleaning, all with the lock file in place, and leaves its name free;
* `run_contract`: this and what a run does that does not get as far;
* `contract_after`: the contract holds in every run of a row of runs, and no run locks out the
  later ones.
-/

namespace TestBench

variable {σ α : Type}

/-- Whether an action leaves alone what a path leads to. -/
def LeavesAlone (p : Path) (a : Action σ α) : Prop :=
  ∀ w found, w.files.find p false = .ok found → (a.run w).2.files.find p false = .ok found

/-- How a run ends after its work, given how the work failed: what it still calls, and how it
    fails itself. A failure that the cleaning returns changes nothing; but if the program breaks
    down, that is how the run ends. -/
inductive Closing : Option Halt → List StageCall → Option Halt → Prop where
  | cleaned {failure : Option Halt} {c : StageCall} (hw : failure ≠ some .crash)
      (hs : c.stage = .cleanup) (hc : c.failure ≠ some .crash) : Closing failure [c] failure
  | brokenCleaning {failure : Option Halt} {c : StageCall} (hw : failure ≠ some .crash)
      (hs : c.stage = .cleanup) (hc : c.failure = some .crash) : Closing failure [c] (some .crash)
  | brokenDown : Closing (some .crash) [] (some .crash)

namespace Stages

variable {s : Stages σ} {w : World σ} {t t' : FileTree}

/-- Whether validation changes no files, and the other stages leave the lock file alone. -/
structure Orderly (s : Stages σ) : Prop where
  validate : ∀ w, (s.validate.run w).2.files = w.files
  prepare : LeavesAlone s.workspace.lockFile s.prepare
  generate : ∀ clone, LeavesAlone s.workspace.lockFile (s.generate clone)
  execute : ∀ testModule, LeavesAlone s.workspace.lockFile (s.execute testModule)
  report : ∀ testModule, LeavesAlone s.workspace.lockFile (s.report testModule)
  cleanup : LeavesAlone s.workspace.lockFile s.cleanup

/-- Whether a run is valid and takes the lock. -/
def Takes (s : Stages σ) (w : World σ) : Prop :=
  (s.validate.run w).1 = .ok () ∧
    ∃ t t', w.files.makeDirectories s.workspace.root = (.ok (), t) ∧
      t.createFile s.workspace.lockFile = .ok t'

/-- Whether a run works and cleans up: the stages are called in turn, up to and including the
    first that fails, and then the cleaning, all of them while the lock file is there. -/
structure CarriedOut (s : Stages σ) (w : World σ) : Prop where
  called : ∃ worked failure closing,
    s.called w = ⟨.validate, w.files, none⟩ :: (worked ++ closing) ∧
      InTurn [.prepare, .generate, .execute, .report] worked failure ∧
      Closing failure closing (failureOf (s.run.run w).1) ∧
      ∀ c ∈ worked ++ closing, ∃ found, c.files.find s.workspace.lockFile false = .ok found
  unlocked : (s.run.run w).2.files.find s.workspace.lockFile false = .error (.system .notFound)

/-- What a run does in a world. -/
structure Contract (s : Stages σ) (w : World σ) : Prop where
  /-- A run that is not valid changes nothing. -/
  invalid : ∀ halt, (s.validate.run w).1 = .error halt →
    (s.run.run w).1 = .error halt ∧ s.called w = [⟨.validate, w.files, some halt⟩] ∧
      (s.run.run w).2.files = w.files
  /-- A run that finds the lock file changes nothing. -/
  locked : ∀ found, (s.validate.run w).1 = .ok () →
    w.files.find s.workspace.lockFile false = .ok found →
    (s.run.run w).1 = .error (.failure (.locked s.workspace.lockFile)) ∧
      s.called w = [⟨.validate, w.files, none⟩] ∧ (s.run.run w).2.files = w.files
  /-- A run that cannot make its root fails with the fault. -/
  noRoot : ∀ fault t, (s.validate.run w).1 = .ok () →
    w.files.makeDirectories s.workspace.root = (.error fault, t) →
    (s.run.run w).1 = .error (.failure (.io fault)) ∧
      s.called w = [⟨.validate, w.files, none⟩] ∧ (s.run.run w).2.files = t
  /-- A run that cannot make the lock file fails with the fault. If making the root has put
      something in its place, the fault is that the workspace is locked. -/
  noFile : ∀ fault t, (s.validate.run w).1 = .ok () →
    w.files.makeDirectories s.workspace.root = (.ok (), t) →
    t.createFile s.workspace.lockFile = .error fault →
    (s.run.run w).1 = .error (.failure
        (if fault = .system .present then .locked s.workspace.lockFile else .io fault)) ∧
      s.called w = [⟨.validate, w.files, none⟩] ∧ (s.run.run w).2.files = t
  /-- A run that takes the lock is carried out. -/
  taken : s.Takes w → s.CarriedOut w

/-! ### The work and the cleaning -/

section
variable {found : Location × Entry}

/-- Whether the path of the lock file leads to the given entry. -/
def Locked (s : Stages σ) (found : Location × Entry) (t : FileTree) : Prop :=
  t.find s.workspace.lockFile false = .ok found

theorem reportOutput_notes {P : FileTree → Prop} (title text : String) :
    NotesInTurn P [] (reportOutput title text : Action (σ × List StageCall) Unit) := by
  rw [reportOutput]
  split
  · exact .pure ()
  · exact .report

/-- The work calls its stages in turn. -/
theorem work_notes (h : s.Orderly) :
    NotesInTurn (s.Locked found) [.prepare, .generate, .execute, .report] s.noted.work := by
  refine .bind .report fun _ => .bind (.noting .prepare fun w => h.prepare w found) fun c => ?_
  refine .bind .report fun _ => .bind (.noting .generate fun w => h.generate c w found) fun m => ?_
  refine .bind .report fun _ => .bind (.noting .execute fun w => h.execute m w found) fun _ => ?_
  refine .bind (reportOutput_notes _ _) fun _ => .bind (reportOutput_notes _ _) fun _ => ?_
  refine .bind .report fun _ => .bind (.noting .report fun w => h.report m w found) fun _ => ?_
  exact .pure _

/-- The cleaning calls its stage once, and what that fails with is only a failure of the cleaning
    if the program breaks down. -/
theorem cleanUp_notes (h : s.Orderly) (w : World (σ × List StageCall))
    (hw : s.Locked found w.files) :
    ∃ c, c.stage = .cleanup ∧ c.files = w.files ∧
      (s.noted.cleanUp.run w).2.tools.2 = w.tools.2 ++ [c] ∧
      s.Locked found (s.noted.cleanUp.run w).2.files ∧
      (c.failure ≠ some .crash ∧ (s.noted.cleanUp.run w).1 = .ok () ∨
        c.failure = some .crash ∧ (s.noted.cleanUp.run w).1 = .error .crash) := by
  refine ⟨⟨.cleanup, w.files, failureOf (s.cleanup.run w.withoutNotes).1⟩, rfl, rfl, ?_⟩
  have hkept := h.cleanup w.withoutNotes found hw
  have hrun : s.noted.cleanup.run w = _ := run_noting .cleanup s.cleanup w
  rw [cleanUp, Action.run_bind, Action.attempt, Action.run_ofFunction, hrun]
  generalize s.cleanup.run w.withoutNotes = done at hkept ⊢
  obtain ⟨(failure | _) | _, w'⟩ := done
  · exact ⟨rfl, hkept, .inl ⟨by simp, rfl⟩⟩
  · exact ⟨rfl, hkept, .inr ⟨rfl, rfl⟩⟩
  · exact ⟨rfl, hkept, .inl ⟨by simp, rfl⟩⟩

theorem run_workAndCleanUp_of_crash {w' : World σ} (h : s.work.run w = (.error .crash, w')) :
    s.workAndCleanUp.run w = (.error .crash, w') := by
  rw [workAndCleanUp, Action.run_bind, Action.attempt, Action.run_ofFunction, h]
  rfl

/-- Unless the program breaks down, the cleaning follows the work and keeps its result. -/
theorem run_workAndCleanUp {w' : World σ} {r : Except Halt Summary} (h : s.work.run w = (r, w'))
    (hr : failureOf r ≠ some .crash) :
    s.workAndCleanUp.run w = (s.cleanUp >>= fun _ => Action.ofResult r).run w' := by
  rw [workAndCleanUp, Action.run_bind, Action.attempt, Action.run_ofFunction, h]
  obtain (failure | _) | summary := r
  · rfl
  · exact absurd rfl hr
  · rfl

/-- The work and the cleaning call the stages in turn, up to and including the first that fails,
    and then the cleaning. -/
theorem workAndCleanUp_notes (h : s.Orderly) (w : World (σ × List StageCall))
    (hw : s.Locked found w.files) :
    s.Locked found (s.noted.workAndCleanUp.run w).2.files ∧ ∃ worked failure closing,
      (s.noted.workAndCleanUp.run w).2.tools.2 = w.tools.2 ++ (worked ++ closing) ∧
      InTurn [.prepare, .generate, .execute, .report] worked failure ∧
      Closing failure closing (failureOf (s.noted.workAndCleanUp.run w).1) ∧
      ∀ c ∈ worked ++ closing, s.Locked found c.files := by
  obtain ⟨hkept, worked, hnotes, hturn, hfound⟩ := work_notes h w hw
  cases hwork : s.noted.work.run w with
  | mk r w' =>
    rw [hwork] at hkept hnotes hturn
    by_cases hr : failureOf r = some .crash
    · -- After a breakdown nothing is called any more.
      obtain ⟨halt, rfl⟩ : ∃ halt, r = .error halt := by
        cases r with
        | ok x => cases hr
        | error halt => exact ⟨halt, rfl⟩
      rw [failureOf_error, Option.some.injEq] at hr
      rw [run_workAndCleanUp_of_crash (hr ▸ hwork)]
      exact ⟨hkept, worked, some .crash, [], by simpa using hnotes, hr ▸ hturn, .brokenDown,
        by simpa using hfound⟩
    · obtain ⟨c, hstage, hfiles, hnotes', hkept', hend⟩ := cleanUp_notes h w' hkept
      have hfound' : ∀ c' ∈ worked ++ [c], s.Locked found c'.files := by
        intro c' hc'
        rcases List.mem_append.1 hc' with hc' | hc'
        · exact hfound c' hc'
        · rw [List.mem_singleton.1 hc', hfiles]
          exact hkept
      rw [run_workAndCleanUp hwork hr, Action.run_bind]
      rw [hnotes, List.append_assoc] at hnotes'
      generalize s.noted.cleanUp.run w' = done at hnotes' hkept' hend ⊢
      obtain ⟨cleaned, w''⟩ := done
      rcases hend with ⟨hc, rfl⟩ | ⟨hc, rfl⟩
      · exact ⟨hkept', worked, failureOf r, [c], hnotes', hturn, .cleaned hr hstage hc, hfound'⟩
      · exact ⟨hkept', worked, failureOf r, [c], hnotes', hturn, .brokenCleaning hr hstage hc,
          hfound'⟩

end

/-! ### The contract -/

/-- A valid run takes the lock next. -/
theorem run_noted_of_valid (h : s.Orderly) (hv : (s.validate.run w).1 = .ok ()) :
    ∃ w' : World (σ × List StageCall),
      w'.files = w.files ∧ w'.tools.2 = [⟨.validate, w.files, none⟩] ∧
      s.noted.run.run (w.withNotes []) =
        (s.workspace.whileLocked s.noted.workAndCleanUp).run w' := by
  have hrun : s.noted.validate.run (w.withNotes []) = _ := run_noting .validate s.validate _
  have hw : (w.withNotes []).withoutNotes = w := rfl
  rw [hw, hv] at hrun
  refine ⟨(s.validate.run w).2.withNotes [⟨.validate, w.files, none⟩], h.validate w, rfl, ?_⟩
  rw [run, Action.run_bind, hrun]
  rfl

/-- A valid run that does not get the lock ends there. -/
theorem run_of_refused (h : s.Orderly) (hv : (s.validate.run w).1 = .ok ()) {halt : Halt}
    (hl : ∀ w' : World (σ × List StageCall), w'.files = w.files → ∃ requests,
      (s.workspace.lock : Action _ Unit).run w' =
        (.error halt, { w' with files := t, requests })) :
    (s.run.run w).1 = .error halt ∧ s.called w = [⟨.validate, w.files, none⟩] ∧
      (s.run.run w).2.files = t := by
  obtain ⟨w', hfiles, hnotes, hrun⟩ := run_noted_of_valid h hv
  obtain ⟨requests, hlock⟩ := hl w' hfiles
  rw [Workspace.whileLocked, Action.run_bind, hlock] at hrun
  rw [run_eq, called, hrun]
  exact ⟨rfl, hnotes, rfl⟩

/-- A run that takes the lock is carried out, and afterwards the name of the lock file is free. -/
theorem run_of_taken (h : s.Orderly) (ht : s.Takes w) :
    s.CarriedOut w ∧ ∃ d name,
      (s.run.run w).2.files.resolve s.workspace.lockFile false = .ok (.vacant d name) := by
  obtain ⟨hv, t, t', hroot, hlock⟩ := ht
  obtain ⟨w', hfiles, hnotes, hrun⟩ := run_noted_of_valid h hv
  rw [← hfiles] at hroot
  obtain ⟨events, t'', requests, d, name, hdone, hfree⟩ := Workspace.run_whileLocked hroot hlock
    fun found world' hw => (workAndCleanUp_notes h world' hw).1
  obtain ⟨l, hfound⟩ := FileTree.find_of_createFile hlock
  obtain ⟨_, worked, failure, closing, hcalled, hturn, hclosing, hcalls⟩ :=
    workAndCleanUp_notes h { w' with
      files := t'
      events := events
      requests := w'.requests ++ s.workspace.lockRequests w'.files t } hfound
  -- What is done under the lock is known by its calls, and what follows it calls nothing.
  dsimp only at hdone
  generalize s.noted.workAndCleanUp.run _ = done at hdone hcalled hclosing
  rw [hdone] at hrun
  have hresult : (s.run.run w).1 = done.1 := by rw [run_eq, hrun]
  have hleft : (s.run.run w).2.files = t'' := by rw [run_eq, hrun]; rfl
  refine ⟨⟨⟨worked, failure, closing, ?_, hturn, hresult ▸ hclosing,
    fun c hc => ⟨_, hcalls c hc⟩⟩, ?_⟩, d, name, ?_⟩
  · rw [called, hrun]
    dsimp only at hcalled ⊢
    rw [hcalled, hnotes]
    rfl
  · rw [hleft]
    exact FileTree.find_of_vacant hfree
  · rw [hleft, hfree]

/-- Every run keeps to the contract. -/
theorem run_contract (h : s.Orderly) (w : World σ) : s.Contract w where
  invalid halt hv := by
    have hrun : s.run.run w = (.error halt, (s.validate.run w).2) := run_of_invalid (by rw [← hv])
    have hnoted : s.noted.validate.run (w.withNotes []) = _ := run_noting .validate s.validate _
    have hw : (w.withNotes []).withoutNotes = w := rfl
    rw [hw, hv] at hnoted
    rw [hrun, called, run_of_invalid hnoted]
    exact ⟨rfl, rfl, h.validate w⟩
  locked found hv hf := by
    refine run_of_refused h hv fun w' hw' => ?_
    rw [← hw'] at hf ⊢
    exact ⟨_, Workspace.run_lock_of_find hf⟩
  noRoot fault t hv hr := by
    refine run_of_refused h hv fun w' hw' => ?_
    rw [← hw'] at hr
    exact ⟨_, Workspace.run_lock_of_noRoot hr⟩
  noFile fault t hv hr hl := by
    refine run_of_refused h hv fun w' hw' => ?_
    rw [← hw'] at hr
    exact ⟨_, Workspace.run_lock_of_noFile hr hl⟩
  taken ht := (run_of_taken h ht).1

/-! ### Runs in a row -/

/-- The world after a number of runs in a row. -/
def after (s : Stages σ) (w : World σ) : Nat → World σ
  | 0 => w
  | n + 1 => (s.run.run (s.after w n)).2

/-- Where the name of the lock file is free, a valid run takes the lock. -/
theorem takes_of_vacant {d : Location} {name : String}
    (hf : w.files.resolve s.workspace.lockFile false = .ok (.vacant d name))
    (hv : (s.validate.run w).1 = .ok ()) : s.Takes w :=
  ⟨hv, _, _, Workspace.makeDirectories_root hf, FileTree.createFile_of_vacant hf⟩

/-- Where the name of the lock file is free, a run leaves it free. -/
theorem vacant_run (h : s.Orderly) {d : Location} {name : String}
    (hf : w.files.resolve s.workspace.lockFile false = .ok (.vacant d name)) :
    ∃ d name,
      (s.run.run w).2.files.resolve s.workspace.lockFile false = .ok (.vacant d name) := by
  cases hv : (s.validate.run w).1 with
  | ok x => exact (run_of_taken h (takes_of_vacant hf hv)).2
  | error halt =>
    rw [((run_contract h w).invalid halt hv).2.2]
    exact ⟨d, name, hf⟩

/-- After a run that took the lock, the name of the lock file is free. -/
theorem vacant_after (h : s.Orderly) {n m : Nat} (ht : s.Takes (s.after w n)) (hm : n < m) :
    ∃ d name,
      (s.after w m).files.resolve s.workspace.lockFile false = .ok (.vacant d name) := by
  induction m, hm using Nat.le_induction with
  | base => exact (run_of_taken h ht).2
  | succ m _ ih =>
    obtain ⟨d, name, hfree⟩ := ih
    exact vacant_run h hfree

/-! ### Stages that do nothing but fail -/

/-- Stages that do nothing, but fail where a failure is given. -/
def failing (root : Path) (failure : Stage → Option Failure) : Stages Unit where
  workspace := ⟨root, "repo", "report"⟩
  validate := Action.ofExcept ((failure .validate).elim (.ok ()) .error)
  prepare := Action.ofExcept ((failure .prepare).elim (.ok (root.join "repo")) .error)
  generate _ := Action.ofExcept ((failure .generate).elim (.ok ⟨"test_x.py", "", "x.c"⟩) .error)
  execute _ := Action.ofExcept ((failure .execute).elim (.ok ⟨0, "", ""⟩) .error)
  report _ := Action.ofExcept ((failure .report).elim (.ok (root.join "report/index.html")) .error)
  cleanup := Action.ofExcept ((failure .cleanup).elim (.ok ()) .error)

theorem files_ofExcept (r : Except Failure α) (w : World σ) :
    ((Action.ofExcept r).run w).2.files = w.files := by
  cases r <;> rfl

theorem failing_orderly (root : Path) (failure : Stage → Option Failure) :
    (failing root failure).Orderly where
  validate := files_ofExcept _
  prepare w found h := by rwa [failing, files_ofExcept]
  generate _ w found h := by rwa [failing, files_ofExcept]
  execute _ w found h := by rwa [failing, files_ofExcept]
  report _ w found h := by rwa [failing, files_ofExcept]
  cleanup w found h := by rwa [failing, files_ofExcept]

/-- Stages of which the tests and the cleaning fail. -/
def failingTests : Stages Unit :=
  failing ⟨"ws"⟩ fun
    | .execute => some (.toolFailed "execute" 9 "" "")
    | .cleanup => some (.toolFailed "cleanup" 9 "" "")
    | _ => none

/-- A world with an empty workspace. -/
def emptyWorkspace : World Unit := ⟨⟨[(["ws"], .directory)], []⟩, [], (), []⟩

/-- A root that is the directory where paths start, but by way of the name of the lock file. -/
def roundaboutRoot : Path := ⟨".cscaffold.lock/.."⟩

/-- Stages that do nothing, with such a root. -/
def roundabout : Stages Unit :=
  failing roundaboutRoot fun _ => none

/-- A world with nothing in it. -/
def emptyWorld : World Unit := ⟨FileTree.empty, [], (), []⟩

/-- On the way to the root, a directory is made that has the name of the lock file. -/
theorem makeDirectories_roundaboutRoot :
    FileTree.empty.makeDirectories roundaboutRoot =
      (.ok (), ⟨[([".cscaffold.lock"], .directory)], []⟩) := by
  have hname : FileTree.IsEntryName ".cscaffold.lock" := by decide
  have hmissing : FileTree.empty.makeDirectory roundaboutRoot = .error (.system .notFound) := by
    have htext : FileTree.withoutTrailingSlashes ".cscaffold.lock/.." = ".cscaffold.lock/.." := by
      decide
    have hsteps : FileTree.steps ".cscaffold.lock/.." = [".cscaffold.lock", ".."] := by decide
    rw [FileTree.makeDirectory, roundaboutRoot, htext,
      FileTree.resolve_of_isPathText (by decide), hsteps,
      FileTree.walk_of_missing hname rfl (by decide)]
    rfl
  have hparent : roundaboutRoot.parent? = some ⟨".cscaffold.lock"⟩ := by decide +kernel
  have hmade : FileTree.empty.makeDirectory ⟨".cscaffold.lock"⟩ =
      .ok ⟨[([".cscaffold.lock"], .directory)], []⟩ := by
    have htext : FileTree.withoutTrailingSlashes ".cscaffold.lock" = ".cscaffold.lock" := by decide
    have hfree : FileTree.empty.resolve ⟨".cscaffold.lock"⟩ false =
        .ok (.vacant [] ".cscaffold.lock") :=
      FileTree.resolve_eq_ok_iff.2 ⟨by decide, .free hname rfl⟩
    rw [FileTree.makeDirectory, htext, hfree]
    rfl
  have hfound : FileTree.ensureDirectory ⟨[([".cscaffold.lock"], .directory)], []⟩ roundaboutRoot =
      (.ok (), ⟨[([".cscaffold.lock"], .directory)], []⟩) :=
    FileTree.ensureDirectory_of_leads (by decide) (.pass (.down hname rfl) (.pass .up .here))
  have hlength : roundaboutRoot.text.length = 18 := by decide
  -- The root cannot be made before its parent, and is there once the parent is made.
  rw [FileTree.makeDirectories, hlength, FileTree.makeDirectoriesWithin, hmissing, hparent]
  dsimp only
  rw [FileTree.makeDirectoriesWithin, hmade, FileTree.ensureDirectory, hmade]
  exact hfound

/-- In every run of a row, the contract holds, and a run that takes the lock does not lock out the
    later ones: those that are valid take the lock as well. -/
theorem contract_after (s : Stages σ) (h : s.Orderly) (w : World σ) (n : Nat) :
    s.Contract (s.after w n) ∧
      (s.Takes (s.after w n) → ∀ m, n < m → (s.validate.run (s.after w m)).1 = .ok () →
        s.Takes (s.after w m)) := by
  refine ⟨run_contract h _, fun ht m hm hv => ?_⟩
  obtain ⟨d, name, hfree⟩ := vacant_after h ht hm
  exact takes_of_vacant hfree hv

/-- A run whose tests and whose cleaning fail takes the lock, is carried out, and does not keep
    the next run from taking the lock. -/
theorem failing_takes_again :
    failingTests.Orderly ∧ failingTests.Takes emptyWorkspace ∧
      failingTests.CarriedOut emptyWorkspace ∧
      failingTests.Takes (failingTests.after emptyWorkspace 1) := by
  have horderly : failingTests.Orderly := failing_orderly _ _
  have hfree : emptyWorkspace.files.resolve failingTests.workspace.lockFile false =
      .ok (.vacant ["ws"] ".cscaffold.lock") := by
    have hsteps : FileTree.steps failingTests.workspace.lockFile.text =
        ["ws", ".cscaffold.lock"] := by decide
    have horigin : ∀ base, FileTree.origin failingTests.workspace.lockFile.text base = base :=
      fun _ => if_neg (by decide)
    have hws : FileTree.IsEntryName "ws" := by decide
    have hlock : FileTree.IsEntryName ".cscaffold.lock" := by decide
    refine FileTree.resolve_eq_ok_iff.2 ⟨by decide, ?_⟩
    rw [hsteps, horigin]
    exact .pass (.down hws rfl) (.free hlock rfl)
  have htakes : failingTests.Takes emptyWorkspace := takes_of_vacant hfree rfl
  obtain ⟨hcontract, hagain⟩ := contract_after failingTests horderly emptyWorkspace 0
  exact ⟨horderly, htakes, hcontract.taken htakes, hagain htakes 1 (by decide) rfl⟩

/-- Where the way to the root goes by the name of the lock file, the lock file is not there at
    first, but the run finds its place taken after making the root, and leaves what it made. -/
theorem locked_by_roundaboutRoot :
    roundabout.Orderly ∧ (roundabout.validate.run emptyWorld).1 = .ok () ∧
      emptyWorld.files.find roundabout.workspace.lockFile false = .error (.system .notFound) ∧
      (roundabout.run.run emptyWorld).1 =
        .error (.failure (.locked roundabout.workspace.lockFile)) ∧
      (roundabout.run.run emptyWorld).2.files ≠ emptyWorld.files := by
  have horderly : roundabout.Orderly := failing_orderly _ _
  have hname : FileTree.IsEntryName ".cscaffold.lock" := by decide
  have hsteps : FileTree.steps roundabout.workspace.lockFile.text =
      [".cscaffold.lock", "..", ".cscaffold.lock"] := by decide
  have horigin : ∀ base, FileTree.origin roundabout.workspace.lockFile.text base = base :=
    fun _ => if_neg (by decide)
  have habsent : emptyWorld.files.find roundabout.workspace.lockFile false =
      .error (.system .notFound) := by
    have hwalk : emptyWorld.files.walk false FileTree.maxLinks emptyWorld.files.here
        [".cscaffold.lock", "..", ".cscaffold.lock"] = .error .notFound :=
      FileTree.walk_of_missing hname rfl (by simp)
    rw [FileTree.find, FileTree.resolve_of_isPathText (by decide), hsteps, horigin, hwalk]
    rfl
  have htaken : FileTree.find ⟨[([".cscaffold.lock"], .directory)], []⟩
      roundabout.workspace.lockFile false = .ok ([".cscaffold.lock"], .directory) := by
    refine FileTree.find_eq_ok_iff.2 (FileTree.resolve_eq_ok_iff.2 ⟨by decide, ?_⟩)
    rw [hsteps, horigin]
    exact .pass (.down hname rfl) (.pass .up (.pass (.down hname rfl) .here))
  obtain ⟨hresult, _, hleft⟩ := (run_contract horderly emptyWorld).noFile _ _ rfl
    makeDirectories_roundaboutRoot (FileTree.createFile_of_find htaken)
  refine ⟨horderly, rfl, habsent, ?_, ?_⟩
  · rw [hresult, if_pos rfl]
  · rw [hleft]
    decide

end Stages

end TestBench
