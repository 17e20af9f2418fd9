import TestBench.Proofs.Workspace.Lock
import TestBench.Stages

/-!
# A run step by step

A run takes steps: it validates, takes the lock, calls its four stages, cleans up and gives the lock
back. A *phase* says which of them are behind a run and what they gave, and a *moment* is a phase
with the world it is in. What is left of a run in a phase is an action (`rest`), and each step does
the start of it (`rest_advance`). So the moments that a run passes through, and what it does in the
end, are told from the same steps.

* `run_of_passes`: from each moment that a run passes through, what is left of it is what it does;
* `moment_eight`: after eight steps a run is done;
* `keeps_of_passes`: what all steps keep is found at all moments.
-/

namespace TestBench

variable {σ α β : Type}

/-- What a run has behind it. A stage that fails ends the work, and when the work has ended, the
    result of the run is known unless the program breaks down over the cleaning. -/
inductive Phase where
  | started
  | validated
  | locked
  | prepared (clone : Path)
  | generated (testModule : TestModule)
  | executed (testModule : TestModule)
  | worked (result : Except Halt Summary)
  | cleaned (result : Except Halt Summary)
  | done (result : Except Halt Summary)
deriving DecidableEq

namespace Phase

/-- Whether a run in a phase has the lock. -/
def HasLock : Phase → Prop
  | started | validated | done _ => False
  | locked | prepared _ | generated _ | executed _ | worked _ | cleaned _ => True

/-- The number of steps that a run has behind it, if none was left out. -/
def rank : Phase → Nat
  | started => 0
  | validated => 1
  | locked => 2
  | prepared _ => 3
  | generated _ => 4
  | executed _ => 5
  | worked _ => 6
  | cleaned _ => 7
  | done _ => 8

/-- The result of a run in a phase, as soon as its work has ended. -/
def result? : Phase → Option (Except Halt Summary)
  | worked result | cleaned result | done result => some result
  | _ => none

theorem exists_done_of_rank {phase : Phase} (h : 8 ≤ phase.rank) :
    ∃ result, phase = .done result := by
  cases phase <;> simp_all [rank]

end Phase

/-- A phase of a run, and the world at that time. -/
structure Moment (σ : Type) where
  phase : Phase
  world : World σ

/-- The moment after an action: one phase follows its value, and another one its failure. -/
def Moment.after (a : Action σ α) (next : α → Phase) (failed : Except Halt Summary → Phase)
    (w : World σ) : Moment σ :=
  match a.run w with
  | (.ok x, w) => ⟨next x, w⟩
  | (.error halt, w) => ⟨failed (.error halt), w⟩

@[simp]
theorem Moment.world_after (a : Action σ α) (next : α → Phase)
    (failed : Except Halt Summary → Phase) (w : World σ) :
    (Moment.after a next failed w).world = (a.run w).2 := by
  rw [after]
  generalize a.run w = taken
  obtain ⟨_ | _, w'⟩ := taken <;> rfl

theorem Moment.phase_after_of_ok {a : Action σ α} {w : World σ} {x : α} (h : (a.run w).1 = .ok x)
    (next : α → Phase) (failed : Except Halt Summary → Phase) :
    (Moment.after a next failed w).phase = next x := by
  rw [after]
  generalize a.run w = taken at h ⊢
  obtain ⟨_, w'⟩ := taken
  obtain rfl := h
  rfl

theorem Moment.phase_after_of_error {a : Action σ α} {w : World σ} {halt : Halt}
    (h : (a.run w).1 = .error halt) (next : α → Phase) (failed : Except Halt Summary → Phase) :
    (Moment.after a next failed w).phase = failed (.error halt) := by
  rw [after]
  generalize a.run w = taken at h ⊢
  obtain ⟨_, w'⟩ := taken
  obtain rfl := h
  rfl

/-- What holds in both phases that an action may lead to. -/
theorem Moment.phase_after {Q : Phase → Prop} {a : Action σ α} {next : α → Phase}
    {failed : Except Halt Summary → Phase} {w : World σ}
    (hnext : ∀ x, (a.run w).1 = .ok x → Q (next x)) (hfailed : ∀ halt, Q (failed (.error halt))) :
    Q (Moment.after a next failed w).phase := by
  cases h : (a.run w).1 with
  | ok x =>
    rw [phase_after_of_ok h]
    exact hnext x h
  | error halt =>
    rw [phase_after_of_error h]
    exact hfailed halt

namespace Stages

variable {s : Stages σ} {m m' : Moment σ} {w : World σ} {P : FileTree → Prop} {summary : Summary}

/-! ### The steps -/

/-- Prepares the workspace, and reports it. -/
def preparing (s : Stages σ) : Action σ Path := do
  Action.report .info .engine "Preparing workspace..."
  s.prepare

/-- Generates the test module, and reports it. -/
def generating (s : Stages σ) (clone : Path) : Action σ TestModule := do
  Action.report .info .engine "Generating test module..."
  s.generate clone

/-- Executes the test module, and reports it and what the tests wrote. -/
def executing (s : Stages σ) (testModule : TestModule) : Action σ Unit := do
  Action.report .info .engine "Running generated tests..."
  let output ← s.execute testModule
  reportOutput "Test output" output.stdout
  reportOutput "Test diagnostics" output.stderr

/-- Makes the report, and gives what the run leaves. -/
def reporting (s : Stages σ) (testModule : TestModule) : Action σ Summary := do
  Action.report .info .engine "Collecting coverage..."
  let reportIndex ← s.report testModule
  return ⟨s.workspace.modulePath testModule.fileName, reportIndex⟩

/-- The work is made of these four. -/
theorem work_eq (s : Stages σ) :
    s.work = s.preparing >>= fun clone => s.generating clone >>= fun testModule =>
      s.executing testModule >>= fun _ => s.reporting testModule := by
  simp only [work, preparing, generating, executing, reporting, bind_assoc]

/-- The next step of a run. A breakdown leaves out the cleaning, but not the unlocking. -/
def advance (s : Stages σ) (m : Moment σ) : Moment σ :=
  match m.phase with
  | .started => .after s.validate (fun _ => .validated) .done m.world
  | .validated => .after s.workspace.lock (fun _ => .locked) .done m.world
  | .locked => .after s.preparing .prepared .worked m.world
  | .prepared clone => .after (s.generating clone) .generated .worked m.world
  | .generated testModule =>
    .after (s.executing testModule) (fun _ => .executed testModule) .worked m.world
  | .executed testModule =>
    .after (s.reporting testModule) (fun summary => .worked (.ok summary)) .worked m.world
  | .worked (.error .crash) => ⟨.cleaned (.error .crash), m.world⟩
  | .worked result => .after s.cleanUp (fun _ => .cleaned result) .cleaned m.world
  | .cleaned result => .after s.workspace.unlock (fun _ => .done result) .done m.world
  | .done _ => m

/-- The moment of a run after a number of steps. -/
def moment (s : Stages σ) (w : World σ) : Nat → Moment σ
  | 0 => ⟨.started, w⟩
  | n + 1 => s.advance (s.moment w n)

/-- Whether a run passes through a moment. -/
def Passes (s : Stages σ) (w : World σ) (m : Moment σ) : Prop :=
  ∃ n, s.moment w n = m

/-- What is passed through is reached step by step. -/
theorem Passes.induction {Q : Moment σ → Prop} (hstart : Q ⟨.started, w⟩)
    (hstep : ∀ m, s.Passes w m → Q m → Q (s.advance m)) (h : s.Passes w m) : Q m := by
  obtain ⟨n, rfl⟩ := h
  induction n with
  | zero => exact hstart
  | succ n ih => exact hstep _ ⟨n, rfl⟩ ih

theorem Passes.advance (h : s.Passes w m) : s.Passes w (s.advance m) := by
  obtain ⟨n, rfl⟩ := h
  exact ⟨n + 1, rfl⟩

/-- A run that has the lock gets to the end of its work. -/
theorem exists_worked_of_locked {taken : World σ} (h : s.Passes w ⟨.locked, taken⟩) :
    ∃ result left, s.Passes w ⟨.worked result, left⟩ := by
  have hstep : ∀ {α : Type} (a : Action σ α) (next : α → Phase) w',
      s.Passes w (.after a next .worked w') →
      (∀ x w'', s.Passes w ⟨next x, w''⟩ → ∃ result left, s.Passes w ⟨.worked result, left⟩) →
      ∃ result left, s.Passes w ⟨.worked result, left⟩ := by
    intro α a next w' hafter hnext
    cases h : (a.run w').1 with
    | ok x =>
      have hphase := Moment.phase_after_of_ok h next .worked
      exact hnext x (Moment.after a next .worked w').world (by rwa [← hphase])
    | error halt =>
      have hphase := Moment.phase_after_of_error h next .worked
      exact ⟨.error halt, (Moment.after a next .worked w').world, by rwa [← hphase]⟩
  refine hstep s.preparing .prepared _ h.advance fun clone _ h => ?_
  refine hstep (s.generating clone) .generated _ h.advance fun testModule _ h => ?_
  refine hstep (s.executing testModule) (fun _ => .executed testModule) _ h.advance fun _ _ h => ?_
  exact hstep (s.reporting testModule) (fun summary => .worked (.ok summary)) _ h.advance
    fun summary left h => ⟨.ok summary, left, h⟩

/-! ### What is left of a run -/

/-- The end of a run that has cleaned up, or was broken down before. -/
def unlocked (s : Stages σ) (result : Except Halt Summary) (w : World σ) :
    Except Halt Summary × World σ :=
  (result, (s.workspace.unlock.run w).2)

/-- The end of a run whose work has ended. -/
def closed (s : Stages σ) : Except Halt Summary × World σ → Except Halt Summary × World σ
  | (.error .crash, w) => s.unlocked (.error .crash) w
  | (result, w) =>
    match s.cleanUp.run w with
    | (.ok _, w) => s.unlocked result w
    | (.error halt, w) => s.unlocked (.error halt) w

/-- At the end, the lock file is taken away if it can be. -/
theorem files_unlocked (s : Stages σ) (result : Except Halt Summary) (w : World σ) :
    (s.unlocked result w).2.files =
      (w.files.removeFile s.workspace.lockFile).toOption.getD w.files := by
  obtain ⟨events, hrun⟩ := s.workspace.run_unlock_eq w
  rw [unlocked, hrun]

/-- Unless the program has broken down, a run cleans up before its end. -/
theorem closed_of_ne_crash {result : Except Halt Summary} (h : result ≠ .error .crash)
    (w : World σ) : ∃ r, s.closed (result, w) = s.unlocked r (s.cleanUp.run w).2 := by
  obtain (failure | _) | summary := result
  · simp only [closed]
    generalize s.cleanUp.run w = cleaned
    obtain ⟨halt | _, w'⟩ := cleaned
    · exact ⟨.error halt, rfl⟩
    · exact ⟨.error (.failure failure), rfl⟩
  · exact absurd rfl h
  · simp only [closed]
    generalize s.cleanUp.run w = cleaned
    obtain ⟨halt | _, w'⟩ := cleaned
    · exact ⟨.error halt, rfl⟩
    · exact ⟨.ok summary, rfl⟩

/-- How a run ends that is at a moment. -/
def outcome (s : Stages σ) (m : Moment σ) : Except Halt Summary × World σ :=
  match m.phase with
  | .started => s.run.run m.world
  | .validated => (s.workspace.whileLocked s.workAndCleanUp).run m.world
  | .locked => s.closed (s.work.run m.world)
  | .prepared clone => s.closed ((s.generating clone >>= fun testModule =>
      s.executing testModule >>= fun _ => s.reporting testModule).run m.world)
  | .generated testModule => s.closed ((s.executing testModule >>= fun _ =>
      s.reporting testModule).run m.world)
  | .executed testModule => s.closed ((s.reporting testModule).run m.world)
  | .worked result => s.closed (result, m.world)
  | .cleaned result => s.unlocked result m.world
  | .done result => (result, m.world)

/-- What follows the lock is the work and its end. -/
theorem run_whileLocked_of_locked {w' : World σ} (h : s.workspace.lock.run w = (.ok (), w')) :
    (s.workspace.whileLocked s.workAndCleanUp).run w = s.closed (s.work.run w') := by
  have hunlock : ∀ (r : Except Halt Summary) w,
      (s.workspace.unlock >>= fun _ => Action.ofResult r).run w = s.unlocked r w := by
    intro r w
    obtain ⟨events, hunlock⟩ := s.workspace.run_unlock_eq w
    rw [Action.run_bind, unlocked, hunlock]
    rfl
  rw [Workspace.whileLocked, Action.run_bind, h]
  simp only
  rw [Action.run_bind, Action.attempt, Action.run_ofFunction]
  simp only
  rw [hunlock, workAndCleanUp, Action.run_bind, Action.attempt, Action.run_ofFunction]
  simp only
  generalize s.work.run w' = worked
  obtain ⟨(failure | _) | summary, w'⟩ := worked
  · simp only [closed, Action.run_bind]
    generalize s.cleanUp.run w' = cleaned
    obtain ⟨_ | _, w''⟩ := cleaned <;> rfl
  · rfl
  · simp only [closed, Action.run_bind]
    generalize s.cleanUp.run w' = cleaned
    obtain ⟨_ | _, w''⟩ := cleaned <;> rfl

/-- The rest of the work after its first part. -/
theorem closed_bind (s : Stages σ) (a : Action σ α) (f : α → Action σ Summary) (w : World σ) :
    s.closed ((a >>= f).run w) =
      match a.run w with
      | (.ok x, w) => s.closed ((f x).run w)
      | (.error halt, w) => s.closed (.error halt, w) := by
  rw [Action.run_bind]
  generalize a.run w = done
  obtain ⟨_ | _, w'⟩ := done <;> rfl

/-- A step changes nothing about how the run ends. -/
theorem outcome_advance (s : Stages σ) (m : Moment σ) : s.outcome (s.advance m) = s.outcome m := by
  obtain ⟨phase, w⟩ := m
  -- A step is an action that gives a value or fails, and either way the same is left to do.
  cases phase with
  | started =>
    simp only [advance, Moment.after, outcome, run, Action.run_bind]
    generalize s.validate.run w = taken
    obtain ⟨_ | _, w'⟩ := taken <;> rfl
  | validated =>
    simp only [advance, Moment.after]
    cases h : s.workspace.lock.run w with
    | mk r w' =>
      cases r with
      | ok _ => exact (run_whileLocked_of_locked h).symm
      | error halt => simp only [outcome, Workspace.whileLocked, Action.run_bind, h]
  | locked =>
    simp only [advance, Moment.after, outcome, work_eq, closed_bind]
    generalize s.preparing.run w = taken
    obtain ⟨_ | _, w'⟩ := taken <;> simp only
  | prepared clone =>
    simp only [advance, Moment.after, outcome, closed_bind]
    generalize (s.generating clone).run w = taken
    obtain ⟨_ | _, w'⟩ := taken <;> simp only
  | generated testModule =>
    simp only [advance, Moment.after, outcome, closed_bind]
    generalize (s.executing testModule).run w = taken
    obtain ⟨_ | _, w'⟩ := taken <;> rfl
  | executed testModule =>
    simp only [advance, Moment.after, outcome]
    generalize (s.reporting testModule).run w = taken
    obtain ⟨_ | _, w'⟩ := taken <;> rfl
  | worked result =>
    obtain (failure | _) | summary := result
    · simp only [advance, Moment.after, outcome, closed]
      generalize s.cleanUp.run w = taken
      obtain ⟨_ | _, w'⟩ := taken <;> rfl
    · rfl
    · simp only [advance, Moment.after, outcome, closed]
      generalize s.cleanUp.run w = taken
      obtain ⟨_ | _, w'⟩ := taken <;> rfl
  | cleaned result =>
    obtain ⟨events, hunlock⟩ := s.workspace.run_unlock_eq w
    simp only [advance, Moment.after, outcome, unlocked, hunlock]
  | done result => rfl

/-- From each moment that a run passes through, it ends as it does. -/
theorem outcome_of_passes (h : s.Passes w m) : s.outcome m = s.run.run w := by
  refine h.induction (Q := fun m => s.outcome m = s.run.run w) rfl fun m _ ih => ?_
  rw [outcome_advance, ih]

/-! ### The end of a run -/

/-- Each step leads on, unless the run is done. -/
theorem rank_advance (s : Stages σ) (m : Moment σ) :
    m.phase.rank < (s.advance m).phase.rank ∨ ∃ result, m.phase = .done result := by
  obtain ⟨phase, w⟩ := m
  cases phase with
  | worked result =>
    left
    obtain (failure | _) | summary := result
    · exact Moment.phase_after (Q := (6 < ·.rank)) (by simp [Phase.rank]) (by simp [Phase.rank])
    · exact Nat.lt_succ_self 6
    · exact Moment.phase_after (Q := (6 < ·.rank)) (by simp [Phase.rank]) (by simp [Phase.rank])
  | done result => exact .inr ⟨result, rfl⟩
  | _ =>
    exact .inl (Moment.phase_after (Q := (_ < ·.rank)) (by simp [Phase.rank])
      (by simp [Phase.rank]))

/-- A run passes through one moment of a rank only. -/
theorem Passes.eq_of_rank (h : s.Passes w m) (h' : s.Passes w m')
    (hrank : m.phase.rank = m'.phase.rank) : m = m' := by
  have hlater : ∀ n k, s.moment w (n + k) = s.moment w n ∨
      (s.moment w n).phase.rank < (s.moment w (n + k)).phase.rank := by
    intro n k
    induction k with
    | zero => exact .inl rfl
    | succ k ih =>
      change s.advance (s.moment w (n + k)) = _ ∨ _ < (s.advance (s.moment w (n + k))).phase.rank
      rcases s.rank_advance (s.moment w (n + k)) with hstep | ⟨result, hdone⟩
      · refine .inr (Nat.lt_of_le_of_lt ?_ hstep)
        rcases ih with ih | ih
        · rw [ih]
        · exact Nat.le_of_lt ih
      · -- A run that is done stays so.
        have hsame : s.advance (s.moment w (n + k)) = s.moment w (n + k) := by
          rw [Stages.advance, hdone]
        rwa [hsame]
  obtain ⟨n, rfl⟩ := h
  obtain ⟨n', rfl⟩ := h'
  rcases Nat.le_total n n' with hle | hle
  · obtain ⟨k, rfl⟩ := Nat.exists_eq_add_of_le hle
    exact ((hlater n k).resolve_right (by omega)).symm
  · obtain ⟨k, rfl⟩ := Nat.exists_eq_add_of_le hle
    exact (hlater n' k).resolve_right (by omega)

/-- After eight steps, a run is done. -/
theorem moment_eight (s : Stages σ) (w : World σ) :
    s.moment w 8 = ⟨.done (s.run.run w).1, (s.run.run w).2⟩ := by
  have hrank : ∀ n, n ≤ (s.moment w n).phase.rank ∨ ∃ r, (s.moment w n).phase = .done r := by
    intro n
    induction n with
    | zero => exact .inl (Nat.zero_le _)
    | succ n ih =>
      rcases s.rank_advance (s.moment w n) with hstep | ⟨r, hdone⟩
      · rcases ih with ih | ⟨r, hdone⟩
        · exact .inl (Nat.lt_of_le_of_lt ih hstep)
        · exact .inr ⟨r, by rw [moment, advance, hdone]; exact hdone⟩
      · exact .inr ⟨r, by rw [moment, advance, hdone]; exact hdone⟩
  obtain ⟨r, hdone⟩ : ∃ r, (s.moment w 8).phase = .done r := by
    rcases hrank 8 with h | h
    · exact Phase.exists_done_of_rank h
    · exact h
  have houtcome := outcome_of_passes (s := s) (w := w) ⟨8, rfl⟩
  generalize s.moment w 8 = m at hdone houtcome ⊢
  obtain ⟨_, w'⟩ := m
  obtain rfl := hdone
  rw [← houtcome]
  rfl

/-- Whether the test module of a run in a phase, as far as there is one, has a property. -/
def Bears (s : Stages σ) (Q : TestModule → Prop) : Phase → Prop
  | .generated testModule | .executed testModule => Q testModule
  | .worked (.ok summary) | .cleaned (.ok summary) | .done (.ok summary) =>
    ∃ testModule, Q testModule ∧ summary.modulePath = s.workspace.modulePath testModule.fileName
  | _ => True

/-- What holds of all test modules that the stage generates holds of that of a run. -/
theorem bears_of_passes {Q : TestModule → Prop}
    (hgenerate : ∀ clone w testModule, ((s.generate clone).run w).1 = .ok testModule → Q testModule)
    (h : s.Passes w m) : s.Bears Q m.phase := by
  refine h.induction (Q := fun m => s.Bears Q m.phase) trivial fun m _ ih => ?_
  obtain ⟨phase, w⟩ := m
  cases phase with
  | prepared clone =>
    refine Moment.phase_after (Q := s.Bears Q) (fun testModule htaken => ?_) fun _ => trivial
    exact hgenerate clone _ testModule htaken
  | generated testModule =>
    exact Moment.phase_after (Q := s.Bears Q) (fun _ _ => ih) fun _ => trivial
  | executed testModule =>
    refine Moment.phase_after (Q := s.Bears Q) (fun summary htaken => ?_) fun _ => trivial
    obtain ⟨_, _, _, htaken⟩ := Action.exists_of_run_bind htaken
    obtain ⟨_, _, _, htaken⟩ := Action.exists_of_run_bind htaken
    obtain rfl := Except.ok.inj htaken
    exact ⟨testModule, ih, rfl⟩
  | worked result =>
    obtain (failure | _) | _ := result
    · exact Moment.phase_after (Q := s.Bears Q) (fun _ _ => trivial) fun _ => trivial
    · exact trivial
    · exact Moment.phase_after (Q := s.Bears Q) (fun _ _ => ih) fun _ => trivial
  | cleaned result =>
    obtain _ | _ := result
    · exact Moment.phase_after (Q := s.Bears Q) (fun _ _ => trivial) fun _ => trivial
    · exact Moment.phase_after (Q := s.Bears Q) (fun _ _ => ih) fun _ => trivial
  | done result => exact ih
  | _ => exact Moment.phase_after (Q := s.Bears Q) (fun _ _ => trivial) fun _ => trivial

/-- A run that succeeds names the place of a test module that its stage generates. -/
theorem exists_testModule {Q : TestModule → Prop}
    (hgenerate : ∀ clone w testModule, ((s.generate clone).run w).1 = .ok testModule → Q testModule)
    (h : (s.run.run w).1 = .ok summary) :
    ∃ testModule, Q testModule ∧
      summary.modulePath = s.workspace.modulePath testModule.fileName := by
  have hdone := bears_of_passes (w := w) hgenerate ⟨8, rfl⟩
  rwa [moment_eight, h] at hdone

/-- The result of a run is that of its work, unless it is a failure. -/
theorem worked_of_advance (h : (s.advance m).phase.result? = some (.ok summary))
    (hm : m.phase.result? ≠ some (.ok summary)) :
    (s.advance m).phase = .worked (.ok summary) := by
  revert h
  let Q := fun phase : Phase => phase.result? = some (.ok summary) → phase = .worked (.ok summary)
  change Q (s.advance m).phase
  obtain ⟨phase, w⟩ := m
  cases phase with
  | worked result =>
    obtain (failure | _) | _ := result
    · exact Moment.phase_after (Q := Q) (by simp [Q, Phase.result?]) (by simp [Q, Phase.result?])
    · simp [Q, advance, Phase.result?]
    · exact Moment.phase_after (Q := Q) (fun _ _ h => absurd h hm) (by simp [Q, Phase.result?])
  | cleaned result =>
    exact Moment.phase_after (Q := Q) (fun _ _ h => absurd h hm) (by simp [Q, Phase.result?])
  | done result => exact fun h => absurd h hm
  | _ => exact Moment.phase_after (Q := Q) (by simp [Q, Phase.result?]) (by simp [Q, Phase.result?])

/-- A run that succeeds has worked, with the same result. -/
theorem exists_worked (h : (s.run.run w).1 = .ok summary) :
    ∃ left, s.Passes w ⟨.worked (.ok summary), left⟩ := by
  have hresult : ∀ n, (s.moment w n).phase.result? = some (.ok summary) →
      ∃ left, s.Passes w ⟨.worked (.ok summary), left⟩ := by
    intro n hn
    induction n with
    | zero => simp [moment, Phase.result?] at hn
    | succ n ih =>
      by_cases hbefore : (s.moment w n).phase.result? = some (.ok summary)
      · exact ih hbefore
      · refine ⟨(s.moment w (n + 1)).world, n + 1, ?_⟩
        have hphase : (s.moment w (n + 1)).phase = _ := worked_of_advance hn hbefore
        rw [← hphase]
  refine hresult 8 ?_
  rw [moment_eight, h]
  rfl

/-! ### What all steps keep -/

/-- Whether all stages that work in the workspace keep a property of the files. -/
structure AllKeep (P : FileTree → Prop) (s : Stages σ) : Prop where
  prepare : Keeps P s.prepare
  generate : ∀ clone, Keeps P (s.generate clone)
  execute : ∀ testModule, Keeps P (s.execute testModule)
  report : ∀ testModule, Keeps P (s.report testModule)
  cleanup : Keeps P s.cleanup

theorem reads_reportOutput {Q : Halt → Prop} (title text : String) :
    Reads Q (reportOutput title text : Action σ Unit) := by
  rw [reportOutput]
  split
  · exact .pure ()
  · exact .report

theorem keeps_cleanUp (h : Keeps P s.cleanup) : Keeps P s.cleanUp := by
  refine .bind (.attempt h) fun r => ?_
  rcases r with (failure | _) | _
  · exact OnlyReads.report.keeps
  · exact OnlyReads.crash.keeps
  · exact (OnlyReads.pure ()).keeps

namespace AllKeep

theorem preparing (h : s.AllKeep P) : Keeps P s.preparing :=
  .bind OnlyReads.report.keeps fun _ => h.prepare

theorem generating (h : s.AllKeep P) (clone : Path) : Keeps P (s.generating clone) :=
  .bind OnlyReads.report.keeps fun _ => h.generate clone

theorem executing (h : s.AllKeep P) (testModule : TestModule) :
    Keeps P (s.executing testModule) := by
  refine .bind OnlyReads.report.keeps fun _ => .bind (h.execute testModule) fun _ => ?_
  have houtput (title text : String) : Keeps P (reportOutput title text : Action σ Unit) :=
    (reads_reportOutput (Q := fun _ => False) title text).onlyReads.keeps
  exact .bind (houtput _ _) fun _ => houtput _ _

theorem reporting (h : s.AllKeep P) (testModule : TestModule) :
    Keeps P (s.reporting testModule) :=
  .bind OnlyReads.report.keeps fun _ => .bind (h.report testModule) fun _ =>
    (OnlyReads.pure _).keeps

end AllKeep

theorem keeps_after {a : Action σ α} (h : Keeps P a) {next : α → Phase}
    {failed : Except Halt Summary → Phase} (hw : P w.files) :
    P (Moment.after a next failed w).world.files := by
  rw [Moment.world_after]
  exact h w hw

/-- A step keeps what the stages keep, and the parts of the run that may come next in its place. -/
theorem keeps_advance (h : s.AllKeep P) (hvalidate : m.phase = .started → Keeps P s.validate)
    (hlock : m.phase = .validated → Keeps P (s.workspace.lock : Action σ Unit))
    (hunlock : ∀ result, m.phase = .cleaned result → Keeps P (s.workspace.unlock : Action σ Unit))
    (hm : P m.world.files) : P (s.advance m).world.files := by
  obtain ⟨phase, w⟩ := m
  cases phase with
  | started => exact keeps_after (hvalidate rfl) hm
  | validated => exact keeps_after (hlock rfl) hm
  | locked => exact keeps_after h.preparing hm
  | prepared clone => exact keeps_after (h.generating clone) hm
  | generated testModule => exact keeps_after (h.executing testModule) hm
  | executed testModule => exact keeps_after (h.reporting testModule) hm
  | worked result =>
    obtain (failure | _) | summary := result
    · exact keeps_after (keeps_cleanUp h.cleanup) hm
    · exact hm
    · exact keeps_after (keeps_cleanUp h.cleanup) hm
  | cleaned result => exact keeps_after (hunlock result rfl) hm
  | done result => exact hm

/-- What all parts of a run keep is found at all moments. -/
theorem keeps_of_passes (h : s.AllKeep P) (hvalidate : Keeps P s.validate)
    (hlock : Keeps P (s.workspace.lock : Action σ Unit))
    (hunlock : Keeps P (s.workspace.unlock : Action σ Unit)) (hw : P w.files)
    (hm : s.Passes w m) : P m.world.files := by
  refine hm.induction (Q := fun m => P m.world.files) hw fun m _ hkept => ?_
  exact keeps_advance h (fun _ => hvalidate) (fun _ => hlock) (fun _ _ => hunlock) hkept

end Stages

end TestBench
