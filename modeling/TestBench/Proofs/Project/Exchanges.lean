import TestBench.Proofs.Project.Generation
import TestBench.Proofs.Stages.Phase
import TestBench.Proofs.Tool.Exchange
import TestBench.Proofs.Workspace.Cleaning

/-!
# What a run exchanges with the tools

A run calls five programs: one that clones, one that tests, and three that report. Everything else
that it does is quiet. So what it has exchanged with the tools at a moment is the start of a talk
to these five (`Told`), whatever the tools answer and do to the files, and the failure that ends
the talk is the failure of the run: neither the cleaning nor the unlocking takes it back.

* `told_of_passes`: what a run has exchanged at each moment;
* `exchanges_of_run`: what a run exchanges, when it succeeds, and how it fails.
-/

namespace TestBench

variable {σ : Type} {Q : Halt → Prop} {s : Settings} {w : Workspace} {b : Behaviour}
  {world : World (List Exchange)} {m : Moment (List Exchange)}

/-! ### Runs that failed -/

namespace Stages

/-- The end of a work that failed is not a success. -/
theorem closed_error_ne_ok (s : Stages σ) (halt : Halt) (w : World σ) (summary : Summary) :
    (s.closed (.error halt, w)).1 ≠ .ok summary := by
  obtain failure | _ := halt
  · simp only [closed]
    generalize s.cleanUp.run w = cleaned
    obtain ⟨_ | _, w'⟩ := cleaned
    · simp [unlocked]
    · simp [unlocked]
  · simp [closed, unlocked]

/-- A run that succeeds has no failure behind it. -/
theorem ne_ok_of_failed {s : Stages σ} {w : World σ} {m : Moment σ} {halt : Halt}
    {summary : Summary} (h : s.Passes w m) (hphase : (s.advance m).phase = .worked (.error halt)) :
    (s.run.run w).1 ≠ .ok summary := by
  rw [← outcome_of_passes h.advance, outcome, hphase]
  exact s.closed_error_ne_ok halt _ summary

end Stages

namespace Project

/-! ### What is quiet -/

theorem quiet_generate (s : Settings) (w : Workspace) (clone : Path) :
    Quiet Halt.IsOwn (generate s w clone : Action σ TestModule) := by
  rw [generate_eq]
  refine .bind (reads_composing s clone).quiet fun made => ?_
  exact .bind (.request fun _ => trivial) fun _ => .bind .report fun _ => .pure _

/-! ### What speaks to the tools -/

/-- Makes a clean workspace, and reports it. -/
def readying (w : Workspace) : Action σ Unit := do
  Action.report .info .engine "Preparing workspace..."
  w.clean
  Action.request (.makeDirectories w.root)

/-- Clones the repository, and gives the clone. -/
def cloning (s : Settings) (w : Workspace) (runner : Runner σ) : Action σ Path := do
  Action.report .info .pipeline s!"Cloning {s.repository}"
  let output ← Action.call runner (cloneCommand s w)
  let _ ← Action.ofExcept (output.check "git")
  return w.clone

theorem preparing_eq (s : Settings) (w : Workspace) (runner : Runner σ) :
    (stages s w runner).preparing = readying w >>= fun _ => cloning s w runner := by
  simp only [Stages.preparing, stages, prepare, readying, cloning, bind_assoc]

theorem quiet_readying (w : Workspace) : Quiet Halt.IsOwn (readying w : Action σ Unit) :=
  .bind .report fun _ => .bind ((Workspace.quiet_clean w).mono fun _ h => h.isOwn) fun _ =>
    .request fun _ => trivial

theorem quiet_generating (s : Settings) (w : Workspace) (runner : Runner σ) (clone : Path) :
    Quiet Halt.IsOwn ((stages s w runner).generating clone) :=
  .bind .report fun _ => quiet_generate s w clone

theorem quiet_cleanUp (s : Settings) (w : Workspace) (runner : Runner σ) :
    Quiet Q (stages s w runner).cleanUp := by
  -- A failure of the cleaning is only reported, and it never breaks down.
  intro world
  have hclean : Quiet Workspace.IsIo (w.clean : Action σ Unit) := Workspace.quiet_clean w
  obtain ⟨htools, hhalt⟩ := hclean world
  rw [Stages.cleanUp, Action.run_bind, Action.attempt, Action.run_ofFunction]
  simp only [stages]
  generalize w.clean.run world = cleaned at htools hhalt ⊢
  obtain ⟨halt | _, world'⟩ := cleaned
  · obtain ⟨fault, rfl⟩ := hhalt halt rfl
    exact ⟨htools, fun _ h => by cases h⟩
  · exact ⟨htools, fun _ h => by cases h⟩

theorem speaks_cloning (s : Settings) (w : Workspace) (b : Behaviour) :
    Speaks ["git"] (cloning s w b.runner) :=
  .quiet_bind .report fun _ => .call_bind b (cloneCommand s w) fun _ => .of_quiet (.pure _)

theorem speaks_executing (s : Settings) (w : Workspace) (b : Behaviour) (testModule : TestModule) :
    Speaks [(testProgram s).1] ((stages s w b.runner).executing testModule) := by
  have hexecute : Speaks [(testProgram s).1] (execute s w b.runner testModule) := by
    refine .quiet_bind (reads_headerDirectory s w).quiet fun directory => ?_
    refine .quiet_bind .report fun _ => ?_
    exact .call b (testCommand s w testModule directory)
  refine .quiet_bind .report fun _ => hexecute.bind_quiet fun output => ?_
  exact .bind (Stages.reads_reportOutput _ _).quiet fun _ => (Stages.reads_reportOutput _ _).quiet

theorem speaks_runSteps (b : Behaviour) (commands : List ToolCommand) :
    Speaks (commands.map ToolCommand.program) (Coverage.runSteps b.runner commands) := by
  induction commands with
  | nil => exact .of_quiet (.pure ())
  | cons command commands ih =>
    refine .quiet_bind .report fun _ => .call_bind b command fun output => ?_
    split
    · exact .quiet_bind .report fun _ => ih
    · exact ih

theorem speaks_reporting (s : Settings) (w : Workspace) (b : Behaviour) (testModule : TestModule) :
    Speaks ["gcov", "lcov", "genhtml"] ((stages s w b.runner).reporting testModule) := by
  refine .quiet_bind .report fun _ => .bind_quiet ?_ fun _ => .pure _
  exact (speaks_runSteps b (Coverage.steps w _)).bind_quiet fun _ => .pure _

/-! ### A run -/

/-- The programs of a run, in their order. -/
def programs (s : Settings) : List String :=
  ["git", (testProgram s).1, "gcov", "lcov", "genhtml"]

/-- Whether everything in a run goes well but for the tools: it is valid and takes the lock, its
    workspace is cleaned and its root made, and the test module is generated. -/
structure GoesWell (s : Settings) (w : Workspace) (runner : Runner σ) (world : World σ) : Prop where
  valid : Repository.check "git_repo_url" s.repository = .ok ()
  locks : (w.lock.run world).1 = .ok ()
  readies : ∀ taken, (stages s w runner).Passes world ⟨.locked, taken⟩ →
    ((readying w).run taken).1 = .ok ()
  generates : ∀ clone cloned, (stages s w runner).Passes world ⟨.prepared clone, cloned⟩ →
    ∃ testModule, (((stages s w runner).generating clone).run cloned).1 = .ok testModule

/-- Whether what was exchanged by a moment of a run is what is due: the start of a talk to the
    programs of the run, and a whole one once its work has ended. -/
def Told (early : Prop) (s : Settings) (world : World (List Exchange)) :
    Moment (List Exchange) → Prop
  | ⟨.started, now⟩ | ⟨.validated, now⟩ => now = world
  | ⟨.locked, now⟩ => now.tools = world.tools
  | ⟨.prepared _, now⟩ | ⟨.generated _, now⟩ =>
    ∃ es, now.tools = world.tools ++ es ∧ Talk early ["git"] es none
  | ⟨.executed _, now⟩ =>
    ∃ es, now.tools = world.tools ++ es ∧ Talk early ["git", (testProgram s).1] es none
  | ⟨.worked result, now⟩ | ⟨.cleaned result, now⟩ | ⟨.done result, now⟩ =>
    ∃ es, now.tools = world.tools ++ es ∧ Talk early (programs s) es (failureOf result)

/-- A step that speaks goes on with the talk. -/
theorem Told.after {early : Prop} {α : Type} {a : Action (List Exchange) α} {next : α → Phase}
    {before more : List String} {now : World (List Exchange)} {es : List Exchange}
    (ha : Speaks more a) (htools : now.tools = world.tools ++ es)
    (htalk : Talk early before es none) (rest : List String)
    (hrest : before ++ more ++ rest = programs s)
    (hnext : ∀ x es now, now.tools = world.tools ++ es → Talk early (before ++ more) es none →
      Told early s world ⟨next x, now⟩) :
    Told early s world (.after a next .worked now) := by
  obtain ⟨es', htools', htalk'⟩ := ha now
  have htold : (a.run now).2.tools = world.tools ++ (es ++ es') := by
    rw [htools', htools, List.append_assoc]
  have htalked := htalk.append (htalk'.mono False.elim)
  rw [Moment.after]
  generalize a.run now = done at htold htalked ⊢
  obtain ⟨halt | x, now'⟩ := done
  · exact ⟨es ++ es', htold, hrest ▸ htalked.append_failed⟩
  · exact hnext x _ _ htold htalked

/-- A quiet step before the next call leaves the talk as it is, or ends it. -/
theorem Told.after_quiet {early : Prop} {α : Type} {a : Action (List Exchange) α}
    {next : α → Phase} {failed : Except Halt Summary → Phase} {before rest : List String}
    {program : String} {now : World (List Exchange)} {es : List Exchange}
    (ha : Quiet Halt.IsOwn a) (hearly : ∀ halt, (a.run now).1 = .error halt → early)
    (htools : now.tools = world.tools ++ es) (htalk : Talk early before es none)
    (hrest : before ++ program :: rest = programs s)
    (hnext : ∀ x now', a.run now = (.ok x, now') → now'.tools = world.tools ++ es →
      Told early s world ⟨next x, now'⟩)
    (hfailed : ∀ halt now', (now'.tools = world.tools ++ es) →
      Talk early (programs s) es (some halt) → Told early s world ⟨failed (.error halt), now'⟩) :
    Told early s world (.after a next failed now) := by
  obtain ⟨hquiet, hown⟩ := ha now
  rw [htools] at hquiet
  rw [Moment.after]
  generalize ha : a.run now = done at hearly hquiet hown hnext
  obtain ⟨halt | x, now'⟩ := done
  · refine hfailed halt now' hquiet ?_
    have hended : Talk early (program :: rest) [] (some halt) :=
      .early (hearly halt rfl) (hown halt rfl)
    have htalked := htalk.append hended
    rwa [hrest, List.append_nil] at htalked
  · exact hnext x now' rfl hquiet

/-- What does not fail and calls nothing leaves the talk as it is. -/
theorem Told.after_silent {early : Prop} {a : Action (List Exchange) Unit} {next : Unit → Phase}
    {failed : Except Halt Summary → Phase} {now : World (List Exchange)} {es : List Exchange}
    (ha : Quiet (fun _ => False) a) (htools : now.tools = world.tools ++ es)
    (hnext : ∀ now' : World (List Exchange), now'.tools = world.tools ++ es →
      Told early s world ⟨next (), now'⟩) :
    Told early s world (.after a next failed now) := by
  obtain ⟨hquiet, hhalt⟩ := ha now
  rw [Moment.after]
  generalize a.run now = done at hquiet hhalt ⊢
  obtain ⟨halt | _, now'⟩ := done
  · exact (hhalt halt rfl).elim
  · exact hnext now' (hquiet.trans htools)

/-- The first call is made in a workspace that is ready. -/
theorem told_preparing {now : World (List Exchange)}
    (hm : (stages s w b.runner).Passes world ⟨.locked, now⟩) (htools : now.tools = world.tools) :
    Told (¬GoesWell s w b.runner world) s world
      (.after (stages s w b.runner).preparing .prepared .worked now) := by
  obtain ⟨hquiet, hown⟩ := quiet_readying w now
  rw [htools] at hquiet
  rw [preparing_eq, Moment.after, Action.run_bind]
  cases hready : (readying w).run now with
  | mk r now' =>
    rw [hready] at hquiet hown
    cases r with
    | ok _ =>
      exact Told.after (speaks_cloning s w b) (hquiet.trans (List.append_nil _).symm) .done
        (programs s).tail rfl fun _ es _ htools htalk => ⟨es, htools, htalk⟩
    | error halt =>
      have hearly : ¬GoesWell s w b.runner world := fun hwell => by
        cases (hwell.readies now hm).symm.trans (congrArg Prod.fst hready)
      exact ⟨[], hquiet.trans (List.append_nil _).symm, .early hearly (hown halt rfl)⟩

/-- A step keeps to the talk that is due. -/
theorem told_advance (hm : (stages s w b.runner).Passes world m)
    (htold : Told (¬GoesWell s w b.runner world) s world m) :
    Told (¬GoesWell s w b.runner world) s world ((stages s w b.runner).advance m) := by
  obtain ⟨phase, now⟩ := m
  cases phase with
  | started =>
    obtain rfl : now = world := htold
    have hvalidate : Quiet Halt.IsOwn (stages s w b.runner).validate := by
      refine .ofExcept fun failure hfailure => ?_
      rw [Repository.check] at hfailure
      split at hfailure
      · exact Except.error.inj hfailure ▸ trivial
      · cases hfailure
    refine Told.after_quiet hvalidate (fun halt hhalt hwell => ?_) (List.append_nil _).symm .done
      rfl (fun _ now' hrun _ => ?_) fun _ _ htools htalk => ⟨[], htools, htalk⟩
    · rw [stages, hwell.valid] at hhalt
      cases hhalt
    · rw [stages] at hrun
      cases hcheck : Repository.check "git_repo_url" s.repository with
      | error failure =>
        rw [hcheck] at hrun
        cases hrun
      | ok _ =>
        rw [hcheck] at hrun
        exact (Prod.mk.inj hrun).2.symm
  | validated =>
    obtain rfl : now = world := htold
    refine Told.after_quiet (Workspace.quiet_lock w) (fun halt hhalt hwell => ?_)
      (List.append_nil _).symm .done rfl (fun _ _ _ htools => htools.trans (List.append_nil _))
      fun _ _ htools htalk => ⟨[], htools, htalk⟩
    cases hwell.locks.symm.trans hhalt
  | locked =>
    exact told_preparing hm htold
  | prepared clone =>
    obtain ⟨es, htools, htalk⟩ := htold
    refine Told.after_quiet (quiet_generating s w b.runner clone) (fun halt hhalt hwell => ?_)
      htools htalk rfl (fun _ _ _ htools => ⟨es, htools, htalk⟩) fun _ _ htools htalk =>
        ⟨es, htools, htalk⟩
    obtain ⟨testModule, hok⟩ := hwell.generates clone now hm
    cases hok.symm.trans hhalt
  | generated testModule =>
    obtain ⟨es, htools, htalk⟩ := htold
    exact Told.after (speaks_executing s w b testModule) htools htalk ["gcov", "lcov", "genhtml"]
      rfl fun _ es now htools htalk => ⟨es, htools, htalk⟩
  | executed testModule =>
    obtain ⟨es, htools, htalk⟩ := htold
    exact Told.after (speaks_reporting s w b testModule) htools htalk [] rfl
      fun _ es now htools htalk => ⟨es, htools, htalk⟩
  | worked result =>
    obtain ⟨es, htools, htalk⟩ := htold
    obtain (failure | _) | summary := result
    · exact Told.after_silent (quiet_cleanUp s w b.runner) htools fun _ htools =>
        ⟨es, htools, htalk⟩
    · exact ⟨es, htools, htalk⟩
    · exact Told.after_silent (quiet_cleanUp s w b.runner) htools fun _ htools =>
        ⟨es, htools, htalk⟩
  | cleaned result =>
    obtain ⟨es, htools, htalk⟩ := htold
    exact Told.after_silent (Workspace.quiet_unlock w) htools fun _ htools => ⟨es, htools, htalk⟩
  | done result => exact htold

/-- At each moment, a run has kept to the talk that is due. -/
theorem told_of_passes (hm : (stages s w b.runner).Passes world m) :
    Told (¬GoesWell s w b.runner world) s world m :=
  hm.induction (Q := Told (¬GoesWell s w b.runner world) s world) rfl
    fun _ hm htold => told_advance hm htold

/-- A run that succeeds has gone well. -/
theorem goesWell_of_ok {s : Settings} {w : Workspace} {runner : Runner σ} {world : World σ}
    {summary : Summary} (h : ((stages s w runner).run.run world).1 = .ok summary) :
    GoesWell s w runner world := by
  have hvalid : Repository.check "git_repo_url" s.repository = .ok () := by
    cases hcheck : Repository.check "git_repo_url" s.repository with
    | ok _ => rfl
    | error failure =>
      have hrun : (stages s w runner).validate.run world = (.error (.failure failure), world) := by
        rw [stages, hcheck]
        rfl
      rw [Stages.run_of_invalid hrun] at h
      cases h
  refine ⟨hvalid, ?_, fun taken hm => ?_, fun clone cloned hm => ?_⟩
  · have hrun : (stages s w runner).validate.run world = (.ok (), world) := by
      rw [stages, hvalid]
      rfl
    rw [Stages.run, Action.run_bind, hrun] at h
    obtain ⟨_, _, hlock, -⟩ := Action.exists_of_run_bind h
    rw [stages] at hlock
    rw [hlock]
  · cases hready : ((readying w).run taken).1 with
    | ok _ => rfl
    | error halt =>
      have hfailed : ((stages s w runner).preparing.run taken).1 = .error halt := by
        rw [preparing_eq, Action.run_bind]
        generalize (readying w).run taken = readied at hready ⊢
        obtain ⟨_, taken'⟩ := readied
        obtain rfl := hready
        rfl
      exact absurd h (Stages.ne_ok_of_failed hm
        (Moment.phase_after_of_error hfailed Phase.prepared Phase.worked))
  · cases hgenerate : (((stages s w runner).generating clone).run cloned).1 with
    | ok testModule => exact ⟨testModule, rfl⟩
    | error halt =>
      exact absurd h (Stages.ne_ok_of_failed hm
        (Moment.phase_after_of_error hgenerate Phase.generated Phase.worked))

/-- What a run exchanges with tools that behave in any way, and how it ends. Its calls are the
    start of its programs, in their order. It succeeds if and only if everything goes well and
    every program that it calls succeeds, and then it calls all of them. A program that ends with
    another status than zero is the last that is called, and so is one that the tools themselves
    fail; the run ends with its failure, unchanged. The exit status of a failure is never zero,
    and it is that of the program if one did not succeed. -/
theorem exchanges_of_run (s : Settings) (w : Workspace) (b : Behaviour) (files : FileTree)
    (events : List Event) :
    let world : World (List Exchange) := ⟨files, events, [], []⟩
    let result := ((stages s w b.runner).run.run world).1
    let exchanged := ((stages s w b.runner).run.run world).2.tools
    exchanged.map Exchange.program <+: ["git", (testProgram s).1, "gcov", "lcov", "genhtml"] ∧
    ((∃ summary, result = .ok summary) ↔
      GoesWell s w b.runner world ∧ ∀ e ∈ exchanged, e.Succeeds) ∧
    ((∃ summary, result = .ok summary) →
      exchanged.map Exchange.program = ["git", (testProgram s).1, "gcov", "lcov", "genhtml"]) ∧
    (∀ before e after output, exchanged = before ++ e :: after → e.answer = .ok output →
      output.status ≠ 0 → after = [] ∧
        result = .error (.failure
          (.toolFailed e.program output.status output.stdout output.stderr)) ∧
        (Failure.toolFailed e.program output.status output.stdout output.stderr).exitCode =
          output.status) ∧
    (∀ before e after failure, exchanged = before ++ e :: after → e.answer = .error failure →
      after = [] ∧ result = .error (.failure failure)) ∧
    ∀ failure, result = .error (.failure failure) → failure.exitCode ≠ 0 ∧
      ∀ tool status stdout stderr, failure = .toolFailed tool status stdout stderr →
        ∃ before e, exchanged = before ++ [e] ∧
          (e.program = tool ∧ e.answer = .ok ⟨status, stdout, stderr⟩ ∧
              failure.exitCode = status ∨
            e.answer = .error failure) := by
  intro world result exchanged
  have hdone : (stages s w b.runner).Passes world ⟨.done result, _⟩ := ⟨8, Stages.moment_eight _ _⟩
  obtain ⟨es, htools, htalk⟩ := told_of_passes hdone
  obtain rfl : exchanged = es := htools
  have hok : (∃ summary, result = .ok summary) ↔ failureOf result = none := by
    cases result <;> simp
  have herror : ∀ halt, failureOf result = some halt ↔ result = .error halt := by
    intro halt
    cases result <;> simp
  refine ⟨htalk.prefix_programs, ⟨fun h => ?_, fun ⟨hwell, hsucceed⟩ => ?_⟩, fun h => ?_, ?_, ?_,
    ?_⟩
  · obtain ⟨summary, hsummary⟩ := h
    exact ⟨goesWell_of_ok hsummary, (hok.1 ⟨summary, hsummary⟩ ▸ htalk).succeeds.2⟩
  · exact hok.2 (htalk.eq_none (fun h => h hwell) hsucceed)
  · exact (hok.1 h ▸ htalk).succeeds.1
  · intro before e after output hexchanged hanswer hstatus
    obtain ⟨hafter, hfailure⟩ := (hexchanged ▸ htalk).last_of_failed hanswer hstatus
    exact ⟨hafter, (herror _).1 hfailure, if_neg hstatus⟩
  · intro before e after failure hexchanged hanswer
    obtain ⟨hafter, hfailure⟩ := (hexchanged ▸ htalk).last_of_refused hanswer
    exact ⟨hafter, (herror _).1 hfailure⟩
  · intro failure hfailure
    refine ⟨failure.exitCode_ne_zero, ?_⟩
    rintro tool status stdout stderr rfl
    obtain ⟨before, e, hes, ⟨rfl, hanswer, hstatus⟩ | hanswer⟩ :=
      ((herror _).2 hfailure ▸ htalk).answer_of_toolFailed
    · exact ⟨before, e, hes, .inl ⟨rfl, hanswer, if_neg hstatus⟩⟩
    · exact ⟨before, e, hes, .inr hanswer⟩

end Project

end TestBench
