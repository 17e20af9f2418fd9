import TestBench.Stages

/-!
# The calls of the stages

Which stages a run calls is found by noting each of them when it is called (`noted`), with the
files that it found and how it ended. Noting changes nothing else: a run whose stages are noted
does what the run does (`mirrors_run`), since all its parts do.

* `InTurn`: stages are called in turn, up to and including the first that fails;
* `NotesInTurn.bind`: an action after another one calls its stages in turn if the two do.
-/

namespace TestBench

variable {σ α β : Type}

/-- The stages of a run, by their names. -/
inductive Stage where
  | validate
  | prepare
  | generate
  | execute
  | report
  | cleanup
deriving Repr, DecidableEq

/-- A call of a stage: the files that it found, and how it failed if it did. -/
structure StageCall where
  stage : Stage
  files : FileTree
  failure : Option Halt
deriving Repr, DecidableEq

/-- How a result is none. -/
def failureOf : Except Halt α → Option Halt
  | .ok _ => none
  | .error halt => some halt

@[simp]
theorem failureOf_ok (x : α) : failureOf (.ok x : Except Halt α) = none :=
  rfl

@[simp]
theorem failureOf_error (halt : Halt) : failureOf (.error halt : Except Halt α) = some halt :=
  rfl

/-- The world with notes about the stages. -/
def World.withNotes (w : World σ) (calls : List StageCall) : World (σ × List StageCall) :=
  ⟨w.files, w.events, (w.tools, calls), w.requests⟩

/-- The world without the notes. -/
def World.withoutNotes (w : World (σ × List StageCall)) : World σ :=
  ⟨w.files, w.events, w.tools.1, w.requests⟩

/-- A stage that notes when it is called. -/
def noting (stage : Stage) (a : Action σ α) : Action (σ × List StageCall) α :=
  Action.ofFunction fun w =>
    let done := a.run w.withoutNotes
    (done.1, done.2.withNotes (w.tools.2 ++ [⟨stage, w.files, failureOf done.1⟩]))

theorem run_noting (stage : Stage) (a : Action σ α) (w : World (σ × List StageCall)) :
    (noting stage a).run w = ((a.run w.withoutNotes).1, (a.run w.withoutNotes).2.withNotes
      (w.tools.2 ++ [⟨stage, w.files, failureOf (a.run w.withoutNotes).1⟩])) :=
  rfl

namespace Stages

/-- The stages, each of which notes when it is called. -/
def noted (s : Stages σ) : Stages (σ × List StageCall) where
  workspace := s.workspace
  validate := noting .validate s.validate
  prepare := noting .prepare s.prepare
  generate clone := noting .generate (s.generate clone)
  execute testModule := noting .execute (s.execute testModule)
  report testModule := noting .report (s.report testModule)
  cleanup := noting .cleanup s.cleanup

/-- The stages that a run calls in a world. -/
def called (s : Stages σ) (w : World σ) : List StageCall :=
  (s.noted.run.run (w.withNotes [])).2.tools.2

end Stages

/-! ### Noting changes nothing else -/

/-- Whether an action does what another one does, but for notes. -/
def Mirrors (b : Action (σ × List StageCall) α) (a : Action σ α) : Prop :=
  ∀ w, a.run w.withoutNotes = ((b.run w).1, (b.run w).2.withoutNotes)

namespace Mirrors

theorem pure (x : α) : Mirrors (Pure.pure x) (Pure.pure x : Action σ α) :=
  fun _ => rfl

theorem fail (failure : Failure) :
    Mirrors (Action.fail failure) (Action.fail failure : Action σ α) :=
  fun _ => rfl

theorem crash : Mirrors Action.crash (Action.crash : Action σ α) :=
  fun _ => rfl

theorem ofResult (r : Except Halt α) :
    Mirrors (Action.ofResult r) (Action.ofResult r : Action σ α) :=
  fun _ => rfl

theorem report {level : Level} {reporter : Reporter} {message : String} :
    Mirrors (Action.report level reporter message)
      (Action.report level reporter message : Action σ Unit) :=
  fun _ => rfl

theorem files : Mirrors Action.files (Action.files : Action σ FileTree) :=
  fun _ => rfl

theorem request (d : Deed) : Mirrors (Action.request d) (Action.request d : Action σ Unit) :=
  fun _ => rfl

theorem tryRequest (d : Deed) :
    Mirrors (Action.tryRequest d) (Action.tryRequest d : Action σ (Except Fault Unit)) :=
  fun _ => rfl

theorem noting (stage : Stage) (a : Action σ α) : Mirrors (TestBench.noting stage a) a :=
  fun _ => rfl

theorem bind {b : Action (σ × List StageCall) α} {a : Action σ α}
    {g : α → Action (σ × List StageCall) β} {f : α → Action σ β} (ha : Mirrors b a)
    (hf : ∀ x, Mirrors (g x) (f x)) : Mirrors (b >>= g) (a >>= f) := by
  intro w
  rw [Action.run_bind, Action.run_bind, ha w]
  obtain ⟨r, w'⟩ := b.run w
  cases r with
  | ok x => exact hf x w'
  | error halt => rfl

theorem attempt {b : Action (σ × List StageCall) α} {a : Action σ α} (h : Mirrors b a) :
    Mirrors (Action.attempt b) (Action.attempt a) := by
  intro w
  rw [Action.attempt, Action.attempt, Action.run_ofFunction, Action.run_ofFunction, h w]

end Mirrors

namespace Stages

theorem mirrors_reportOutput (title text : String) :
    Mirrors (reportOutput title text) (reportOutput title text : Action σ Unit) := by
  rw [reportOutput, reportOutput]
  split
  · exact .pure ()
  · exact .report

theorem mirrors_work (s : Stages σ) : Mirrors s.noted.work s.work := by
  refine .bind .report fun _ => .bind (.noting _ _) fun clone => ?_
  refine .bind .report fun _ => .bind (.noting _ _) fun testModule => ?_
  refine .bind .report fun _ => .bind (.noting _ _) fun output => ?_
  refine .bind (mirrors_reportOutput _ _) fun _ => .bind (mirrors_reportOutput _ _) fun _ => ?_
  exact .bind .report fun _ => .bind (.noting _ _) fun reportIndex => .pure _

theorem mirrors_cleanUp (s : Stages σ) : Mirrors s.noted.cleanUp s.cleanUp := by
  refine .bind (.attempt (.noting _ _)) fun r => ?_
  rcases r with (failure | _) | _
  · exact .report
  · exact .crash
  · exact .pure ()

theorem mirrors_workAndCleanUp (s : Stages σ) :
    Mirrors s.noted.workAndCleanUp s.workAndCleanUp := by
  refine .bind (.attempt s.mirrors_work) fun r => ?_
  rcases r with (failure | _) | summary
  · exact .bind s.mirrors_cleanUp fun _ => .ofResult _
  · exact .crash
  · exact .bind s.mirrors_cleanUp fun _ => .ofResult _

theorem mirrors_lock (w : Workspace) : Mirrors w.lock (w.lock : Action σ Unit) := by
  refine .bind (.request _) fun _ => .bind (.tryRequest _) fun done => ?_
  cases done with
  | ok _ => exact .report
  | error fault =>
    dsimp only
    split
    · exact .fail _
    · exact .fail _

theorem mirrors_unlock (w : Workspace) : Mirrors w.unlock (w.unlock : Action σ Unit) := by
  refine .bind (.tryRequest _) fun done => ?_
  cases done with
  | ok _ => exact .pure ()
  | error fault => exact .report

/-- A run whose stages are noted does what the run does. -/
theorem mirrors_run (s : Stages σ) : Mirrors s.noted.run s.run := by
  refine .bind (.noting _ _) fun _ => .bind (mirrors_lock _) fun _ => ?_
  refine .bind (.attempt s.mirrors_workAndCleanUp) fun r => ?_
  exact .bind (mirrors_unlock _) fun _ => .ofResult r

/-- What a run does, seen in the run whose stages are noted. -/
theorem run_eq (s : Stages σ) (w : World σ) :
    s.run.run w = ((s.noted.run.run (w.withNotes [])).1,
      (s.noted.run.run (w.withNotes [])).2.withoutNotes) :=
  s.mirrors_run (w.withNotes [])

end Stages

/-! ### Calls in turn -/

/-- Stages called in turn, up to and including the first that fails. -/
inductive InTurn : List Stage → List StageCall → Option Halt → Prop where
  | done : InTurn [] [] none
  | failed {stages : List Stage} {c : StageCall} {halt : Halt} (h : c.failure = some halt) :
      InTurn (c.stage :: stages) [c] (some halt)
  | next {stages : List Stage} {calls : List StageCall} {c : StageCall} {failure : Option Halt}
      (h : c.failure = none) (hs : InTurn stages calls failure) :
      InTurn (c.stage :: stages) (c :: calls) failure

theorem InTurn.append_failed {stages more : List Stage} {calls : List StageCall} {halt : Halt}
    (h : InTurn stages calls (some halt)) : InTurn (stages ++ more) calls (some halt) := by
  generalize hf : some halt = failure at h
  induction h with
  | done => cases hf
  | failed h => exact .failed h
  | next h _ ih => exact .next h (ih hf)

theorem InTurn.append {stages more : List Stage} {calls calls' : List StageCall}
    {failure : Option Halt} (h : InTurn stages calls none) (h' : InTurn more calls' failure) :
    InTurn (stages ++ more) (calls ++ calls') failure := by
  generalize hf : none = outcome at h
  induction h with
  | done => exact h'
  | failed _ => cases hf
  | next h _ ih => exact .next h (ih hf)

/-- Whether an action calls stages in turn, and all of them find files with a property that
    the action keeps. -/
def NotesInTurn (P : FileTree → Prop) (stages : List Stage)
    (a : Action (σ × List StageCall) α) : Prop :=
  ∀ w, P w.files → P (a.run w).2.files ∧
    ∃ calls, (a.run w).2.tools.2 = w.tools.2 ++ calls ∧
      InTurn stages calls (failureOf (a.run w).1) ∧ ∀ c ∈ calls, P c.files

namespace NotesInTurn

variable {P : FileTree → Prop} {stages more : List Stage}

theorem pure (x : α) : NotesInTurn P [] (Pure.pure x : Action (σ × List StageCall) α) :=
  fun _ h => ⟨h, [], (List.append_nil _).symm, .done, by simp⟩

theorem report {level : Level} {reporter : Reporter} {message : String} :
    NotesInTurn P [] (Action.report level reporter message : Action (σ × List StageCall) Unit) :=
  fun _ h => ⟨h, [], (List.append_nil _).symm, .done, by simp⟩

/-- A stage is called alone. -/
theorem noting (stage : Stage) {a : Action σ α} (ha : ∀ w, P w.files → P (a.run w).2.files) :
    NotesInTurn P [stage] (TestBench.noting stage a) := by
  intro w hw
  refine ⟨ha _ hw, [⟨stage, w.files, failureOf (a.run w.withoutNotes).1⟩], rfl, ?_, by simpa⟩
  rw [run_noting]
  cases hr : failureOf (a.run w.withoutNotes).1 with
  | none => exact @InTurn.next [] [] ⟨stage, w.files, none⟩ none rfl .done
  | some halt =>
    exact @InTurn.failed [] ⟨stage, w.files, some halt⟩ halt rfl

/-- An action after another one calls its stages in turn if the two do. -/
theorem bind {a : Action (σ × List StageCall) α} {f : α → Action (σ × List StageCall) β}
    (ha : NotesInTurn P stages a) (hf : ∀ x, NotesInTurn P more (f x)) :
    NotesInTurn P (stages ++ more) (a >>= f) := by
  intro w hw
  obtain ⟨hkept, calls, hnotes, hturn, hfound⟩ := ha w hw
  rw [Action.run_bind]
  generalize a.run w = done at *
  obtain ⟨r, w'⟩ := done
  cases r with
  | error halt => exact ⟨hkept, calls, hnotes, hturn.append_failed, hfound⟩
  | ok x =>
    obtain ⟨hkept', calls', hnotes', hturn', hfound'⟩ := hf x w' hkept
    refine ⟨hkept', calls ++ calls', ?_, hturn.append hturn', ?_⟩
    · rw [← List.append_assoc, ← hnotes]
      exact hnotes'
    · intro c hc
      rcases List.mem_append.1 hc with hc | hc
      · exact hfound c hc
      · exact hfound' c hc

end NotesInTurn

end TestBench
