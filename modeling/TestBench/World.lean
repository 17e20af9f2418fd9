import TestBench.Deed
import TestBench.Failure
import TestBench.Log
import TestBench.Tool

/-!
# Actions

What a run does, it does to a world: it asks for changes of the files, it reports events, and it
calls tools, which may remember what they were called with. An action is a function of the world;
that it fails undoes nothing. No action changes the files but by a request, which is noted with the
files that it found, or by a call.

* `run_bind`: an action after another one starts in the world that the other one leaves.
-/

namespace TestBench

/-- The world of a run: files, the events so far, what the tools remember, and the requests that
    the run itself has made so far. -/
structure World (σ : Type) where
  files : FileTree
  events : List Event
  tools : σ
  requests : List Request := []

/-- The world after a deed was asked for. -/
def World.after {σ : Type} (w : World σ) (d : Deed) : World σ :=
  { w with files := (d.perform w.files).2, requests := w.requests ++ [⟨w.files, d⟩] }

/-- Something done to a world, with a value at the end unless it fails. -/
abbrev Action (σ α : Type) := ExceptT Halt (StateM (World σ)) α

/-- How commands are answered: by an output or a failure, and by any change to the world. -/
abbrev Runner (σ : Type) := ToolCommand → World σ → Except Failure ToolOutput × World σ

namespace Action

variable {σ α β : Type}

/-- The result of an action and the world it leaves. -/
def run (a : Action σ α) (w : World σ) : Except Halt α × World σ :=
  (ExceptT.run a).run w

/-- The action that a function of the world is. -/
def ofFunction (f : World σ → Except Halt α × World σ) : Action σ α :=
  ExceptT.mk f

/-- Fails. -/
def fail (failure : Failure) : Action σ α :=
  ofFunction fun w => (.error (.failure failure), w)

/-- Breaks down. -/
def crash : Action σ α :=
  ofFunction fun w => (.error .crash, w)

/-- The value of a result that may be a failure. -/
def ofExcept (r : Except Failure α) : Action σ α :=
  match r with
  | .ok a => pure a
  | .error failure => fail failure

/-- Reports an event. -/
def report (level : Level) (reporter : Reporter) (message : String) : Action σ Unit :=
  ofFunction fun w => (.ok (), { w with events := w.events ++ [⟨level, reporter, message⟩] })

/-- Reports events. -/
def reportAll (events : List Event) : Action σ Unit :=
  ofFunction fun w => (.ok (), { w with events := w.events ++ events })

/-- The files. -/
def files : Action σ FileTree :=
  ofFunction fun w => (.ok w.files, w)

/-- Asks something of the files. -/
def ask (f : FileTree → Except Fault α) : Action σ α :=
  ofFunction fun w =>
    match f w.files with
    | .ok a => (.ok a, w)
    | .error fault => (.error (.failure (.io fault)), w)

/-- Asks for a deed, and tells whether it was done. -/
def tryRequest (d : Deed) : Action σ (Except Fault Unit) :=
  ofFunction fun w => (.ok (d.perform w.files).1, w.after d)

/-- Asks for a deed, and fails if it is refused. -/
def request (d : Deed) : Action σ Unit :=
  ofFunction fun w =>
    ((d.perform w.files).1.mapError fun fault => .failure (.io fault), w.after d)

/-- Calls a tool. What the tool does is no request of the run. -/
def call (runner : Runner σ) (command : ToolCommand) : Action σ ToolOutput :=
  ofFunction fun w =>
    match runner command w with
    | (.ok output, left) => (.ok output, { left with requests := w.requests })
    | (.error failure, left) => (.error (.failure failure), { left with requests := w.requests })

/-- The result of an action as a value, so that what follows is done in any case. -/
def attempt (a : Action σ α) : Action σ (Except Halt α) :=
  ofFunction fun w =>
    let (r, w) := a.run w
    (.ok r, w)

/-- The value that a result is, or the failure. -/
def ofResult (r : Except Halt α) : Action σ α :=
  ofFunction fun w => (r, w)

@[simp]
theorem run_ofFunction (f : World σ → Except Halt α × World σ) (w : World σ) :
    (ofFunction f).run w = f w :=
  rfl

@[simp]
theorem run_pure (a : α) (w : World σ) : (pure a : Action σ α).run w = (.ok a, w) :=
  rfl

@[simp]
theorem run_tryRequest (d : Deed) (w : World σ) :
    (tryRequest d).run w = (.ok (d.perform w.files).1, w.after d) :=
  rfl

/-- A request that goes through. -/
theorem run_request_ok {d : Deed} {w : World σ} {t : FileTree}
    (h : d.perform w.files = (.ok (), t)) :
    (request d).run w =
      (.ok (), { w with files := t, requests := w.requests ++ [⟨w.files, d⟩] }) := by
  rw [request, run_ofFunction, World.after, h]
  rfl

/-- A request that is refused. -/
theorem run_request_error {d : Deed} {w : World σ} {t : FileTree} {fault : Fault}
    (h : d.perform w.files = (.error fault, t)) :
    (request d).run w = (.error (.failure (.io fault)),
      { w with files := t, requests := w.requests ++ [⟨w.files, d⟩] }) := by
  rw [request, run_ofFunction, World.after, h]
  rfl

/-- An action after another one starts in the world that the other one leaves. -/
theorem run_bind (a : Action σ α) (f : α → Action σ β) (w : World σ) :
    (a >>= f).run w =
      match a.run w with
      | (.ok x, w) => (f x).run w
      | (.error h, w) => (.error h, w) := by
  change (ExceptT.bindCont (fun x => f x) (ExceptT.run a w).1).run (ExceptT.run a w).2 = _
  unfold run
  cases hr : (ExceptT.run a).run w with
  | mk r w' =>
    have h₁ : (ExceptT.run a w) = (r, w') := hr
    rw [h₁]
    cases r <;> rfl

/-- If an action after another one succeeds, both do. -/
theorem exists_of_run_bind_eq {a : Action σ α} {f : α → Action σ β} {w left : World σ} {y : β}
    (h : (a >>= f).run w = (.ok y, left)) :
    ∃ x w', a.run w = (.ok x, w') ∧ (f x).run w' = (.ok y, left) := by
  rw [run_bind] at h
  cases ha : a.run w with
  | mk r w' =>
    rw [ha] at h
    cases r with
    | ok x => exact ⟨x, w', rfl, h⟩
    | error e => exact absurd h (by simp)

theorem exists_of_run_bind {a : Action σ α} {f : α → Action σ β} {w : World σ} {y : β}
    (h : ((a >>= f).run w).1 = .ok y) :
    ∃ x w', a.run w = (.ok x, w') ∧ ((f x).run w').1 = .ok y := by
  obtain ⟨x, w', ha, hf⟩ := exists_of_run_bind_eq (Prod.ext h rfl)
  exact ⟨x, w', ha, by rw [hf]⟩

end Action

end TestBench
