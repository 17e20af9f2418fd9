import TestBench.Proofs.Tool.Quiet

/-!
# What an action calls

The commands that an action calls are found by noting each of them when it is answered
(`recording`), whatever the answers are. An action is built of parts, and it calls only what one
of its parts calls (`CallsOnly.bind`); all parts but the calls themselves are quiet.

* `forall_mem_calls`: what an action may call at most, it calls at most in every world.
-/

namespace TestBench

variable {σ α β : Type}

/-- Answers commands as a runner does, and notes them. -/
def recording (runner : Runner σ) : Runner (σ × List ToolCommand) := fun command w =>
  let answered := runner command ⟨w.files, w.events, w.tools.1, w.requests⟩
  (answered.1, ⟨answered.2.files, answered.2.events, (answered.2.tools, w.tools.2 ++ [command]),
    answered.2.requests⟩)

/-- The commands that an action calls in a world. -/
def calls (a : Action (σ × List ToolCommand) α) (w : World σ) : List ToolCommand :=
  (a.run ⟨w.files, w.events, (w.tools, []), w.requests⟩).2.tools.2

/-- A call is noted, whatever is answered. -/
theorem noted_call (runner : Runner σ) (command : ToolCommand)
    (w : World (σ × List ToolCommand)) :
    ((Action.call (recording runner) command).run w).2.tools.2 = w.tools.2 ++ [command] := by
  rw [run_call]
  rfl

/-- Whether all commands that an action calls have a property. -/
def CallsOnly (P : ToolCommand → Prop) (a : Action (σ × List ToolCommand) α) : Prop :=
  ∀ w, (∀ c ∈ w.tools.2, P c) → ∀ c ∈ (a.run w).2.tools.2, P c

theorem forall_mem_calls {P : ToolCommand → Prop} {a : Action (σ × List ToolCommand) α}
    (h : CallsOnly P a) (w : World σ) : ∀ c ∈ calls a w, P c :=
  h _ (by simp)

namespace CallsOnly

variable {P : ToolCommand → Prop}

/-- A quiet action calls nothing. -/
theorem of_quiet {Q : Halt → Prop} {a : Action (σ × List ToolCommand) α} (h : Quiet Q a) :
    CallsOnly P a := by
  intro w hw
  rw [(h w).1]
  exact hw

theorem pure (x : α) : CallsOnly P (Pure.pure x : Action (σ × List ToolCommand) α) :=
  of_quiet (Q := fun _ => False) (.pure x)

theorem report {level : Level} {reporter : Reporter} {message : String} :
    CallsOnly P (Action.report level reporter message : Action (σ × List ToolCommand) Unit) :=
  of_quiet (Q := fun _ => False) .report

theorem request (d : Deed) :
    CallsOnly P (Action.request d : Action (σ × List ToolCommand) Unit) :=
  of_quiet (Q := fun _ => True) (.request fun _ => trivial)

theorem ofExcept (r : Except Failure α) :
    CallsOnly P (Action.ofExcept r : Action (σ × List ToolCommand) α) :=
  of_quiet (Q := fun _ => True) (.ofExcept fun _ _ => trivial)

/-- A call calls its command. -/
theorem call (runner : Runner σ) {command : ToolCommand} (h : P command) :
    CallsOnly P (Action.call (recording runner) command) := by
  intro w hw c hc
  rw [noted_call] at hc
  rcases List.mem_append.1 hc with hc | hc
  · exact hw c hc
  · rwa [List.mem_singleton.1 hc]

/-- An action after another one calls what the two call. -/
theorem bind {a : Action (σ × List ToolCommand) α} {f : α → Action (σ × List ToolCommand) β}
    (ha : CallsOnly P a) (hf : ∀ x, CallsOnly P (f x)) : CallsOnly P (a >>= f) := by
  intro w hw
  rw [Action.run_bind]
  have ha := ha w hw
  split
  next x w' hx =>
    rw [hx] at ha
    exact hf x w' ha
  next e w' hx =>
    rw [hx] at ha
    exact ha

end CallsOnly

end TestBench
