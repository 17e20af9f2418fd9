import TestBench.Proofs.Stages.Calls
import TestBench.Proofs.Tool.Quiet

/-!
# Exchanges with tools

What a tool answers may depend on all that was exchanged with the tools before, on its command and
on the files; besides, it may change the files as it likes. Tools that behave in such a way
remember every exchange (`Behaviour.runner`), and what a run exchanged with them is what they
remember at its end.

An action *speaks* to programs if it calls them in turn, up to and including the first whose call
fails, and ends as that call says (`Talk`).

* `Talk.prefix_programs`: what was called is the start of what was to be called;
* `Talk.last_of_failed`, `Talk.last_of_refused`: after a call that fails nothing is called, and its
  failure is that of the action;
* `Speaks.bind`: an action after another one speaks to what the two speak to.
-/

namespace TestBench

variable {σ α β : Type}

/-- A call of a tool: the command, the files that it found, and what it was answered. -/
structure Exchange where
  command : ToolCommand
  files : FileTree
  answer : Except Failure ToolOutput

namespace Exchange

/-- The program that was called. -/
def program (e : Exchange) : String :=
  e.command.program

/-- Whether the program ended, and with status zero. -/
def Succeeds (e : Exchange) : Prop :=
  ∃ output, e.answer = .ok output ∧ output.status = 0

end Exchange

/-- What a tool does: how it answers, the files that it leaves, and what it reports. -/
structure Response where
  answer : Except Failure ToolOutput
  files : FileTree
  events : List Event

/-- How tools behave, given what was exchanged before, a command and the files. -/
abbrev Behaviour := List Exchange → ToolCommand → FileTree → Response

/-- The tools that behave in a way, and remember all that was exchanged with them. -/
def Behaviour.runner (b : Behaviour) : Runner (List Exchange) := fun command w =>
  let response := b w.tools command w.files
  (response.answer, ⟨response.files, w.events ++ response.events,
    w.tools ++ [⟨command, w.files, response.answer⟩], w.requests⟩)

/-! ### Talks -/

/-- Whether exchanges are calls of programs in turn, up to and including the first that fails, and
    how that ends. If it may end `early`, something else may fail while a program is still to be
    called. -/
inductive Talk (early : Prop) : List String → List Exchange → Option Halt → Prop where
  | done : Talk early [] [] none
  | early {program : String} {programs : List String} {halt : Halt} (h : early)
      (hhalt : halt.IsOwn) : Talk early (program :: programs) [] (some halt)
  /-- The tools themselves fail. -/
  | refused {programs : List String} {e : Exchange} {failure : Failure}
      (h : e.answer = .error failure) :
      Talk early (e.program :: programs) [e] (some (.failure failure))
  /-- The program ends with another status than zero. -/
  | failed {programs : List String} {e : Exchange} {output : ToolOutput}
      (h : e.answer = .ok output) (hstatus : output.status ≠ 0) :
      Talk early (e.program :: programs) [e] (some (.failure
        (.toolFailed e.program output.status output.stdout output.stderr)))
  | next {programs : List String} {e : Exchange} {es : List Exchange} {failure : Option Halt}
      (h : e.Succeeds) (hs : Talk early programs es failure) :
      Talk early (e.program :: programs) (e :: es) failure

namespace Talk

variable {early early' : Prop} {programs more : List String} {es es' before after : List Exchange}
  {e : Exchange} {failure : Option Halt} {halt : Halt} {output : ToolOutput} {cause : Failure}

theorem mono (h : early → early') (ht : Talk early programs es failure) :
    Talk early' programs es failure := by
  induction ht with
  | done => exact .done
  | early he hhalt => exact .early (h he) hhalt
  | refused ha => exact .refused ha
  | failed ha hstatus => exact .failed ha hstatus
  | next ha _ ih => exact .next ha ih

theorem append_failed (h : Talk early programs es (some halt)) :
    Talk early (programs ++ more) es (some halt) := by
  -- The induction is on the talk: its outcome is an index of it and has to be a variable.
  generalize hf : some halt = failure at h
  induction h with
  | done => cases hf
  | early he hhalt => exact .early he hhalt
  | refused ha => exact .refused ha
  | failed ha hstatus => exact .failed ha hstatus
  | next ha _ ih => exact .next ha (ih hf)

theorem append (h : Talk early programs es none) (h' : Talk early more es' failure) :
    Talk early (programs ++ more) (es ++ es') failure := by
  generalize hf : none = outcome at h
  induction h with
  | done => exact h'
  | next ha _ ih => exact .next ha (ih hf)
  | _ => cases hf

/-- What was called is the start of what was to be called. -/
theorem prefix_programs (h : Talk early programs es failure) :
    es.map Exchange.program <+: programs := by
  induction h with
  | done => exact List.prefix_rfl
  | early _ _ => exact List.nil_prefix
  | refused _ | failed _ _ => exact (List.prefix_cons_inj _).2 List.nil_prefix
  | next _ _ ih => exact (List.prefix_cons_inj _).2 ih

/-- If nothing fails, all programs are called, and all of them succeed. -/
theorem succeeds (h : Talk early programs es none) :
    es.map Exchange.program = programs ∧ ∀ e ∈ es, e.Succeeds := by
  generalize hf : none = outcome at h
  induction h with
  | done => simp
  | next ha _ ih =>
    obtain ⟨hprograms, hsucceed⟩ := ih hf
    refine ⟨by rw [List.map_cons, hprograms], fun e' he' => ?_⟩
    rcases List.mem_cons.1 he' with rfl | he'
    · exact ha
    · exact hsucceed e' he'
  | _ => cases hf

/-- If nothing else may fail, and all programs that are called succeed, nothing fails. -/
theorem eq_none (hearly : ¬early) (h : Talk early programs es failure)
    (hsucceed : ∀ e ∈ es, e.Succeeds) : failure = none := by
  induction h with
  | done => rfl
  | early he _ => exact absurd he hearly
  | @refused _ e _ ha =>
    obtain ⟨output, hok, -⟩ := hsucceed e List.mem_cons_self
    rw [ha] at hok
    cases hok
  | @failed _ e output ha hstatus =>
    obtain ⟨output', hok, hzero⟩ := hsucceed e List.mem_cons_self
    obtain rfl := Except.ok.inj (ha.symm.trans hok)
    exact absurd hzero hstatus
  | next _ _ ih => exact ih fun e he => hsucceed e (List.mem_cons_of_mem _ he)

/-- Before the end of a talk, all programs succeed. -/
theorem last_of_not_succeeds (h : Talk early programs es failure) (hes : es = before ++ e :: after)
    (he : ¬e.Succeeds) : after = [] ∧
      ((∃ cause, e.answer = .error cause ∧ failure = some (.failure cause)) ∨
        ∃ output, e.answer = .ok output ∧ failure = some (.failure
          (.toolFailed e.program output.status output.stdout output.stderr))) := by
  have hsingle : ∀ {e' : Exchange} {before}, [e'] = before ++ e :: after → after = [] ∧ e' = e := by
    intro e' before h
    rcases List.singleton_eq_append_iff.1 h with ⟨-, h⟩ | ⟨-, h⟩
    · exact ⟨(List.cons.inj h).2, (List.cons.inj h).1.symm⟩
    · cases h
  -- A call that fails ends the talk, so it is the one in question; a call that succeeds is not.
  induction h generalizing before with
  | done => simp at hes
  | early _ _ => simp at hes
  | refused ha =>
    obtain ⟨hafter, rfl⟩ := hsingle hes
    exact ⟨hafter, .inl ⟨_, ha, rfl⟩⟩
  | failed ha hstatus =>
    obtain ⟨hafter, rfl⟩ := hsingle hes
    exact ⟨hafter, .inr ⟨_, ha, rfl⟩⟩
  | next ha _ ih =>
    cases before with
    | nil =>
      obtain ⟨rfl, rfl⟩ := List.cons.inj hes
      exact absurd ha he
    | cons e' before => exact ih (List.cons.inj hes).2

/-- After a program that fails nothing is called, and its failure is passed on. -/
theorem last_of_failed (h : Talk early programs (before ++ e :: after) failure)
    (ha : e.answer = .ok output) (hstatus : output.status ≠ 0) :
    after = [] ∧ failure = some (.failure
      (.toolFailed e.program output.status output.stdout output.stderr)) := by
  have he : ¬e.Succeeds := by
    rintro ⟨output', hok, hzero⟩
    obtain rfl := Except.ok.inj (ha.symm.trans hok)
    exact hstatus hzero
  obtain ⟨hafter, ⟨cause, hcause, -⟩ | ⟨output', hok, hfailure⟩⟩ := h.last_of_not_succeeds rfl he
  · rw [ha] at hcause
    cases hcause
  · obtain rfl := Except.ok.inj (ha.symm.trans hok)
    exact ⟨hafter, hfailure⟩

/-- After a call that the tools themselves fail nothing is called, and their failure is passed
    on. -/
theorem last_of_refused (h : Talk early programs (before ++ e :: after) failure)
    (ha : e.answer = .error cause) : after = [] ∧ failure = some (.failure cause) := by
  have he : ¬e.Succeeds := by
    rintro ⟨output, hok, -⟩
    rw [ha] at hok
    cases hok
  obtain ⟨hafter, ⟨cause', hcause, hfailure⟩ | ⟨output, hok, -⟩⟩ := h.last_of_not_succeeds rfl he
  · obtain rfl := Except.error.inj (ha.symm.trans hcause)
    exact ⟨hafter, hfailure⟩
  · rw [ha] at hok
    cases hok

/-- That a tool did not succeed is the answer to the last call. -/
theorem answer_of_toolFailed {tool : String} {status : Int} {stdout stderr : String}
    (h : Talk early programs es (some (.failure (.toolFailed tool status stdout stderr)))) :
    ∃ before e, es = before ++ [e] ∧
      (e.program = tool ∧ e.answer = .ok ⟨status, stdout, stderr⟩ ∧ status ≠ 0 ∨
        e.answer = .error (.toolFailed tool status stdout stderr)) := by
  generalize hf : some (Halt.failure (.toolFailed tool status stdout stderr)) = failure at h
  induction h with
  | done => cases hf
  | early _ hhalt =>
    obtain rfl := Option.some.inj hf
    exact hhalt.elim
  | @refused _ e _ ha =>
    obtain rfl := Halt.failure.inj (Option.some.inj hf)
    exact ⟨[], e, rfl, .inr ha⟩
  | @failed _ e output ha hstatus =>
    obtain ⟨rfl, rfl, rfl, rfl⟩ := Failure.toolFailed.inj (Halt.failure.inj (Option.some.inj hf))
    exact ⟨[], e, rfl, .inl ⟨rfl, ha, hstatus⟩⟩
  | @next _ e _ _ _ _ ih =>
    obtain ⟨before, last, rfl, hlast⟩ := ih hf
    exact ⟨e :: before, last, rfl, hlast⟩

end Talk

/-! ### Actions that speak -/

/-- Whether an action calls programs in turn, and only that may fail. -/
def Speaks (programs : List String) (a : Action (List Exchange) α) : Prop :=
  ∀ w, ∃ es, (a.run w).2.tools = w.tools ++ es ∧ Talk False programs es (failureOf (a.run w).1)

namespace Speaks

variable {programs more : List String}

/-- A quiet action that does not fail speaks to nobody. -/
theorem of_quiet {a : Action (List Exchange) α} (ha : Quiet (fun _ => False) a) :
    Speaks [] a := by
  intro w
  refine ⟨[], by rw [(ha w).1, List.append_nil], ?_⟩
  cases h : (a.run w).1 with
  | ok x => exact .done
  | error halt => exact ((ha w).2 halt h).elim

/-- An action after another one speaks to what the two speak to. -/
theorem bind {a : Action (List Exchange) α} {f : α → Action (List Exchange) β}
    (ha : Speaks programs a) (hf : ∀ x, Speaks more (f x)) :
    Speaks (programs ++ more) (a >>= f) := by
  intro w
  obtain ⟨es, htools, htalk⟩ := ha w
  rw [Action.run_bind]
  generalize a.run w = done at htools htalk ⊢
  obtain ⟨halt | x, w'⟩ := done
  -- If the first action fails, the programs of the second one are left, and none is called.
  · exact ⟨es, htools, htalk.append_failed⟩
  · obtain ⟨es', htools', htalk'⟩ := hf x w'
    refine ⟨es ++ es', ?_, htalk.append htalk'⟩
    rw [← List.append_assoc, ← htools]
    exact htools'

/-- What is quiet may come before. -/
theorem quiet_bind {a : Action (List Exchange) α} {f : α → Action (List Exchange) β}
    (ha : Quiet (fun _ => False) a) (hf : ∀ x, Speaks programs (f x)) :
    Speaks programs (a >>= f) :=
  (of_quiet ha).bind hf

/-- What is quiet may come after. -/
theorem bind_quiet {a : Action (List Exchange) α} {f : α → Action (List Exchange) β}
    (ha : Speaks programs a) (hf : ∀ x, Quiet (fun _ => False) (f x)) :
    Speaks programs (a >>= f) := by
  have hbind := ha.bind fun x => of_quiet (hf x)
  rwa [List.append_nil] at hbind

/-- A call whose output has to be that of success. -/
theorem call (b : Behaviour) (command : ToolCommand) :
    Speaks [command.program] (Action.call b.runner command >>= fun output =>
      Action.ofExcept (output.check command.program)) := by
  intro w
  refine ⟨[⟨command, w.files, (b w.tools command w.files).answer⟩], ?_⟩
  rw [Action.run_bind, Action.call, Action.run_ofFunction, Behaviour.runner]
  cases h : (b w.tools command w.files).answer with
  | error failure => exact ⟨rfl, .refused (e := ⟨command, w.files, .error failure⟩) rfl⟩
  | ok output =>
    let e : Exchange := ⟨command, w.files, .ok output⟩
    by_cases hstatus : output.status = 0
    · have hcheck : output.check command.program = .ok output :=
        ToolOutput.check_eq_ok_iff.2 ⟨hstatus, rfl⟩
      simp only [hcheck]
      exact ⟨rfl, .next (e := e) ⟨output, rfl, hstatus⟩ .done⟩
    · have hcheck : output.check command.program =
          .error (.toolFailed command.program output.status output.stdout output.stderr) := by
        simp [ToolOutput.check, ToolOutput.success, hstatus]
      simp only [hcheck]
      exact ⟨rfl, .failed (e := e) rfl hstatus⟩

/-- A call whose output has to be that of success, and what follows. -/
theorem call_bind (b : Behaviour) (command : ToolCommand)
    {f : ToolOutput → Action (List Exchange) β} (hf : ∀ x, Speaks programs (f x)) :
    Speaks (command.program :: programs) (Action.call b.runner command >>= fun output =>
      Action.ofExcept (output.check command.program) >>= f) := by
  rw [← bind_assoc]
  exact (call b command).bind hf

end Speaks

end TestBench
