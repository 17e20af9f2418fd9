import TestBench.Proofs.World

/-!
# Actions that call nothing

A *quiet* action leaves the tools alone, so that it calls none of them, and halts in some ways only.
If it leaves the files alone as well, it *reads*: nothing that it does can be seen but its result
and what it reports.

* `Quiet.bind`, `Reads.bind`: an action after another one is quiet if the two are, and reads if the
  two do.
-/

namespace TestBench

variable {σ α β : Type}

/-- Whether a computation ended for another cause than that a tool did not succeed. -/
def Halt.IsOwn : Halt → Prop
  | .failure (.toolFailed ..) => False
  | _ => True

/-- Whether an action calls nothing, and halts only in some ways. -/
def Quiet (Q : Halt → Prop) (a : Action σ α) : Prop :=
  ∀ w, (a.run w).2.tools = w.tools ∧ ∀ halt, (a.run w).1 = .error halt → Q halt

namespace Quiet

variable {Q Q' : Halt → Prop}

theorem mono {a : Action σ α} (ha : Quiet Q a) (h : ∀ halt, Q halt → Q' halt) : Quiet Q' a :=
  fun w => ⟨(ha w).1, fun halt hhalt => h halt ((ha w).2 halt hhalt)⟩

theorem pure (x : α) : Quiet Q (Pure.pure x : Action σ α) :=
  fun _ => ⟨rfl, fun _ h => by cases h⟩

theorem fail {failure : Failure} (h : Q (.failure failure)) :
    Quiet Q (Action.fail failure : Action σ α) :=
  fun _ => ⟨rfl, fun _ hhalt => Except.error.inj hhalt ▸ h⟩

theorem ofResult {r : Except Halt α} (h : ∀ halt, r = .error halt → Q halt) :
    Quiet Q (Action.ofResult r : Action σ α) :=
  fun _ => ⟨rfl, h⟩

theorem ofExcept {r : Except Failure α} (h : ∀ failure, r = .error failure → Q (.failure failure)) :
    Quiet Q (Action.ofExcept r : Action σ α) := by
  cases r with
  | ok x => exact pure x
  | error failure => exact fail (h failure rfl)

theorem report {level : Level} {reporter : Reporter} {message : String} :
    Quiet Q (Action.report level reporter message : Action σ Unit) :=
  fun _ => ⟨rfl, fun _ h => by cases h⟩

theorem reportAll (events : List Event) : Quiet Q (Action.reportAll events : Action σ Unit) :=
  fun _ => ⟨rfl, fun _ h => by cases h⟩

theorem files : Quiet Q (Action.files : Action σ FileTree) :=
  fun _ => ⟨rfl, fun _ h => by cases h⟩

theorem ask {f : FileTree → Except Fault α} (h : ∀ fault, Q (.failure (.io fault))) :
    Quiet Q (Action.ask f : Action σ α) := by
  intro w
  rw [Action.ask, Action.run_ofFunction]
  split
  · exact ⟨rfl, fun _ h => by cases h⟩
  · exact ⟨rfl, fun _ hhalt => Except.error.inj hhalt ▸ h _⟩

theorem tryRequest (d : Deed) : Quiet Q (Action.tryRequest d : Action σ (Except Fault Unit)) :=
  fun _ => ⟨rfl, fun _ h => by cases h⟩

theorem request {d : Deed} (h : ∀ fault, Q (.failure (.io fault))) :
    Quiet Q (Action.request d : Action σ Unit) := by
  intro w
  refine ⟨rfl, fun halt hhalt => ?_⟩
  rw [Action.request, Action.run_ofFunction] at hhalt
  generalize d.perform w.files = done at hhalt
  obtain ⟨fault | _, t⟩ := done
  · exact Except.error.inj hhalt ▸ h fault
  · cases hhalt

theorem attempt {a : Action σ α} (ha : Quiet Q a) : Quiet Q' (Action.attempt a) :=
  fun w => ⟨(ha w).1, fun _ h => by cases h⟩

theorem bind {a : Action σ α} {f : α → Action σ β} (ha : Quiet Q a) (hf : ∀ x, Quiet Q (f x)) :
    Quiet Q (a >>= f) := by
  intro w
  have ha := ha w
  rw [Action.run_bind]
  generalize a.run w = done at ha ⊢
  obtain ⟨halt | x, w'⟩ := done
  · exact ⟨ha.1, fun _ h => ha.2 _ (Except.error.inj h ▸ rfl)⟩
  · exact ⟨(hf x w').1.trans ha.1, (hf x w').2⟩

end Quiet

/-! ### Actions that read -/

/-- Whether an action changes nothing but the events, and halts only in some ways. -/
structure Reads (Q : Halt → Prop) (a : Action σ α) : Prop where
  onlyReads : OnlyReads a
  quiet : Quiet Q a

namespace Reads

variable {Q Q' : Halt → Prop}

theorem pure (x : α) : Reads Q (Pure.pure x : Action σ α) :=
  ⟨.pure x, .pure x⟩

theorem fail {failure : Failure} (h : Q (.failure failure)) :
    Reads Q (Action.fail failure : Action σ α) :=
  ⟨.fail failure, .fail h⟩

theorem ofResult {r : Except Halt α} (h : ∀ halt, r = .error halt → Q halt) :
    Reads Q (Action.ofResult r : Action σ α) :=
  ⟨.ofResult r, .ofResult h⟩

theorem report {level : Level} {reporter : Reporter} {message : String} :
    Reads Q (Action.report level reporter message : Action σ Unit) :=
  ⟨.report, .report⟩

theorem reportAll (events : List Event) : Reads Q (Action.reportAll events : Action σ Unit) :=
  ⟨.reportAll events, .reportAll events⟩

theorem files : Reads Q (Action.files : Action σ FileTree) :=
  ⟨.files, .files⟩

theorem ask {f : FileTree → Except Fault α} (h : ∀ fault, Q (.failure (.io fault))) :
    Reads Q (Action.ask f : Action σ α) :=
  ⟨.ask f, .ask h⟩

theorem attempt {a : Action σ α} (ha : Reads Q a) : Reads Q' (Action.attempt a) :=
  ⟨.attempt ha.onlyReads, .attempt ha.quiet⟩

theorem bind {a : Action σ α} {f : α → Action σ β} (ha : Reads Q a) (hf : ∀ x, Reads Q (f x)) :
    Reads Q (a >>= f) :=
  ⟨.bind ha.onlyReads fun x => (hf x).onlyReads, .bind ha.quiet fun x => (hf x).quiet⟩

end Reads

end TestBench
