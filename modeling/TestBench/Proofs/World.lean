import TestBench.World

/-!
# What actions keep

An action *keeps* a property of the files if the files have it afterwards whenever they had it
before, whatever the result is. An action is built of parts, and it keeps what all of its parts
keep (`Keeps.bind`). What happens to the files is for the requests and the tools to say; all other
parts leave the files alone, and what they give is a function of the files (`Gives.bind`). In the
same way an action *yields* what its last part does (`Yields.bind`).
-/

namespace TestBench

variable {σ α β : Type} {P : FileTree → Prop}

/-- Whether an action keeps a property of the files. -/
def Keeps (P : FileTree → Prop) (a : Action σ α) : Prop :=
  ∀ w, P w.files → P (a.run w).2.files

/-- Whether the tools keep a property of the files, whatever they are called with. -/
def Runner.Keeps (P : FileTree → Prop) (runner : Runner σ) : Prop :=
  ∀ command w, P w.files → P (runner command w).2.files

/-- Whether all values that an action gives have a property. -/
def Yields (Q : α → Prop) (a : Action σ α) : Prop :=
  ∀ w x, (a.run w).1 = .ok x → Q x

/-- Whether an action leaves the files as they are, and asks for no change of them. -/
structure OnlyReads (a : Action σ α) : Prop where
  files_eq : ∀ w, (a.run w).2.files = w.files
  requests_eq : ∀ w, (a.run w).2.requests = w.requests

/-- Whether an action gives what a function of the files gives, and does no more than to report. -/
def Gives (f : FileTree → Except Halt α) (a : Action σ α) : Prop :=
  ∀ w, ∃ events, a.run w = (f w.files, { w with events })

theorem OnlyReads.keeps {a : Action σ α} (h : OnlyReads a) : Keeps P a := by
  intro w hw
  rwa [h.files_eq]

namespace OnlyReads

theorem pure (x : α) : OnlyReads (Pure.pure x : Action σ α) :=
  ⟨fun _ => rfl, fun _ => rfl⟩

theorem fail (failure : Failure) : OnlyReads (Action.fail failure : Action σ α) :=
  ⟨fun _ => rfl, fun _ => rfl⟩

theorem crash : OnlyReads (Action.crash : Action σ α) :=
  ⟨fun _ => rfl, fun _ => rfl⟩

theorem ofExcept (r : Except Failure α) : OnlyReads (Action.ofExcept r : Action σ α) := by
  cases r with
  | ok x => exact pure x
  | error failure => exact fail failure

theorem ofResult (r : Except Halt α) : OnlyReads (Action.ofResult r : Action σ α) :=
  ⟨fun _ => rfl, fun _ => rfl⟩

theorem report {level : Level} {reporter : Reporter} {message : String} :
    OnlyReads (Action.report level reporter message : Action σ Unit) :=
  ⟨fun _ => rfl, fun _ => rfl⟩

theorem reportAll (events : List Event) : OnlyReads (Action.reportAll events : Action σ Unit) :=
  ⟨fun _ => rfl, fun _ => rfl⟩

theorem files : OnlyReads (Action.files : Action σ FileTree) :=
  ⟨fun _ => rfl, fun _ => rfl⟩

theorem ask (f : FileTree → Except Fault α) : OnlyReads (Action.ask f : Action σ α) := by
  have hworld : ∀ w : World σ, ((Action.ask f).run w).2 = w := by
    intro w
    rw [Action.ask, Action.run_ofFunction]
    split <;> rfl
  exact ⟨fun w => by rw [hworld], fun w => by rw [hworld]⟩

theorem bind {a : Action σ α} {f : α → Action σ β} (ha : OnlyReads a) (hf : ∀ x, OnlyReads (f x)) :
    OnlyReads (a >>= f) := by
  have hworld : ∀ w, ((a >>= f).run w).2.files = w.files ∧
      ((a >>= f).run w).2.requests = w.requests := by
    intro w
    have hfiles := ha.files_eq w
    have hrequests := ha.requests_eq w
    rw [Action.run_bind]
    generalize a.run w = done at hfiles hrequests ⊢
    obtain ⟨halt | x, w'⟩ := done
    · exact ⟨hfiles, hrequests⟩
    · exact ⟨((hf x).files_eq w').trans hfiles, ((hf x).requests_eq w').trans hrequests⟩
  exact ⟨fun w => (hworld w).1, fun w => (hworld w).2⟩

theorem attempt {a : Action σ α} (ha : OnlyReads a) : OnlyReads (Action.attempt a) :=
  ⟨ha.files_eq, ha.requests_eq⟩

end OnlyReads

namespace Gives

theorem onlyReads {f : FileTree → Except Halt α} {a : Action σ α} (h : Gives f a) :
    OnlyReads a := by
  have hworld : ∀ w, ∃ events, (a.run w).2 = { w with events } := by
    intro w
    obtain ⟨events, hrun⟩ := h w
    exact ⟨events, by rw [hrun]⟩
  constructor
  · intro w
    obtain ⟨events, hleft⟩ := hworld w
    rw [hleft]
  · intro w
    obtain ⟨events, hleft⟩ := hworld w
    rw [hleft]

theorem value {f : FileTree → Except Halt α} {a : Action σ α} (h : Gives f a) (w : World σ) :
    (a.run w).1 = f w.files := by
  obtain ⟨events, hrun⟩ := h w
  rw [hrun]

theorem pure (x : α) : Gives (fun _ => .ok x) (Pure.pure x : Action σ α) :=
  fun w => ⟨w.events, rfl⟩

theorem ofResult (r : Except Halt α) : Gives (fun _ => r) (Action.ofResult r : Action σ α) :=
  fun w => ⟨w.events, rfl⟩

theorem report {level : Level} {reporter : Reporter} {message : String} :
    Gives (fun _ => .ok ()) (Action.report level reporter message : Action σ Unit) :=
  fun _ => ⟨_, rfl⟩

theorem reportAll (events : List Event) :
    Gives (fun _ => .ok ()) (Action.reportAll events : Action σ Unit) :=
  fun _ => ⟨_, rfl⟩

theorem ask (f : FileTree → Except Fault α) :
    Gives (fun t => (f t).mapError fun fault => .failure (.io fault))
      (Action.ask f : Action σ α) := by
  intro w
  refine ⟨w.events, ?_⟩
  change _ = ((f w.files).mapError _, w)
  rw [Action.ask, Action.run_ofFunction]
  cases f w.files <;> rfl

/-- An action after another one gives what follows from the value of the other one. -/
theorem bind {f : FileTree → Except Halt α} {g : α → FileTree → Except Halt β} {a : Action σ α}
    {b : α → Action σ β} (ha : Gives f a) (hb : ∀ x, Gives (g x) (b x)) :
    Gives (fun t => (f t).bind fun x => g x t) (a >>= b) := by
  intro w
  obtain ⟨events, hrun⟩ := ha w
  change ∃ events, _ = ((f w.files).bind fun x => g x w.files, _)
  rw [Action.run_bind, hrun]
  cases f w.files with
  | error halt => exact ⟨events, rfl⟩
  | ok x => exact hb x { w with events }

/-- An action after one that always gives the same value. -/
theorem «then» {f : FileTree → Except Halt β} {x : α} {a : Action σ α} {b : α → Action σ β}
    (ha : Gives (fun _ => .ok x) a) (hb : Gives f (b x)) : Gives f (a >>= b) := by
  intro w
  obtain ⟨events, hrun⟩ := ha w
  rw [Action.run_bind, hrun]
  exact hb { w with events }

end Gives

/-- A call gives the answer of the tools, and leaves what they leave. -/
theorem run_call (runner : Runner σ) (command : ToolCommand) (w : World σ) :
    (Action.call runner command).run w = ((runner command w).1.mapError .failure,
      { (runner command w).2 with requests := w.requests }) := by
  rw [Action.call, Action.run_ofFunction]
  split
  next h => rw [h]; rfl
  next h => rw [h]; rfl

namespace Keeps

/-- A request keeps what the deed keeps. -/
theorem request {d : Deed} (h : ∀ t, P t → P (d.perform t).2) :
    Keeps P (Action.request d : Action σ Unit) :=
  fun w hw => h w.files hw

theorem tryRequest {d : Deed} (h : ∀ t, P t → P (d.perform t).2) :
    Keeps P (Action.tryRequest d : Action σ (Except Fault Unit)) :=
  fun w hw => h w.files hw

theorem writeFile {p : Path} {content : List UInt8}
    (h : ∀ t t', P t → t.writeFile p content = .ok t' → P t') :
    Keeps P (Action.request (.writeFile p content) : Action σ Unit) :=
  .request fun t ht => Deed.settle_keeps ht fun t' => h t t' ht

/-- A call keeps what the tools keep. -/
theorem call {runner : Runner σ} (h : runner.Keeps P) (command : ToolCommand) :
    Keeps P (Action.call runner command) := by
  intro w hw
  rw [run_call]
  exact h command w hw

/-- An action after another one, with the values that the other one yields. -/
theorem bind_of_yields {R : α → Prop} {a : Action σ α} {f : α → Action σ β} (ha : Keeps P a)
    (hyields : Yields R a) (hf : ∀ x, R x → Keeps P (f x)) : Keeps P (a >>= f) := by
  intro w hw
  have ha := ha w hw
  have hyields := hyields w
  rw [Action.run_bind]
  generalize a.run w = done at ha hyields ⊢
  obtain ⟨halt | x, w'⟩ := done
  · exact ha
  · exact hf x (hyields x rfl) w' ha

/-- An action after another one keeps what the two keep. -/
theorem bind {a : Action σ α} {f : α → Action σ β} (ha : Keeps P a) (hf : ∀ x, Keeps P (f x)) :
    Keeps P (a >>= f) :=
  bind_of_yields (R := fun _ => True) ha (fun _ _ _ => trivial) fun x _ => hf x

/-- What is done with the files starts with these files. -/
theorem files_bind {f : FileTree → Action σ β}
    (hf : ∀ w, P w.files → P ((f w.files).run w).2.files) : Keeps P (Action.files >>= f) := by
  intro w hw
  rw [Action.run_bind]
  exact hf w hw

theorem attempt {a : Action σ α} (ha : Keeps P a) : Keeps P (Action.attempt a) :=
  ha

end Keeps

namespace Yields

variable {Q : β → Prop}

theorem pure {x : β} (h : Q x) : Yields Q (Pure.pure x : Action σ β) := by
  intro w y hy
  exact Except.ok.inj hy ▸ h

theorem ofResult {r : Except Halt β} (h : ∀ x, r = .ok x → Q x) :
    Yields Q (Action.ofResult r : Action σ β) :=
  fun _ x hx => h x hx

theorem ask {f : FileTree → Except Fault β} (h : ∀ t x, f t = .ok x → Q x) :
    Yields Q (Action.ask f : Action σ β) := by
  intro w x hx
  rw [Action.ask, Action.run_ofFunction] at hx
  split at hx
  next y hy => exact h _ _ (hy.trans (congrArg Except.ok (Except.ok.inj hx)))
  next => cases hx

/-- An action after another one gives its own values, each after one of the other. -/
theorem bind {R : α → Prop} {a : Action σ α} {f : α → Action σ β} (ha : Yields R a)
    (hf : ∀ x, R x → Yields Q (f x)) : Yields Q (a >>= f) := by
  intro w y hy
  obtain ⟨x, w', hx, hy⟩ := Action.exists_of_run_bind hy
  exact hf x (ha w x (by rw [hx])) w' y hy

/-- What the values of an action follow from does not always matter. -/
theorem of_bind {a : Action σ α} {f : α → Action σ β} (hf : ∀ x, Yields Q (f x)) :
    Yields Q (a >>= f) :=
  bind (R := fun _ => True) (fun _ _ _ => trivial) fun x _ => hf x

end Yields

end TestBench
