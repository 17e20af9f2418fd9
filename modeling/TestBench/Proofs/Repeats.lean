import TestBench.Proofs.FileTree.Retraces
import TestBench.Proofs.World

/-!
# Actions that are repeated

An action *repeats* if it only adds to the files, and if it succeeds in another world with the value
with which it has succeeded in one. What has to be the same in the two worlds is a relation between
their files, which an action finds in one form and leaves in another one. It may take into account
what the first time leads to: there is a tree that extends all that the first time leaves.

An action is built of parts, and if each of its parts repeats, from what the one before leaves, so
does the action (`Repeats.bind_of_yields`). Tools repeat if their reply depends on the command only.

* `Repeats.of_reads`: what only reads repeats if it gives the same;
* `Repeats.call`: a call repeats.
-/

namespace TestBench

open FileTree

variable {σ α β : Type} {F : FileTree} {P : FileTree → Prop}

/-! ### Tools with fixed replies -/

/-- What a tool does with a command: what it answers, and the files that it puts in place. -/
structure FixedReply where
  answer : Except Failure ToolOutput
  files : List FixedFile

/-- Whether the tools reply to each command in one way. What they report and remember may differ. -/
def Runner.RepliesWith (reply : ToolCommand → FixedReply) (runner : Runner σ) : Prop :=
  ∀ command w, (runner command w).1 = (reply command).answer ∧
    (runner command w).2.files = w.files.putAll (reply command).files

/-- Tools that reply in one way, and do nothing else. -/
def Runner.replying (reply : ToolCommand → FixedReply) : Runner σ := fun command w =>
  ((reply command).answer, { w with files := w.files.putAll (reply command).files })

theorem Runner.repliesWith_replying (reply : ToolCommand → FixedReply) :
    (replying reply : Runner σ).RepliesWith reply :=
  fun _ _ => ⟨rfl, rfl⟩

namespace Runner.RepliesWith

variable {reply : ToolCommand → FixedReply} {runner : Runner σ} (h : runner.RepliesWith reply)
include h

theorem keeps (hputs : ∀ command t, P t → P (t.putAll (reply command).files)) :
    runner.Keeps P := by
  intro command w hw
  rw [(h command w).2]
  exact hputs command w.files hw

theorem keeps_extends (t : FileTree) : runner.Keeps (Extends t) :=
  h.keeps fun _ t' ht => ht.trans (.putAll t' _)

theorem keeps_proper : runner.Keeps Proper :=
  h.keeps fun _ _ ht => ht.putAll _

/-- What a call of such tools gives and leaves. -/
theorem run_call (command : ToolCommand) (w : World σ) :
    ((Action.call runner command).run w).1 =
        (reply command).answer.mapError .failure ∧
      ((Action.call runner command).run w).2.files = w.files.putAll (reply command).files := by
  obtain ⟨hanswer, hfiles⟩ := h command w
  rw [TestBench.run_call, hanswer]
  exact ⟨rfl, hfiles⟩

end Runner.RepliesWith

/-! ### Repetition -/

/-- Whether an action only adds to the files, and does in one world what it does in another one: if
    it succeeds in the other one, it succeeds with the same value, as long as the files are related.
    It leaves them related, if there is a tree that extends what it leaves. -/
structure Repeats (F : FileTree) (Q Q' : FileTree → FileTree → Prop) (a : Action σ α) : Prop where
  adds : ∀ t, Keeps (Extends t) a
  again : ∀ w w' x, Q w.files w'.files → (a.run w).1 = .ok x → Extends (a.run w).2.files F →
    (a.run w').1 = .ok x ∧ Q' (a.run w).2.files (a.run w').2.files

namespace Repeats

variable {Q Q' Q'' : FileTree → FileTree → Prop}

/-- What only reads repeats if it gives the same. -/
theorem of_reads {a : Action σ α} (h : OnlyReads a)
    (hsame : ∀ w w' x, Q w.files w'.files → Extends w.files F → (a.run w).1 = .ok x →
      (a.run w').1 = .ok x) : Repeats F Q Q a := by
  refine ⟨fun _ => h.keeps, fun w w' x hQ hx hF => ?_⟩
  rw [h.files_eq w] at hF ⊢
  rw [h.files_eq w']
  exact ⟨hsame w w' x hQ hF hx, hQ⟩

theorem pure (x : α) : Repeats F Q Q (Pure.pure x : Action σ α) :=
  of_reads (.pure x) fun _ _ _ _ _ h => h

theorem report {level : Level} {reporter : Reporter} {message : String} :
    Repeats F Q Q (Action.report level reporter message : Action σ Unit) :=
  of_reads .report fun _ _ _ _ _ h => h

theorem ofExcept (r : Except Failure α) : Repeats F Q Q (Action.ofExcept r : Action σ α) := by
  cases r with
  | ok x => exact .pure x
  | error failure => exact of_reads (.fail failure) fun _ _ _ _ _ h => h

/-- A file that is written both times. -/
theorem writeFile {p : Path} {content : List UInt8}
    (h : ∀ t t' t₁, Q t t' → t.writeFile p content = .ok t₁ → Extends t₁ F →
      ∃ t₁', t'.writeFile p content = .ok t₁' ∧ Q' t₁ t₁') :
    Repeats F Q Q' (Action.request (.writeFile p content) : Action σ Unit) := by
  refine ⟨fun _ => .request fun t ht => Deed.settle_keeps ht fun t' hwrite =>
    ht.trans (.writeFile hwrite), fun w w' x hQ hx hF => ?_⟩
  have hrun : ∀ {w : World σ} {t}, w.files.writeFile p content = .ok t →
      (Action.request (.writeFile p content)).run w = (.ok (), _) := fun hwrite =>
    Action.run_request_ok (congrArg (Deed.settle _) hwrite)
  cases hwrite : w.files.writeFile p content with
  | error fault =>
    have hfails : (Action.request (.writeFile p content)).run w = _ :=
      Action.run_request_error (congrArg (Deed.settle _) hwrite)
    rw [hfails] at hx
    cases hx
  | ok t₁ =>
    rw [hrun hwrite] at hF ⊢
    obtain ⟨t₁', hwrite', hQ'⟩ := h _ _ t₁ hQ hwrite hF
    rw [hrun hwrite']
    exact ⟨rfl, hQ'⟩

/-- An action after another one repeats if both do, with the values that the other one yields. -/
theorem bind_of_yields {R : α → Prop} {a : Action σ α} {f : α → Action σ β}
    (ha : Repeats F Q Q' a) (hyields : Yields R a) (hf : ∀ x, R x → Repeats F Q' Q'' (f x)) :
    Repeats F Q Q'' (a >>= f) := by
  refine ⟨fun t => .bind_of_yields (ha.adds t) hyields fun x hx => (hf x hx).adds t,
    fun w w' y hQ hy hF => ?_⟩
  obtain ⟨x, w₁, hx, hy⟩ := Action.exists_of_run_bind hy
  have hrest : (a >>= f).run w = (f x).run w₁ := by rw [Action.run_bind, hx]
  rw [hrest] at hF ⊢
  have hnext := hf x (hyields w x (by rw [hx]))
  -- What the first action leaves is extended in the end, since the second one only adds to it.
  have hfirst := ha.again w w' x hQ (by rw [hx])
  rw [hx] at hfirst
  obtain ⟨hx', hQ'⟩ := hfirst ((hnext.adds _ w₁ (.refl _)).trans hF)
  generalize hdone : a.run w' = done at hx' hQ'
  obtain ⟨r, w₁'⟩ := done
  obtain rfl := hx'
  have hrest' : (a >>= f).run w' = (f x).run w₁' := by rw [Action.run_bind, hdone]
  rw [hrest']
  exact hnext.again w₁ w₁' y hQ' hy hF

theorem bind {a : Action σ α} {f : α → Action σ β} (ha : Repeats F Q Q' a)
    (hf : ∀ x, Repeats F Q' Q'' (f x)) : Repeats F Q Q'' (a >>= f) :=
  bind_of_yields (R := fun _ => True) ha (fun _ _ _ => trivial) fun x _ => hf x

/-- A call repeats where the tools reply in one way. -/
theorem call {reply : ToolCommand → FixedReply} {runner : Runner σ}
    (hrunner : runner.RepliesWith reply) (command : ToolCommand)
    (h : ∀ t t', Q t t' → Extends (t.putAll (reply command).files) F →
      Q' (t.putAll (reply command).files) (t'.putAll (reply command).files)) :
    Repeats F Q Q' (Action.call runner command) := by
  refine ⟨fun t => .call (hrunner.keeps_extends t) command, fun w w' x hQ hx hF => ?_⟩
  obtain ⟨hanswer, hfiles⟩ := hrunner.run_call command w
  obtain ⟨hanswer', hfiles'⟩ := hrunner.run_call command w'
  rw [hfiles] at hF ⊢
  rw [hfiles']
  exact ⟨hanswer'.trans (hanswer.symm.trans hx), h _ _ hQ hF⟩

end Repeats

end TestBench
