import Mathlib.Logic.Relation
import TestBench.Proofs.FileTree.Proper
import TestBench.Proofs.Tool.Quiet

/-!
# What is asked of the files

What a program does to its world is made of three kinds of *acts*: it reports, it asks for a deed,
which is noted with the files that it finds, and it calls a tool, which does what it likes. So the
requests that are noted between two worlds are all that a program itself has done to the files.

An action *asks* only for deeds of some kind if this holds of each request that it notes, however
it ends (`Asks`). The kind of a deed may depend on the files that it finds.

* `AsksAt.request`: a request notes itself;
* `Asks.call`: a call notes nothing;
* `AsksAt.bind`: an action after another one asks for what the two ask for.
-/

namespace TestBench

open FileTree Relation

variable {σ α β : Type} {D : FileTree → Deed → Prop} {runner : Runner σ} {t t' : FileTree}

namespace Deed

/-- A deed leaves proper files. -/
theorem proper_perform (d : Deed) (ht : t.Proper) : (d.perform t).2.Proper := by
  cases d with
  | makeDirectories p => exact ht.makeDirectories p
  | createFile p => exact settle_keeps ht fun _ h => ht.createFile h
  | writeFile p content => exact settle_keeps ht fun _ h => ht.writeFile h
  | removeFile p => exact settle_keeps ht fun _ h => ht.removeFile h
  | removeTree p => exact ht.removeTree p

/-- What is done as a whole or not at all, and has changed anything, is done. -/
theorem exists_of_settle {r : Except Fault FileTree} {l : Location}
    (h : (settle t r).2.lookup l ≠ t.lookup l) : ∃ t', r = .ok t' ∧ t'.lookup l ≠ t.lookup l := by
  cases r with
  | error fault => exact absurd rfl h
  | ok t' => exact ⟨t', rfl, h⟩

end Deed

/-! ### Acts -/

/-- What a program may do next: it reports, it asks for a deed, or it calls a tool. -/
inductive Act (runner : Runner σ) : World σ → World σ → Prop where
  | report (w : World σ) (events : List Event) : Act runner w { w with events := events }
  | request (w : World σ) (d : Deed) : Act runner w (w.after d)
  | call (w : World σ) (command : ToolCommand) :
      Act runner w { (runner command w).2 with requests := w.requests }

/-- Whether the requests that are noted from one world to another are of a kind. -/
def NotesOnly (D : FileTree → Deed → Prop) (w left : World σ) : Prop :=
  ∃ made, left.requests = w.requests ++ made ∧ ∀ r ∈ made, D r.files r.deed

theorem NotesOnly.of_eq {w left : World σ} (h : left.requests = w.requests) :
    NotesOnly D w left :=
  ⟨[], by rw [h, List.append_nil], by simp⟩

theorem NotesOnly.trans {w w' left : World σ} (h : NotesOnly D w w') (h' : NotesOnly D w' left) :
    NotesOnly D w left := by
  obtain ⟨made, hmade, hall⟩ := h
  obtain ⟨made', hmade', hall'⟩ := h'
  refine ⟨made ++ made', by rw [hmade', hmade, List.append_assoc], fun r hr => ?_⟩
  rcases List.mem_append.1 hr with hr | hr
  · exact hall r hr
  · exact hall' r hr

/-- What an action does in a world: it acts, asks for deeds of a kind only, and leaves proper
    files. -/
structure AsksAt (D : FileTree → Deed → Prop) (runner : Runner σ) (a : Action σ α) (w : World σ) :
    Prop where
  acts : ReflTransGen (Act runner) w (a.run w).2
  notes : NotesOnly D w (a.run w).2
  proper : (a.run w).2.files.Proper

/-- Whether an action asks for deeds of a kind only, in all worlds with proper files. -/
def Asks (D : FileTree → Deed → Prop) (runner : Runner σ) (a : Action σ α) : Prop :=
  ∀ w, w.files.Proper → AsksAt D runner a w

/-- An action after another one asks for what the two ask for. -/
theorem AsksAt.bind {a : Action σ α} {f : α → Action σ β} {w : World σ} (ha : AsksAt D runner a w)
    (hf : ∀ x w', a.run w = (.ok x, w') → AsksAt D runner (f x) w') :
    AsksAt D runner (a >>= f) w := by
  obtain ⟨hacts, hnotes, hproper⟩ := ha
  have hrun := Action.run_bind a f w
  generalize a.run w = done at hacts hnotes hproper hrun hf
  obtain ⟨halt | x, w'⟩ := done
  · exact ⟨by rwa [hrun], by rwa [hrun], by rwa [hrun]⟩
  · obtain ⟨hacts', hnotes', hproper'⟩ := hf x w' rfl
    exact ⟨by rw [hrun]; exact hacts.trans hacts', by rw [hrun]; exact hnotes.trans hnotes',
      by rwa [hrun]⟩

theorem notesOnly_after {w : World σ} {d : Deed} (h : D w.files d) : NotesOnly D w (w.after d) :=
  ⟨[⟨w.files, d⟩], rfl, by simpa⟩

/-- A request notes itself. -/
theorem AsksAt.request {w : World σ} {d : Deed} (hw : w.files.Proper) (h : D w.files d) :
    AsksAt D runner (Action.request d) w :=
  ⟨.single (.request w d), notesOnly_after h, d.proper_perform hw⟩

namespace Asks

variable {Q : Halt → Prop}

/-- What only reads asks for nothing. -/
theorem of_reads {a : Action σ α} (h : Reads Q a) : Asks D runner a := by
  intro w hw
  have hfiles := h.onlyReads.files_eq w
  have hrequests := h.onlyReads.requests_eq w
  have htools := (h.quiet w).1
  refine ⟨?_, .of_eq hrequests, by rwa [hfiles]⟩
  generalize (a.run w).2 = left at hfiles hrequests htools
  obtain ⟨files, events, tools, requests⟩ := left
  obtain rfl : files = w.files := hfiles
  obtain rfl : tools = w.tools := htools
  obtain rfl : requests = w.requests := hrequests
  exact .single (.report w events)

theorem pure (x : α) : Asks D runner (Pure.pure x : Action σ α) :=
  of_reads (Q := fun _ => False) (.pure x)

theorem report {level : Level} {reporter : Reporter} {message : String} :
    Asks D runner (Action.report level reporter message : Action σ Unit) :=
  of_reads (Q := fun _ => False) .report

theorem ofResult (r : Except Halt α) : Asks D runner (Action.ofResult r : Action σ α) :=
  of_reads (Q := fun _ => True) (.ofResult fun _ _ => trivial)

theorem fail (failure : Failure) : Asks D runner (Action.fail failure : Action σ α) :=
  of_reads (Q := fun _ => True) (.fail trivial)

theorem ofExcept (r : Except Failure α) : Asks D runner (Action.ofExcept r : Action σ α) := by
  cases r with
  | ok x => exact .pure x
  | error failure => exact .fail failure

theorem crash : Asks D runner (Action.crash : Action σ α) :=
  fun _ hw => ⟨.refl, .of_eq rfl, hw⟩

theorem request {d : Deed} (h : ∀ t, D t d) : Asks D runner (Action.request d : Action σ Unit) :=
  fun w hw => .request hw (h w.files)

theorem tryRequest {d : Deed} (h : ∀ t, D t d) :
    Asks D runner (Action.tryRequest d : Action σ (Except Fault Unit)) :=
  fun w hw => ⟨.single (.request w d), notesOnly_after (h w.files), d.proper_perform hw⟩

/-- A call notes nothing, and is made with tools that leave proper files proper. -/
theorem call (hrunner : runner.Keeps Proper) (command : ToolCommand) :
    Asks D runner (Action.call runner command) := by
  intro w hw
  refine ⟨?_, .of_eq ?_, ?_⟩
  · rw [run_call]
    exact .single (.call w command)
  · rw [run_call]
  · rw [run_call]
    exact hrunner command w hw

/-- An action after another one asks for what the two ask for. -/
theorem bind {a : Action σ α} {f : α → Action σ β} (ha : Asks D runner a)
    (hf : ∀ x, Asks D runner (f x)) : Asks D runner (a >>= f) := by
  intro w hw
  have ha := ha w hw
  refine ha.bind fun x w' hx => hf x w' ?_
  have hproper := ha.proper
  rwa [hx] at hproper

/-- An action after another one, with the values that the other one yields. -/
theorem bind_of_yields {R : α → Prop} {a : Action σ α} {f : α → Action σ β}
    (ha : Asks D runner a) (hyields : Yields R a) (hf : ∀ x, R x → Asks D runner (f x)) :
    Asks D runner (a >>= f) := by
  intro w hw
  have ha := ha w hw
  refine ha.bind fun x w' hx => hf x (hyields w x (by rw [hx])) w' ?_
  have hproper := ha.proper
  rwa [hx] at hproper

theorem attempt {a : Action σ α} (ha : Asks D runner a) : Asks D runner (Action.attempt a) :=
  fun w hw => ⟨(ha w hw).acts, (ha w hw).notes, (ha w hw).proper⟩

end Asks

end TestBench
