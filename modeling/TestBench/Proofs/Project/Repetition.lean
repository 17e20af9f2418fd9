import TestBench.Proofs.Project.Exchanges
import TestBench.Proofs.Project.Keeping
import TestBench.Proofs.Project.Sources
import TestBench.Proofs.Repeats

/-!
# Work that is repeated

What the work of a run does after it has cleaned the workspace (`working`) is done again by another
run. The clone is made in both, and below it both have the same. Elsewhere the second run finds what
the first one has left as well, but it reads nothing of that except the template. So it composes the
same test module and calls the same commands.

* `repeats_generating`, `repeats_executing`, `repeats_reporting`: what each stage repeats;
* `repeats_working`: the work is repeated.
-/

namespace TestBench.Project

open FileTree

variable {σ : Type} {s : Settings} {w : Workspace} {runner : Runner σ}
  {reply : ToolCommand → FixedReply} {A B F G t t' : FileTree} {R top : Location}

/-! ### The work in a ready workspace -/

/-- What the work of a run does in a workspace that is ready. -/
def working (s : Settings) (w : Workspace) (runner : Runner σ) : Action σ Summary :=
  cloning s w runner >>= fun clone => (stages s w runner).generating clone >>= fun testModule =>
    (stages s w runner).executing testModule >>= fun _ => (stages s w runner).reporting testModule

theorem work_stages_eq (s : Settings) (w : Workspace) (runner : Runner σ) :
    (stages s w runner).work = readying w >>= fun _ => working s w runner := by
  rw [Stages.work_eq, preparing_eq, bind_assoc]
  rfl

theorem yields_cloning (s : Settings) (w : Workspace) (runner : Runner σ) :
    Yields (· = w.clone) (cloning s w runner) :=
  .of_bind fun _ => .of_bind fun _ => .of_bind fun _ => .pure rfl

/-! ### The stages -/

/-- Whether a tree is the one where the work has got to, and another tree retraces it. -/
def Starts (G : FileTree) (top : Location) (B t t' : FileTree) : Prop :=
  t = B ∧ Retraces G top t t'

/-- Whether a tree extends the one where the work has got to, and another tree retraces it. -/
def Follows (G : FileTree) (top : Location) (B t t' : FileTree) : Prop :=
  Extends B t ∧ Retraces G top t t'

section Stages

variable (hG : Part G F)
include hG

/-- The clone is made. -/
theorem repeats_cloning (hrunner : runner.RepliesWith reply) :
    Repeats F (Starts G top A) (Starts G top (A.putAll (reply (cloneCommand s w)).files))
      (cloning s w runner) := by
  refine .bind .report fun _ => .bind (.call hrunner _ fun t t' h hF => ?_) fun output =>
    .bind (.ofExcept _) fun _ => .pure _
  obtain ⟨rfl, hretraces⟩ := h
  exact ⟨rfl, hretraces.putAll hG hF⟩

/-- With the clone and the template, the test module is composed and written. -/
theorem repeats_generating (hcloned : w.Cloned R B) (htemplate : KeepsTemplate s B G) :
    Repeats F (Starts G (w.cloneAt R) B) (Follows G (w.cloneAt R) B)
      ((stages s w runner).generating w.clone) := by
  have hcomposing : Repeats F (Starts G (w.cloneAt R) B) (Starts G (w.cloneAt R) B)
      (composing s w.clone : Action σ (TestModule × Nat)) := by
    refine .of_reads (gives_composing s w.clone).onlyReads fun w₁ w₂ made hstarts hF hmade => ?_
    obtain ⟨hB, hretraces⟩ := hstarts
    rw [(gives_composing s w.clone).value] at hmade ⊢
    rw [hB] at hmade hretraces hF
    exact hcloned.composed_eq hretraces (hretraces.extends hG hF) htemplate hmade
  have hwriting (made : TestModule × Nat) :
      Repeats F (Starts G (w.cloneAt R) B) (Follows G (w.cloneAt R) B)
        (writing w made : Action σ TestModule) := by
    refine .bind (.writeFile fun t t' t₁ h hwrite hF => ?_) fun _ =>
      .bind .report fun _ => .pure _
    obtain ⟨rfl, hretraces⟩ := h
    obtain ⟨t₁', hwrite', hretraces'⟩ := hretraces.writeFile hG hwrite hF
    exact ⟨t₁', hwrite', .writeFile hwrite, hretraces'⟩
  refine .bind .report fun _ => ?_
  change Repeats F _ _ (generate s w w.clone)
  rw [generate_eq]
  exact .bind hcomposing hwriting

variable (hrunner : runner.RepliesWith reply)
include hrunner

theorem repeats_call (command : ToolCommand) :
    Repeats F (Follows G top B) (Follows G top B) (Action.call runner command) :=
  .call hrunner command fun t _ h hF => ⟨h.1.trans (.putAll t _), h.2.putAll hG hF⟩

/-- The header is found in the same directory, so that the same command is called. -/
theorem repeats_executing (hclone : B.directory w.clone = .ok top) (m : TestModule) :
    Repeats F (Follows G top B) (Follows G top B) ((stages s w runner).executing m) := by
  have hheader : Repeats F (Follows G top B) (Follows G top B)
      (headerDirectory s w : Action σ Path) := by
    refine .of_reads (reads_headerDirectory (Q := fun _ => False) s w).onlyReads
      fun w₁ w₂ p hfollows hF hp => ?_
    obtain ⟨hextends, hretraces⟩ := hfollows
    have hdir := hextends.directory hclone
    have hsame : includeDirectory s w w₂.files = includeDirectory s w w₁.files := by
      rw [includeDirectory, includeDirectory, Lookup.outcome_eq hdir
        ((hretraces.extends hG hF).directory hdir) hretraces.inside]
    obtain ⟨events, hrun⟩ := run_headerDirectory s w w₁
    obtain ⟨events', hrun'⟩ := run_headerDirectory s w w₂
    rw [hrun] at hp
    rw [hrun', hsame]
    exact hp
  have houtput (title text : String) : Repeats F (Follows G top B) (Follows G top B)
      (Stages.reportOutput title text : Action σ Unit) := by
    rw [Stages.reportOutput]
    split
    · exact .pure ()
    · exact .report
  have hexecute : Repeats F (Follows G top B) (Follows G top B) (execute s w runner m) :=
    .bind hheader fun _ => .bind .report fun _ => .bind (repeats_call hG hrunner _) fun _ =>
      .ofExcept _
  exact .bind .report fun _ => .bind hexecute fun _ => .bind (houtput _ _) fun _ => houtput _ _

theorem repeats_reporting (m : TestModule) :
    Repeats F (Follows G top B) (Follows G top B) ((stages s w runner).reporting m) := by
  have hsteps : ∀ commands, Repeats F (Follows G top B) (Follows G top B)
      (Coverage.runSteps runner commands) := by
    intro commands
    induction commands with
    | nil => exact .pure ()
    | cons command commands ih =>
      refine .bind .report fun _ => .bind (repeats_call hG hrunner command) fun output =>
        .bind (.ofExcept _) fun output => ?_
      split
      · exact .bind .report fun _ => ih
      · exact ih
  have hreport : Repeats F (Follows G top B) (Follows G top B)
      (Coverage.report runner w (artifact s m)) :=
    .bind (hsteps _) fun _ => .pure _
  exact .bind .report fun _ => .bind hreport fun _ => .pure _

/-- With the clone and the template, the work is repeated. -/
theorem repeats_working (hcloned : w.Cloned R (A.putAll (reply (cloneCommand s w)).files))
    (htemplate : KeepsTemplate s (A.putAll (reply (cloneCommand s w)).files) G)
    (hclone : (A.putAll (reply (cloneCommand s w)).files).directory w.clone =
      .ok (w.cloneAt R)) :
    Repeats F (Starts G (w.cloneAt R) A)
      (Follows G (w.cloneAt R) (A.putAll (reply (cloneCommand s w)).files))
      (working s w runner) := by
  refine .bind_of_yields (repeats_cloning hG hrunner) (yields_cloning s w runner) ?_
  rintro _ rfl
  refine .bind (repeats_generating hG hcloned htemplate) fun m => ?_
  exact .bind (repeats_executing hG hrunner hclone m) fun _ => repeats_reporting hG hrunner m

end Stages

end TestBench.Project
