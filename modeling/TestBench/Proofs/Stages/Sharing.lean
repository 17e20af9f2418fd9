import Mathlib.Logic.Function.Basic
import Mathlib.Logic.Relation
import TestBench.Proofs.Stages.Phase
import TestBench.Proofs.Workspace.Holding

/-!
# Runs that share a workspace

Any number of runs may share a workspace, and a world. Each takes the steps that it takes alone, but
between two of them, the others may take any number of theirs. Which runs have the lock is then told
by the lock file: either the workspace is open, and no run has the lock, or it is held, and exactly
one has (`Exclusive`). A step of a run that does not have the lock changes no file while another one
has it.

* `Exclusive.after_step`: each step of each run preserves this;
* `exclusive_of_reaches`: it holds whenever the runs started in an open workspace.
-/

namespace TestBench

variable {ι σ : Type}

/-- Where a number of runs are, and the world that they share. -/
structure Shared (ι σ : Type) where
  phase : ι → Phase
  world : World σ

/-! ### A step of one run -/

namespace Stages

variable {s : Stages σ} {w : Workspace} {m : Moment σ}

/-- Whether validation only reads, and no stage takes the lock file of a workspace away. -/
structure Minds (s : Stages σ) (w : Workspace) : Prop where
  workspace : s.workspace = w
  validate : OnlyReads s.validate
  stages : s.AllKeep w.Held

/-- Whether the lock file is there if a run has the lock, and else is not. -/
def Fits (w : Workspace) (m : Moment σ) : Prop :=
  m.phase.HasLock ∧ w.Held m.world.files ∨ ¬m.phase.HasLock ∧ w.Open m.world.files

theorem not_hasLock_advance_started (s : Stages σ) (world : World σ) :
    ¬(s.advance ⟨.started, world⟩).phase.HasLock :=
  Moment.phase_after (Q := (¬·.HasLock)) (fun _ _ => id) fun _ => id

theorem files_advance_started (h : s.Minds w) (world : World σ) :
    (s.advance ⟨.started, world⟩).world.files = world.files := by
  rw [advance, Moment.world_after]
  exact h.validate.files_eq world

/-- A run that has the lock keeps it, until it gives it back. -/
theorem hasLock_advance (h : m.phase.HasLock) (hne : ∀ result, m.phase ≠ .cleaned result) :
    (s.advance m).phase.HasLock := by
  obtain ⟨phase, world⟩ := m
  cases phase with
  | started => exact h.elim
  | validated => exact h.elim
  | worked result =>
    obtain (failure | _) | _ := result
    · exact Moment.phase_after (Q := Phase.HasLock) (fun _ _ => trivial) fun _ => trivial
    · exact trivial
    · exact Moment.phase_after (Q := Phase.HasLock) (fun _ _ => trivial) fun _ => trivial
  | cleaned result => exact absurd rfl (hne result)
  | done result => exact h.elim
  | _ => exact Moment.phase_after (Q := Phase.HasLock) (fun _ _ => trivial) fun _ => trivial

/-- The steps of a run preserve that the lock file is there if the run has the lock. -/
theorem Fits.advance (h : s.Minds w) (hm : Fits w m) : Fits w (s.advance m) := by
  obtain rfl := h.workspace
  obtain ⟨phase, world⟩ := m
  obtain ⟨hlock, hheld⟩ | ⟨hlock, hopen⟩ := hm
  · by_cases hcleaned : ∃ result, phase = .cleaned result
    · -- Only unlocking takes the lock file away.
      obtain ⟨result, rfl⟩ := hcleaned
      refine .inr ⟨Moment.phase_after (Q := (¬·.HasLock)) (fun _ _ => id) fun _ => id, ?_⟩
      rw [Stages.advance, Moment.world_after]
      exact Workspace.run_unlock_of_held hheld
    · refine .inl ⟨hasLock_advance hlock fun result hr => hcleaned ⟨result, hr⟩, ?_⟩
      refine keeps_advance h.stages (fun hr => ?_) (fun hr => ?_)
        (fun result hr => absurd ⟨result, hr⟩ hcleaned) hheld
      · obtain rfl : phase = .started := hr
        exact hlock.elim
      · obtain rfl : phase = .validated := hr
        exact hlock.elim
  · cases phase with
    | started =>
      refine .inr ⟨not_hasLock_advance_started s world, ?_⟩
      rwa [files_advance_started h]
    | validated =>
      rw [Stages.advance, Fits, Moment.world_after]
      rcases Workspace.run_lock_of_open hopen with ⟨hok, hheld⟩ | ⟨halt, herror, hopen⟩
      · rw [Moment.phase_after_of_ok hok]
        exact .inl ⟨trivial, hheld⟩
      · rw [Moment.phase_after_of_error herror]
        exact .inr ⟨id, hopen⟩
    | done result => exact .inr ⟨hlock, hopen⟩
    | _ => exact absurd trivial hlock

/-- While another run has the lock, a run that does not have it changes no file, and does not get
    it. -/
theorem advance_of_held (h : s.Minds w) (hheld : w.Held m.world.files) (hm : ¬m.phase.HasLock) :
    (s.advance m).world.files = m.world.files ∧ ¬(s.advance m).phase.HasLock := by
  obtain ⟨phase, world⟩ := m
  cases phase with
  | started => exact ⟨files_advance_started h world, not_hasLock_advance_started s world⟩
  | validated =>
    obtain rfl := h.workspace
    have hrefused := @Workspace.run_lock_of_held σ _ _ hheld
    rw [advance, Moment.world_after, hrefused, Moment.phase_after_of_error (by rw [hrefused])]
    exact ⟨rfl, id⟩
  | done result => exact ⟨rfl, hm⟩
  | _ => exact absurd trivial hm

end Stages

/-! ### Steps of many runs -/

namespace Shared

variable {engines : ι → Stages σ} {w : Workspace} {st : Shared ι σ} {start : World σ} {i j : ι}

/-- The moment of one of the runs. -/
def moment (st : Shared ι σ) (i : ι) : Moment σ :=
  ⟨st.phase i, st.world⟩

/-- Whether the lock file says who has the lock. -/
inductive Exclusive (w : Workspace) (st : Shared ι σ) : Prop where
  | nobody (hphase : ∀ i, ¬(st.phase i).HasLock) (hopen : w.Open st.world.files)
  | one (i : ι) (hphase : ∀ j, (st.phase j).HasLock ↔ j = i) (hheld : w.Held st.world.files)

theorem Exclusive.eq (hst : Exclusive w st) (hi : (st.phase i).HasLock)
    (hj : (st.phase j).HasLock) : i = j := by
  cases hst with
  | nobody hphase => exact absurd hi (hphase i)
  | one k hphase => rw [(hphase i).1 hi, (hphase j).1 hj]

theorem Exclusive.held (hst : Exclusive w st) (hi : (st.phase i).HasLock) :
    w.Held st.world.files := by
  cases hst with
  | nobody hphase => exact absurd hi (hphase i)
  | one k hphase hheld => exact hheld

/-- The lock file is found if and only if one of the runs has the lock. -/
theorem Exclusive.find_iff (hst : Exclusive w st) :
    (∃ l content executable,
      st.world.files.find w.lockFile false = .ok (l, .file content executable)) ↔
      ∃! i, (st.phase i).HasLock := by
  cases hst with
  | nobody hphase hopen =>
    refine ⟨fun ⟨l, content, executable, hfind⟩ => ?_, fun ⟨i, hi, _⟩ => absurd hi (hphase i)⟩
    exact absurd hfind (hopen.find l content executable)
  | one k hphase hheld =>
    exact ⟨fun _ => ⟨k, (hphase k).2 rfl, fun j hj => (hphase j).1 hj⟩, fun _ => hheld.find⟩

section

variable [DecidableEq ι]

/-- One of the runs takes its next step. -/
def step (engines : ι → Stages σ) (st : Shared ι σ) (i : ι) : Shared ι σ :=
  let next := (engines i).advance (st.moment i)
  ⟨Function.update st.phase i next.phase, next.world⟩

/-- Whether the runs get somewhere, from the start of all of them. -/
def Reaches (engines : ι → Stages σ) (start : World σ) (st : Shared ι σ) : Prop :=
  Relation.ReflTransGen (fun st st' => ∃ i, st' = step engines st i) ⟨fun _ => .started, start⟩ st

/-- The runs may take their steps in any order. -/
theorem reaches_foldl (engines : ι → Stages σ) (start : World σ) (order : List ι) :
    Reaches engines start (order.foldl (step engines) ⟨fun _ => .started, start⟩) :=
  List.foldlRecOn order _ .refl fun _ h i _ => h.tail ⟨i, rfl⟩

theorem phase_step_self (engines : ι → Stages σ) (st : Shared ι σ) (i : ι) :
    (step engines st i).phase i = ((engines i).advance (st.moment i)).phase :=
  Function.update_self ..

theorem phase_step_of_ne (engines : ι → Stages σ) (st : Shared ι σ) (h : j ≠ i) :
    (step engines st i).phase j = st.phase j :=
  Function.update_of_ne h ..

/-- Each step of each run preserves that the lock file says who has the lock. -/
theorem Exclusive.after_step (h : ∀ i, (engines i).Minds w) (hst : Exclusive w st) (i : ι) :
    Exclusive w (step engines st i) := by
  have hself := phase_step_self engines st i
  have hothers := fun j (hj : j ≠ i) => phase_step_of_ne engines st hj
  by_cases hlocked : ∃ k, k ≠ i ∧ (st.phase k).HasLock
  · -- Another run has the lock, and keeps it.
    obtain ⟨k, hk, hlock⟩ := hlocked
    cases hst with
    | nobody hphase => exact absurd hlock (hphase k)
    | one k' hphase hheld =>
      obtain rfl := (hphase k).1 hlock
      have hi : ¬(st.phase i).HasLock := fun hi => hk ((hphase i).1 hi).symm
      obtain ⟨hfiles, hnext⟩ := Stages.advance_of_held (m := st.moment i) (h i) hheld hi
      refine .one k (fun j => ?_) (hfiles ▸ hheld)
      by_cases hj : j = i
      · rw [hj, hself]
        exact ⟨fun hj => absurd hj hnext, fun hj => absurd hj.symm hk⟩
      · rw [hothers j hj]
        exact hphase j
  · -- No other run has the lock, so that the files fit the phase of this one.
    have hfits : Stages.Fits w (st.moment i) := by
      cases hst with
      | nobody hphase hopen => exact .inr ⟨hphase i, hopen⟩
      | one k hphase hheld =>
        have hk : k = i := by
          by_contra hk
          exact hlocked ⟨k, hk, (hphase k).2 rfl⟩
        exact .inl ⟨(hphase i).2 hk.symm, hheld⟩
    have hrest : ∀ j, j ≠ i → ¬((step engines st i).phase j).HasLock := by
      intro j hj hlock
      rw [hothers j hj] at hlock
      exact hlocked ⟨j, hj, hlock⟩
    rcases hfits.advance (h i) with ⟨hnext, hheld⟩ | ⟨hnext, hopen⟩
    · refine .one i (fun j => ⟨fun hlock => ?_, ?_⟩) hheld
      · by_contra hj
        exact hrest j hj hlock
      · rintro rfl
        rwa [hself]
    · refine .nobody (fun j => ?_) hopen
      by_cases hj : j = i
      · rwa [hj, hself]
      · exact hrest j hj

/-- Wherever runs get that start in an open workspace, the lock file says who has the lock. -/
theorem exclusive_of_reaches (h : ∀ i, (engines i).Minds w) (hstart : w.Open start.files)
    (hst : Reaches engines start st) : Exclusive w st := by
  induction hst with
  | refl => exact .nobody (fun _ => id) hstart
  | tail _ hstep ih =>
    obtain ⟨i, rfl⟩ := hstep
    exact ih.after_step h i

end

end Shared

end TestBench
