import TestBench.Proofs.Project.Cleanup
import TestBench.Proofs.Project.Repetition
import TestBench.Proofs.Workspace.Reuse

/-!
# The course of a run that succeeds

A run that succeeds comes by three worlds (`Course`): one when it has taken the lock, one when its
workspace is ready, and one when its work has ended. It is known what is there when the work begins
(`Begins`) and when it has ended (`Ends`): the workspace is held, and it is clean at first and has
the clone in it in the end.

* `exists_course`: a run that succeeds takes this course;
* `begins_of_run`: what is there when the work begins;
* `Ends.closes`: what is left after the end.
-/

namespace TestBench

open FileTree

variable {σ : Type} {s : Settings} {w : Workspace} {runner : Runner σ} {t t' : FileTree}
  {R : Location} {world locked ready worked : World σ} {summary : Summary}

/-! ### Steps that succeed -/

namespace Stages

variable {α : Type} {S : Stages σ} {m : Moment σ} {w' : World σ} {x : α}

/-- A step that succeeds leads to the phase that follows its value. -/
theorem Passes.after_ok (h : S.Passes world m) {a : Action σ α} (next : α → Phase)
    {failed : Except Halt Summary → Phase} (hadvance : S.advance m = .after a next failed m.world)
    (ha : a.run m.world = (.ok x, w')) : S.Passes world ⟨next x, w'⟩ := by
  have := h.advance
  rwa [hadvance, Moment.after, ha] at this

/-- A work that succeeds, and then a cleaning that succeeds. -/
theorem closed_of_cleanup (h : (S.cleanup.run world).1 = .ok ()) :
    S.closed (.ok summary, world) = S.unlocked (.ok summary) (S.cleanup.run world).2 := by
  have hclean : S.cleanUp.run world = (.ok (), (S.cleanup.run world).2) := by
    rw [cleanUp, Action.run_bind, Action.attempt, Action.run_ofFunction]
    generalize S.cleanup.run world = cleaned at h
    obtain ⟨_, w'⟩ := cleaned
    obtain rfl := h
    rfl
  rw [closed, hclean]
  · intro hcrash
    cases hcrash

/-- A run that succeeds has worked with the same result. -/
theorem eq_ok_of_closed {result : Except Halt Summary}
    (h : (S.closed (result, world)).1 = .ok summary) : result = .ok summary := by
  obtain halt | summary' := result
  · exact absurd h (S.closed_error_ne_ok halt world summary)
  · simp only [closed] at h
    generalize S.cleanUp.run world = cleaned at h
    obtain ⟨_ | _, w'⟩ := cleaned
    · cases h
    · exact h

end Stages

namespace Project

/-! ### The course of a run -/

/-- The worlds that a run comes by, from the lock to the end of its work. -/
structure Course (s : Settings) (w : Workspace) (runner : Runner σ) (summary : Summary)
    (world locked ready worked : World σ) : Prop where
  validates : (stages s w runner).validate.run world = (.ok (), world)
  locks : w.lock.run world = (.ok (), locked)
  readies : (readying w).run locked = (.ok (), ready)
  works : (working s w runner).run ready = (.ok summary, worked)

/-- Whether a run is valid does not depend on the world. -/
theorem run_validate {world' : World σ} {u : Unit}
    (h : (stages s w runner).validate.run world = (.ok u, world')) (left : World σ) :
    (stages s w runner).validate.run left = (.ok (), left) := by
  change (Action.ofExcept (Repository.check "git_repo_url" s.repository)).run _ = _ at h ⊢
  cases hcheck : Repository.check "git_repo_url" s.repository with
  | ok _ => rfl
  | error failure =>
    rw [hcheck] at h
    cases h

/-- A run that succeeds takes this course. -/
theorem exists_course (h : ((stages s w runner).run.run world).1 = .ok summary) :
    ∃ locked ready worked, Course s w runner summary world locked ready worked := by
  obtain ⟨u, w₀, hvalid, hrun⟩ := Action.exists_of_run_bind h
  obtain rfl : w₀ = world := (Prod.mk.inj (hvalid.symm.trans (run_validate hvalid world))).2
  obtain ⟨v, locked, hlock, -⟩ := Action.exists_of_run_bind hrun
  rw [Stages.run_whileLocked_of_locked hlock] at hrun
  cases hwork : (stages s w runner).work.run locked with
  | mk result worked =>
    rw [hwork] at hrun
    obtain rfl := Stages.eq_ok_of_closed hrun
    rw [work_stages_eq] at hwork
    obtain ⟨u', ready, hready, hworks⟩ := Action.exists_of_run_bind_eq hwork
    exact ⟨locked, ready, worked, hvalid, hlock, hready, hworks⟩

/-- Generating a test module starts with composing it. -/
theorem exists_composed {clone : Path} {cloned generated : World σ} {m : TestModule}
    (h : ((stages s w runner).generating clone).run cloned = (.ok m, generated)) :
    ∃ made, composed s clone cloned.files = .ok made := by
  obtain ⟨_, noted, hreport, hgenerate⟩ := Action.exists_of_run_bind_eq h
  have hfiles : noted.files = cloned.files := by
    rw [← OnlyReads.report.files_eq cloned, hreport]
  change (generate s w clone).run _ = _ at hgenerate
  rw [generate_eq] at hgenerate
  obtain ⟨made, _, hcomposing, -⟩ := Action.exists_of_run_bind_eq hgenerate
  have hvalue := (gives_composing s clone).value noted
  rw [hcomposing, hfiles] at hvalue
  exact ⟨made, hvalue.symm⟩

namespace Course

variable (h : Course s w runner summary world locked ready worked)
include h

/-- The course leads to the end of the run. -/
theorem run_eq : (stages s w runner).run.run world =
    (stages s w runner).closed (.ok summary, worked) := by
  have hrun : (stages s w runner).work.run locked = (.ok summary, worked) := by
    rw [work_stages_eq, Action.run_bind, h.readies]
    exact h.works
  rw [Stages.run, Action.run_bind, h.validates, ← hrun]
  exact Stages.run_whileLocked_of_locked h.locks

theorem passes_locked : (stages s w runner).Passes world ⟨.locked, locked⟩ :=
  have hstart : (stages s w runner).Passes world ⟨.started, world⟩ := ⟨0, rfl⟩
  have hvalidated := hstart.after_ok (fun _ => .validated) rfl h.validates
  hvalidated.after_ok (fun _ => .locked) rfl h.locks

/-- After the cloning, a test module is composed, and the work goes on to its end. -/
theorem exists_cloned : ∃ cloned made, (cloning s w runner).run ready = (.ok w.clone, cloned) ∧
    composed s w.clone cloned.files = .ok made ∧
    (stages s w runner).Passes world ⟨.prepared w.clone, cloned⟩ ∧
    (stages s w runner).Passes world ⟨.worked (.ok summary), worked⟩ := by
  obtain ⟨clone, cloned, hcloning, hworks⟩ := Action.exists_of_run_bind_eq h.works
  obtain rfl := yields_cloning s w runner ready clone (by rw [hcloning])
  obtain ⟨m, generated, hgenerating, hworks⟩ := Action.exists_of_run_bind_eq hworks
  obtain ⟨u, executed, hexecuting, hreporting⟩ := Action.exists_of_run_bind_eq hworks
  obtain ⟨made, hcomposed⟩ := exists_composed hgenerating
  have hpreparing : (stages s w runner).preparing.run locked = (.ok w.clone, cloned) := by
    rw [preparing_eq, Action.run_bind, h.readies]
    exact hcloning
  have hprepared := h.passes_locked.after_ok .prepared rfl hpreparing
  have hgenerated := hprepared.after_ok .generated rfl hgenerating
  have hexecuted := hgenerated.after_ok (fun _ => .executed m) rfl hexecuting
  exact ⟨cloned, made, hcloning, hcomposed, hprepared,
    hexecuted.after_ok (fun summary => .worked (.ok summary)) rfl hreporting⟩

end Course

/-! ### A ready workspace -/

/-- In a workspace that is held, making it ready is to clean it. -/
theorem run_readying (hn : Path.IsName w.cloneName) (hheld : w.Held world.files) :
    ∃ events requests, (readying w).run world =
      ((w.clean.run { world with events }).1,
        { (w.clean.run { world with events }).2 with requests }) := by
  obtain ⟨events, hrun⟩ : ∃ events, (readying w).run world =
      (w.clean >>= fun _ => Action.request (.makeDirectories w.root) : Action σ Unit).run
        { world with events } := by
    rw [readying, Action.run_bind, Action.report, Action.run_ofFunction]
    exact ⟨_, rfl⟩
  refine ⟨events, ?_⟩
  rw [hrun, Action.run_bind]
  have hcleans := Workspace.keeps_cleans (σ := σ) hn world.files
    { world with events } ⟨.refl w _, hheld.proper⟩
  generalize (w.clean : Action σ Unit).run _ = cleaned at hcleans ⊢
  obtain ⟨halt | _, w'⟩ := cleaned
  · exact ⟨_, rfl⟩
  · -- The root is still there.
    have hheld' := hheld.of_cleans hcleans.2 hcleans.1
    obtain ⟨R, -, -, hstands, -⟩ := hheld'.file
    have hmade : (Action.request (.makeDirectories w.root)).run w' = _ :=
      Action.run_request_ok (Workspace.makeDirectories_of_rootAt Workspace.isName_lockName.1
        hheld'.text hstands.rootAt)
    exact ⟨_, hmade⟩

/-- What is there when a workspace that is held has been made ready. -/
theorem ready_of_run (hw : w.Addressable) (hheld : w.Held locked.files)
    (hroot : w.RootAt locked.files R) (hclone : w.Encloses locked.files R)
    (h : (readying w).run locked = (.ok (), ready)) :
    w.Cleans locked.files ready.files ∧ w.Clean ready.files R ∧ w.Held ready.files := by
  obtain ⟨events, requests, hrun⟩ := run_readying hw.name.isName hheld
  rw [h] at hrun
  obtain ⟨hok, rfl⟩ := Prod.mk.inj hrun
  have hcleans := Workspace.keeps_cleans (σ := σ) hw.name.isName locked.files
    { locked with events } ⟨.refl w _, hheld.proper⟩
  have hclean := @Workspace.clean_of_run σ w R { locked with events } hw hheld.proper
    (hheld.at_root hroot).1 hclone hok.symm
  exact ⟨hcleans.1, hclean.1, hheld.of_cleans hcleans.2 hcleans.1⟩

/-- A workspace that is held and clean can be made ready, which leaves it as it is. -/
theorem exists_ready (hw : w.Addressable) (hheld : w.Held locked.files)
    (hroot : w.RootAt locked.files R) (hclean : w.Clean locked.files R) :
    ∃ ready, (readying w).run locked = (.ok (), ready) ∧ w.Clean ready.files R ∧
      w.Held ready.files ∧ ready.files.here = locked.files.here ∧
      ∀ l, ready.files.lookup l = locked.files.lookup l := by
  obtain ⟨events, requests, hrun⟩ := run_readying hw.name.isName hheld
  have hnone : ∀ l e, locked.files.find w.clone false ≠ .ok (l, e) := by
    intro l e hfind
    obtain ⟨R', hroot', rfl, he⟩ := Workspace.find_join hw.name.isName hfind
    obtain rfl := hroot.unique hroot'
    exact absurd ((hclean.clone _ List.prefix_rfl).symm.trans he) (by simp)
  obtain ⟨events', requests', t, hgoes, -⟩ := @Workspace.run_clean_of_stands σ w R
    { locked with events } hw.name hw.root hw.clone
    (fun name content executable hfile hname =>
      absurd ((hclean.artifact _ _ _ hfile).symm.trans hname) (by simp))
    hheld.proper (hheld.at_root hroot).1 fun l e hfind => absurd hfind (hnone l e)
  rw [hgoes] at hrun
  obtain ⟨hcleans, hclean', hheld'⟩ := ready_of_run hw hheld hroot
    (fun l hl _ hsome => absurd (hclean.clone l hl) hsome) hrun
  exact ⟨_, hrun, hclean', hheld', hcleans.part.here,
    fun l => (hcleans.lookup l).resolve_right (hclean.not_removable hroot)⟩

/-! ### The start and the end of a run -/

/-- What is there when a workspace has been locked. -/
theorem held_of_run_lock (hproper : world.files.Proper) (hgrounded : world.files.Grounded)
    (h : w.lock.run world = (.ok (), locked))
    (hstands : ∀ R, w.RootAt locked.files R → w.Stands locked.files R) :
    w.Held locked.files ∧ locked.files.Grounded ∧ ∃ R, w.RootAt locked.files R ∧
      locked.files.lookup (R ++ [Workspace.lockName]) = some (.file [] false) := by
  obtain ⟨t, R, hmade, hresolve, hfiles⟩ := Workspace.exists_of_run_lock (by rw [h])
  rw [h] at hfiles
  have hcreate := createFile_of_vacant hresolve
  obtain ⟨hroot, -, -⟩ := Workspace.vacant_join Workspace.isName_lockName hresolve
  have hlookup : locked.files.lookup (R ++ [Workspace.lockName]) = some (.file [] false) := by
    rw [hfiles, lookup_insert _ _ _ (by simp), if_pos rfl]
  have hroot' : w.RootAt locked.files R :=
    hfiles ▸ hroot.of_hasWays (Workspace.hasWays_insert_lockFile hresolve _)
  have hproper' : locked.files.Proper := by
    have := hproper.makeDirectories w.root
    rw [hmade] at this
    exact hfiles ▸ this.createFile hcreate
  have hgrounded' : locked.files.Grounded := by
    have := hgrounded.makeDirectories w.root
    rw [hmade] at this
    exact hfiles ▸ this.createFile hcreate
  exact ⟨⟨hproper', (resolve_eq_ok_iff.1 hresolve).1, R, [], false, hstands R hroot', hlookup⟩,
    hgrounded', R, hroot', hlookup⟩

/-- Whether a run may start its work: the workspace is held and clean, what leads to its root are
    directories, and nothing is written in the lock file. -/
structure Begins (w : Workspace) (R : Location) (t : FileTree) : Prop where
  held : w.Held t
  rootAt : w.RootAt t R
  clean : w.Clean t R
  above : ∀ k, k <+: R → t.lookup k = some .directory
  lock : t.lookup (R ++ [Workspace.lockName]) = some (.file [] false)

/-- What is there when a run starts its work, in a tree in which all is in directories. -/
theorem begins_of_run (hw : w.Addressable) (hheld : w.Held locked.files)
    (hgrounded : locked.files.Grounded) (hroot : w.RootAt locked.files R)
    (hlock : locked.files.lookup (R ++ [Workspace.lockName]) = some (.file [] false))
    (h : (readying w).run locked = (.ok (), ready)) : Begins w R ready.files := by
  have henclosed : w.Encloses locked.files R := by
    intro l hl hne hsome
    obtain ⟨e, he⟩ := Option.ne_none_iff_exists'.1 hsome
    exact hgrounded.everywhere.lookup_prefix List.nil_prefix hl (Ne.symm hne) he
  obtain ⟨hcleans, hclean, hheld'⟩ := ready_of_run hw hheld hroot henclosed h
  have hroot' := (hheld.at_root hroot).1.of_cleans hcleans |>.rootAt
  refine ⟨hheld', hroot', hclean, fun k hk => ?_, ?_⟩
  · have hdir := Leads.lookup_directory hgrounded.everywhere (hgrounded.lookup_origin _) hroot
      (.inl rfl)
    rw [hcleans.lookup_above hroot hk]
    by_cases hne : k = R
    · exact hne ▸ hdir
    · exact hgrounded.everywhere.lookup_prefix List.nil_prefix hk hne hdir
  · obtain ⟨-, content, executable, hfile⟩ := hheld'.at_root hroot'
    rw [hfile, ← hcleans.part.lookup _ _ hfile, hlock]

/-- What is there when the work of a run has ended: the workspace is held, with the clone in it. -/
structure Ends (w : Workspace) (R : Location) (t : FileTree) : Prop where
  held : w.Held t
  rootAt : w.RootAt t R
  clone : t.lookup (w.cloneAt R) = some .directory

/-- What is known of a tree at the end is known of all trees in which the same stands. -/
theorem Ends.of_lookup (h : Ends w R t) (hproper : t'.Proper) (hhere : t'.here = t.here)
    (hsame : ∀ l, t'.lookup l = t.lookup l) : Ends w R t' := by
  have hways : HasWays t' t := ⟨hhere, fun l e _ he => (hsame l).trans he⟩
  exact ⟨h.held.of_hasWays hproper hways
      fun R content executable hfile => ⟨content, executable, (hsame _).trans hfile⟩,
    h.rootAt.of_hasWays hways, (hsame _).trans h.clone⟩

/-- The cleaning at the end of a run goes through if the system takes all paths. -/
theorem Ends.run_clean (h : Ends w R worked.files) (hw : w.Addressable)
    (hreaches : w.Reaches worked.files R) : ((w.clean : Action σ Unit).run worked).1 = .ok () := by
  obtain ⟨events, requests, t, hrun, -⟩ := Workspace.run_clean_of_stands hw.name hw.root hw.clone
    hreaches h.held.proper (h.held.at_root h.rootAt).1 fun l e hfind => by
      obtain ⟨R', hroot, rfl, he⟩ := Workspace.find_join hw.name.isName hfind
      obtain rfl := h.rootAt.unique hroot
      exact Option.some.inj (he.symm.trans h.clone)
  rw [hrun]

/-- What a work that succeeds, and then a cleaning that succeeds, leave. -/
theorem Ends.closes (h : Ends w R worked.files) (s : Settings) (runner : Runner σ)
    (summary : Summary) (hw : w.Addressable)
    (hclean : ((w.clean : Action σ Unit).run worked).1 = .ok ()) :
    ((stages s w runner).closed (.ok summary, worked)).1 = .ok summary ∧
      w.Closes R worked.files ((stages s w runner).closed (.ok summary, worked)).2.files ∧
      w.Reaches worked.files R := by
  have hcleans := Workspace.keeps_cleans hw.name.isName worked.files worked
    ⟨.refl w _, h.held.proper⟩
  obtain ⟨hclean', hreaches⟩ := Workspace.clean_of_run hw h.held.proper
    (h.held.at_root h.rootAt).1 (fun _ _ _ _ => h.clone) hclean
  have hheld := h.held.of_cleans hcleans.2 hcleans.1
  have hcleanup : ((stages s w runner).cleanup.run worked).1 = .ok () := hclean
  rw [Stages.closed_of_cleanup hcleanup]
  refine ⟨rfl, ?_, hreaches⟩
  rw [Stages.files_unlocked]
  exact Workspace.closes_of_clean h.rootAt hheld hcleans.1 hclean'

end Project

end TestBench
