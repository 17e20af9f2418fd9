import TestBench.Proofs.Project.Course

/-!
# A run after a run

A run that succeeds is followed by another one with the same stages. It finds what the first run has
left, with the lock given back and the workspace cleaned, so that it starts its work in a tree that
retraces the one in which the first run has started its work, and repeats it.

There are three conditions. The root has to be where it is without the help of the clone, since
otherwise the lock is not given back. The cleaning at the end of the first run, a failure of which
is only reported, must not fail. And the file that the template is read from must not be another one
afterwards: nothing keeps a tool or the test module itself from being written over it.

* `Course.exists_again`: another run takes the same course;
* `run_again`: another run gives the same, and leaves all files as they are.
-/

namespace TestBench.Project

open FileTree

variable {σ : Type} {s : Settings} {w : Workspace} {runner : Runner σ}
  {reply : ToolCommand → FixedReply} {t A B G : FileTree} {R l : Location}
  {world locked ready worked left : World σ} {summary : Summary}

/-! ### The clone -/

/-- What leads to a directory under a name is a directory, or a link. -/
theorem lookup_of_leads_one {links : Nat} {name : String} (hn : Path.IsName name)
    (h : Leads t true links R [name] (.found l .directory)) : IsEntryName name ∧
      (t.lookup (R ++ [name]) = some .directory ∨
        ∃ text, t.lookup (R ++ [name]) = some (.link text)) := by
  cases h with
  | pass hp =>
    cases hp with
    | stay => exact absurd rfl hn.2.2.1
    | up => exact absurd rfl hn.2.2.2
    | down hentry hl => exact ⟨hentry, .inl hl⟩
  | through hentry hl => exact ⟨hentry, .inr ⟨_, hl⟩⟩
  | stop _ _ hd => exact absurd rfl hd

/-- Where the path of the clone leads to a directory, the clone is one, or a link. -/
theorem exists_of_directory_clone (hn : Path.IsName w.cloneName)
    (h : t.directory w.clone = .ok l) : IsPathText w.clone.text ∧ IsProperName w.cloneName ∧
      ∃ R, w.RootAt t R ∧ (t.lookup (w.cloneAt R) = some .directory ∨
        ∃ text, t.lookup (w.cloneAt R) = some (.link text)) := by
  obtain ⟨htext, hway⟩ := resolve_eq_ok_iff.1 (find_eq_ok_iff.1 (directory_eq_ok_iff.1 h))
  have hsteps := Workspace.steps_join w hn
  have hstep : IsStep w.cloneName :=
    isStep_of_mem_steps htext.1 (by rw [Workspace.clone, hsteps]; simp)
  rw [Workspace.clone, hsteps, (Workspace.join_starts_as_root w hn.1 t.here).1] at hway
  obtain ⟨R, links, hroot, hdown⟩ := hway.exists_of_append (by simp)
  obtain ⟨hentry, hclone⟩ := lookup_of_leads_one hn hdown
  exact ⟨htext, hstep.isProperName hentry, R, hroot, hclone⟩

/-- A clone that is put into a clean workspace, and that its path leads to, is a directory of its
    own. -/
theorem cloned_of_directory (hn : Path.IsName w.cloneName) (hA : A.Proper) (hroot : w.RootAt A R)
    (habove : ∀ k, k <+: R → A.lookup k = some .directory) (hclean : w.Clean A R)
    (fs : List FixedFile) (h : (A.putAll fs).directory w.clone = .ok l) :
    w.Cloned R (A.putAll fs) := by
  have hextends := Extends.putAll A fs
  have hroot' := hroot.of_hasWays hextends.hasWays
  obtain ⟨-, -, R', hroot'', hclone⟩ := exists_of_directory_clone hn h
  obtain rfl := hroot'.unique hroot''
  have hgrounded : GroundedFrom (w.cloneAt R) A := fun k name e hk he =>
    absurd ((hclean.clone _ (hk.trans (List.prefix_append k [name]))).symm.trans he) (by simp)
  refine ⟨hA.putAll fs, hn, hroot', fun k hk => ?_, hclone.resolve_right ?_, hgrounded.putAll fs⟩
  · exact hextends.lookup_of_not_file (by simp) (habove k hk)
  · -- No link is put in place.
    rintro ⟨text, htext⟩
    exact absurd ((hclean.clone _ List.prefix_rfl).symm.trans (hextends.links _ _ htext)) (by simp)

theorem exists_directory_of_composed {made : TestModule × Nat}
    (h : composed s w.clone t = .ok made) : ∃ l, t.directory w.clone = .ok l := by
  rw [composed] at h
  cases hp : Lookup.outcome t w.clone s.implementation SourceKind.implementation.extension with
  | error halt =>
    rw [hp] at h
    cases h
  | ok p =>
    obtain ⟨l, -, -, -, hdir, -⟩ := Lookup.exists_file hp
    exact ⟨l, hdir⟩

theorem files_cloning (hrunner : runner.RepliesWith reply) (world : World σ) :
    ((cloning s w runner).run world).2.files =
      world.files.putAll (reply (cloneCommand s w)).files := by
  have hrest (output : ToolOutput) : OnlyReads (do
      let _ ← Action.ofExcept (output.check "git")
      return w.clone : Action σ Path) :=
    .bind (.ofExcept _) fun _ => .pure _
  rw [cloning, Action.run_bind, Action.report, Action.run_ofFunction]
  simp only
  obtain ⟨-, hfiles⟩ := hrunner.run_call (cloneCommand s w)
    { world with
      events := world.events ++ [⟨.info, .pipeline, s!"Cloning {s.repository}"⟩] }
  rw [Action.run_bind]
  generalize (Action.call runner (cloneCommand s w)).run _ = called at hfiles ⊢
  obtain ⟨halt | output, w'⟩ := called
  · exact hfiles
  · exact ((hrest output).files_eq w').trans hfiles

/-! ### The course again -/

namespace Course

variable (h : Course s w runner summary world locked ready worked)
include h

/-- The system takes the paths of a run that succeeds. -/
theorem addressable (hn : Path.IsName w.cloneName) (hne : w.root.text ≠ "") : w.Addressable := by
  obtain ⟨cloned, made, -, hcomposed, -⟩ := h.exists_cloned
  obtain ⟨l, hdir⟩ := exists_directory_of_composed hcomposed
  obtain ⟨htext, hname, -⟩ := exists_of_directory_clone hn hdir
  obtain ⟨t, R, -, hresolve, -⟩ := Workspace.exists_of_run_lock (by rw [h.locks])
  have hlock : IsPathText w.lockFile.text := (resolve_eq_ok_iff.1 hresolve).1
  exact ⟨hname, (Workspace.join_starts_as_root w Workspace.isName_lockName.1 []).2 hne hlock, htext⟩

/-- What is there when the work of a run begins, in a tree in which all is in directories. -/
theorem exists_begins (hw : w.Addressable) (hproper : world.files.Proper)
    (hgrounded : world.files.Grounded)
    (hstands : ∀ R, w.RootAt locked.files R → w.Stands locked.files R) :
    ∃ R, Begins w R ready.files := by
  obtain ⟨hheld, hgrounded', R, hroot, hlock⟩ :=
    held_of_run_lock hproper hgrounded h.locks hstands
  exact ⟨R, begins_of_run hw hheld hgrounded' hroot hlock h.readies⟩

variable (hn : Path.IsName w.cloneName) (hrunner : runner.RepliesWith reply)
  (hbegins : Begins w R ready.files)
include hn hrunner hbegins

/-- The work of a run that succeeds is repeated, from what is there when the clone has been made. -/
theorem exists_repeats (hG : Part G worked.files)
    (htemplate : ∀ cloned, (stages s w runner).Passes world ⟨.prepared w.clone, cloned⟩ →
      KeepsTemplate s cloned.files G) :
    ∃ B, Extends ready.files B ∧ B.lookup (w.cloneAt R) = some .directory ∧
      Repeats worked.files (Starts G (w.cloneAt R) ready.files) (Follows G (w.cloneAt R) B)
        (working s w runner) := by
  obtain ⟨cloned, made, hcloning, hcomposed, hprepared, -⟩ := h.exists_cloned
  obtain ⟨l, hdir⟩ := exists_directory_of_composed hcomposed
  have hfiles := files_cloning (s := s) (w := w) hrunner ready
  have hkept := htemplate cloned hprepared
  rw [hcloning] at hfiles
  rw [hfiles] at hdir hkept
  have hcloned := cloned_of_directory hn hbegins.held.proper hbegins.rootAt hbegins.above
    hbegins.clean _ hdir
  obtain rfl := hcloned.eq_of_directory hdir
  exact ⟨_, .putAll _ _, hcloned.clone, repeats_working hG hrunner hcloned hkept hdir⟩

omit hn hrunner in
/-- What is there when the work of a run has ended. -/
theorem ends (hproper : worked.files.Proper) (hextends : Extends ready.files B)
    (hclone : B.lookup (w.cloneAt R) = some .directory)
    (hrepeats : Repeats worked.files (Starts G (w.cloneAt R) ready.files)
      (Follows G (w.cloneAt R) B) (working s w runner)) :
    Extends ready.files worked.files ∧ Ends w R worked.files := by
  -- The work repeats itself.
  have hagain := hrepeats.again ready ready summary ⟨rfl, .refl _ _ _⟩ (by rw [h.works])
    (by rw [h.works]; exact .refl _)
  rw [h.works] at hagain
  obtain ⟨-, hfollows, -⟩ := hagain
  have hwhole := hextends.trans hfollows
  exact ⟨hwhole, hbegins.held.extends hproper hwhole, hbegins.rootAt.of_hasWays hwhole.hasWays,
    hfollows.lookup_of_not_file (by simp) hclone⟩

omit hn hrunner in
/-- Another run takes the same course in what is left. -/
theorem exists_again (hw : w.Addressable) (hextends : Extends ready.files worked.files)
    (hends : Ends w R worked.files) (hcloses : w.Closes R worked.files left.files)
    (hrepeats : Repeats worked.files (Starts left.files (w.cloneAt R) ready.files)
      (Follows left.files (w.cloneAt R) B) (working s w runner)) :
    ∃ locked' ready' worked', Course s w runner summary left locked' ready' worked' ∧
      worked'.files.here = worked.files.here ∧
      ∀ l, worked'.files.lookup l = worked.files.lookup l := by
  -- The lock is taken again.
  obtain ⟨hcreate, hheld, hroot, hclean⟩ := hcloses.locked hends.held hends.clone
  obtain ⟨events, hlocks⟩ := @Workspace.run_lock_of_created σ w left _ _
    (Workspace.makeDirectories_of_rootAt Workspace.isName_lockName.1 hends.held.text
      hcloses.stands.rootAt) hcreate
  obtain ⟨ready', hreadies, hclean', hheld', hhere, hsame⟩ :=
    @exists_ready σ w R { left with
      files := _
      events
      requests := left.requests ++ w.lockRequests left.files left.files } hw hheld hroot hclean
  have hretraces := hcloses.retraces hbegins.clean hbegins.held.proper hbegins.lock hextends
    hclean' hheld'.proper hhere hsame
  -- The work is repeated.
  obtain ⟨hvalue, hfollows⟩ := hrepeats.again ready ready' summary ⟨rfl, hretraces⟩
    (by rw [h.works]) (by rw [h.works]; exact .refl _)
  obtain ⟨worked', hworks⟩ : ∃ worked', (working s w runner).run ready' = (.ok summary, worked') :=
    ⟨_, Prod.ext hvalue rfl⟩
  rw [h.works, hworks] at hfollows
  obtain ⟨-, hretraces'⟩ := hfollows
  exact ⟨_, ready', worked', ⟨run_validate h.validates left, hlocks, hreadies, hworks⟩,
    hretraces'.here, hretraces'.lookup_end hcloses.part rfl⟩

end Course

/-! ### A small project again -/

/-- What the tools of a small project make, as they reply. -/
def smallReply (command : ToolCommand) : FixedReply where
  answer := .ok ⟨0, "", ""⟩
  files :=
    if command.program = "git" then
      [⟨["cloned_repo", "math.h"], Utf8.encode "int f(void);\n", false, by decide⟩,
        ⟨["cloned_repo", "math.c"], Utf8.encode "int f(void) { return 1; }\n", false, by decide⟩]
    else if command.program = "lcov" then [⟨["coverage.info"], [], false, by decide⟩]
    else if command.program = "genhtml" then
      [⟨["coverage_report", "index.html"], [], false, by decide⟩]
    else []

/-- What is in the template of a small project. -/
def smallTemplate : Entry :=
  smallEntry (some "__HEADER_DEFINITIONS__\n__FUNCTIONS_IMPLEMENTATION__\n")

/-- What is in the test module of a small project. -/
def smallModule : Entry :=
  smallEntry (some "int f(void);\nint f(void) { return 1; }\n\n")

theorem grounded_smallTemplate (name : String) :
    (FileTree.empty.insert [name] smallTemplate).Grounded := by
  have hempty : ∀ l, l ≠ [] → FileTree.empty.lookup l = none := fun l hl => by
    rw [lookup, if_neg hl]
    rfl
  have hgrounded : GroundedFrom [] FileTree.empty := fun l name e _ he =>
    absurd ((hempty (l ++ [name]) (by simp)).symm.trans he) (by simp)
  have hbase : [] <+: ([] : Location) → FileTree.empty.lookup [] = some .directory := fun _ => rfl
  exact ⟨hgrounded.insert hbase (by simp [hempty]), rfl⟩

/-- The stages of a small project with tools that reply in one way. -/
def repliedStages : Stages Unit :=
  stages smallOptions.settings smallOptions.workspace (.replying smallReply)

theorem repliedStages_eq :
    stages smallOptions.settings smallOptions.workspace (.replying smallReply) = repliedStages :=
  rfl

/-! ### Another run -/

/-- A run that succeeds, in a tree in which all is in directories, is followed by another one that
    succeeds with the same summary, and leaves all files as they are. The root has to be where it is
    without the help of the clone, the cleaning at the end of the first run must not fail, and the
    file that the template is read from, if it is still there, must be the same afterwards. -/
theorem run_again {o : Options} (ho : o.check = .ok ()) (hrunner : runner.RepliesWith reply)
    (hproper : world.files.Proper) (hgrounded : world.files.Grounded)
    (hrun : ((stages o.settings o.workspace runner).run.run world).1 = .ok summary)
    (hstands : ∀ taken, (stages o.settings o.workspace runner).Passes world ⟨.locked, taken⟩ →
      ∀ R, o.workspace.RootAt taken.files R → o.workspace.Stands taken.files R)
    (hcleanup : ∀ left,
      (stages o.settings o.workspace runner).Passes world ⟨.worked (.ok summary), left⟩ →
      ((stages o.settings o.workspace runner).cleanup.run left).1 = .ok ())
    (htemplate : ∀ clone prepared,
      (stages o.settings o.workspace runner).Passes world ⟨.prepared clone, prepared⟩ →
      KeepsTemplate o.settings prepared.files
        ((stages o.settings o.workspace runner).run.run world).2.files) :
    let left := ((stages o.settings o.workspace runner).run.run world).2
    ((stages o.settings o.workspace runner).run.run left).1 = .ok summary ∧
      ∀ l, ((stages o.settings o.workspace runner).run.run left).2.files.lookup l =
        left.files.lookup l := by
  have hn := Options.isName_cloneName ho
  obtain ⟨locked, ready, worked, hcourse⟩ := exists_course hrun
  have hw := hcourse.addressable hn (Options.text_root ho).2
  obtain ⟨-, -, -, -, -, hworked⟩ := hcourse.exists_cloned
  have hproper' := proper_of_passes hn hrunner.keeps_proper hproper hworked
  have hpart : Part ((stages o.settings o.workspace runner).run.run world).2.files
      worked.files := by
    obtain ⟨t, hcleans, hclosed⟩ := exists_cleans_closed o.settings runner hn (.ok summary) hproper'
    rw [hcourse.run_eq, hclosed]
    exact (Part.removeFile t _).trans hcleans.part
  obtain ⟨R, hbegins⟩ :=
    hcourse.exists_begins hw hproper hgrounded (hstands locked hcourse.passes_locked)
  obtain ⟨B, hextends, hclone, hrepeats⟩ :=
    hcourse.exists_repeats hn hrunner hbegins hpart fun _ => htemplate _ _
  obtain ⟨hwhole, hends⟩ := hcourse.ends hbegins hproper' hextends hclone hrepeats
  obtain ⟨hsummary, hcloses, hreaches⟩ :=
    hends.closes o.settings runner summary hw (hcleanup worked hworked)
  rw [← hcourse.run_eq] at hsummary hcloses
  intro left
  obtain ⟨locked', ready', worked', hcourse', hhere, hsame⟩ :=
    hcourse.exists_again hbegins hw hwhole hends hcloses hrepeats
  -- The end is the same, too.
  obtain ⟨-, -, -, -, -, hworked'⟩ := hcourse'.exists_cloned
  have hends' : Ends o.workspace R worked'.files := hends.of_lookup
    (proper_of_passes hn hrunner.keeps_proper hcloses.proper hworked') hhere hsame
  have hreaches' := hreaches.of_part ⟨hhere, fun l e he => (hsame l).symm.trans he⟩
  obtain ⟨hsummary', hcloses', -⟩ := hends'.closes o.settings runner summary hw
    (hends'.run_clean hw hreaches')
  rw [← hcourse'.run_eq] at hsummary' hcloses'
  exact ⟨hsummary', hcloses.lookup_eq hcloses' hhere hsame⟩

/-- Another run of a small project gives the same, and leaves the test module as it is. -/
theorem run_again_small :
    smallOptions.check = .ok () ∧
      (Runner.replying smallReply : Runner Unit).RepliesWith smallReply ∧
      smallWorld.files.Proper ∧ smallWorld.files.Grounded ∧
      (repliedStages.run.run smallWorld).1 = .ok smallSummary ∧
      (repliedStages.run.run (repliedStages.run.run smallWorld).2).1 = .ok smallSummary ∧
      (repliedStages.run.run (repliedStages.run.run smallWorld).2).2.files.lookup
        ["test_math.py"] = some smallModule := by
  have hcheck : smallOptions.check = .ok () := by decide +kernel
  have hgrounded : smallWorld.files.Grounded := grounded_smallTemplate "t.py"
  -- What the first run gives, and what is there at the moments that the conditions speak of.
  obtain ⟨hrun, hprepared, hworked, hcleanup, htemplate, hkept, hmodule⟩ :
      (repliedStages.run.run smallWorld).1 = .ok smallSummary ∧
        (repliedStages.moment smallWorld 3).phase = .prepared ⟨"./cloned_repo"⟩ ∧
        (repliedStages.moment smallWorld 6).phase = .worked (.ok smallSummary) ∧
        (repliedStages.cleanup.run (repliedStages.moment smallWorld 6).world).1 = .ok () ∧
        (repliedStages.moment smallWorld 3).world.files.find ⟨"t.py"⟩ true =
          .ok (["t.py"], smallTemplate) ∧
        (repliedStages.run.run smallWorld).2.files.lookup ["t.py"] = some smallTemplate ∧
        (repliedStages.run.run smallWorld).2.files.lookup ["test_math.py"] = some smallModule := by
    decide +kernel
  have hstands : ∀ taken, repliedStages.Passes smallWorld ⟨.locked, taken⟩ →
      ∀ R, smallOptions.workspace.RootAt taken.files R →
        smallOptions.workspace.Stands taken.files R := by
    intro taken _ R hroot
    have hhere := Workspace.stands_here (w := smallOptions.workspace) rfl taken.files
    obtain rfl := hroot.unique hhere.rootAt
    exact hhere
  have hcleans : ∀ left, repliedStages.Passes smallWorld ⟨.worked (.ok smallSummary), left⟩ →
      (repliedStages.cleanup.run left).1 = .ok () := by
    intro left hleft
    have hmoment : (⟨.worked (.ok smallSummary), left⟩ : Moment Unit) =
        repliedStages.moment smallWorld 6 :=
      hleft.eq_of_rank ⟨6, rfl⟩ (by rw [hworked])
    rwa [← hmoment] at hcleanup
  have hkeeps : ∀ clone prepared, repliedStages.Passes smallWorld ⟨.prepared clone, prepared⟩ →
      KeepsTemplate smallOptions.settings prepared.files
        (repliedStages.run.run smallWorld).2.files := by
    intro clone prepared hpasses p l e e' hp hfind he
    have hmoment : (⟨.prepared clone, prepared⟩ : Moment Unit) =
        repliedStages.moment smallWorld 3 :=
      hpasses.eq_of_rank ⟨3, rfl⟩ (by rw [hprepared]; rfl)
    rw [← hmoment] at htemplate
    obtain rfl : p = ⟨"t.py"⟩ := (Option.some.inj hp).symm
    obtain ⟨rfl, rfl⟩ := Prod.mk.inj (Except.ok.inj (htemplate.symm.trans hfind))
    exact Option.some.inj (he.symm.trans hkept)
  have hagain := run_again hcheck (Runner.repliesWith_replying smallReply) proper_smallWorld
    hgrounded (by rw [repliedStages_eq]; exact hrun) (by rw [repliedStages_eq]; exact hstands)
    (by rw [repliedStages_eq]; exact hcleans) (by rw [repliedStages_eq]; exact hkeeps)
  rw [repliedStages_eq] at hagain
  exact ⟨hcheck, Runner.repliesWith_replying smallReply, proper_smallWorld, hgrounded, hrun,
    hagain.1, (hagain.2 _).trans hmodule⟩

/-- The options of a small project whose template has the name of its test module. -/
def overwritingOptions : Options :=
  { smallOptions with template := some ⟨"test_math.py"⟩ }

/-- A world with nothing in it but that template. -/
def overwritingWorld : World Unit :=
  ⟨FileTree.empty.insert ["test_math.py"] smallTemplate, [], (), []⟩

/-- The stages of that project. -/
def overwritingStages : Stages Unit :=
  stages overwritingOptions.settings overwritingOptions.workspace (.replying smallReply)

/-- Such a template is overwritten by a run that succeeds, so that another run fails. -/
theorem overwritten_template :
    overwritingOptions.check = .ok () ∧
      (Runner.replying smallReply : Runner Unit).RepliesWith smallReply ∧
      overwritingWorld.files.Proper ∧ overwritingWorld.files.Grounded ∧
      (overwritingStages.run.run overwritingWorld).1 = .ok smallSummary ∧
      (overwritingStages.run.run (overwritingStages.run.run overwritingWorld).2).1 =
        .error (.failure (.placeholder "__HEADER_DEFINITIONS__" 0)) := by
  obtain ⟨hrun, hagain⟩ :
      (overwritingStages.run.run overwritingWorld).1 = .ok smallSummary ∧
        (overwritingStages.run.run (overwritingStages.run.run overwritingWorld).2).1 =
          .error (.failure (.placeholder "__HEADER_DEFINITIONS__" 0)) := by
    decide +kernel
  exact ⟨by decide +kernel, Runner.repliesWith_replying smallReply,
    proper_insert_smallEntry proper_empty (by decide) _, grounded_smallTemplate "test_math.py",
    hrun, hagain⟩

end TestBench.Project
