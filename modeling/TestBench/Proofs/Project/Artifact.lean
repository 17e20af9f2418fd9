import TestBench.Proofs.Project.Handover
import TestBench.Proofs.Project.Written
import TestBench.Proofs.Workspace.Remainder

/-!
# The source whose coverage is reported

If a project names no artifact, coverage is reported of the source that the bundled template
compiles the implementation into. Its name is read off that of the test module, which is the stem of
the implementation with the extension of the template behind it. So taking the extension off again
gives the stem, unless the template has none: then it is the stem that loses what is behind its last
dot. In any case the source is one that cleaning removes.

* `exists_calls_report`: the report starts with one look at the source;
* `generated_artifact`: which source that is.
-/

namespace TestBench

open FileTree

variable {σ : Type} {s : Settings} {w : Workspace} {m : TestModule} {stem extension name : String}

/-! ### The commands of a report -/

namespace Coverage

/-- Steps are called from the first on, and the first is called in any case. -/
theorem exists_noted_runSteps (runner : Runner σ) (commands : List ToolCommand)
    (w : World (σ × List ToolCommand)) :
    ∃ made, made <+: commands ∧ (commands ≠ [] → made ≠ []) ∧
      ((runSteps (recording runner) commands).run w).2.tools.2 = w.tools.2 ++ made := by
  induction commands generalizing w with
  | nil => exact ⟨[], List.prefix_rfl, fun h => h, (List.append_nil _).symm⟩
  | cons command commands ih =>
    rw [runSteps, Action.run_bind, Action.report, Action.run_ofFunction]
    simp only
    rw [Action.run_bind]
    have hcall := noted_call runner command { w with events := w.events ++
      [⟨.info, .coverage, s!"Coverage step: {command.display}"⟩] }
    generalize (Action.call (recording runner) command).run _ = called at hcall ⊢
    have hone : [command] <+: command :: commands := (List.prefix_cons_inj _).2 List.nil_prefix
    obtain ⟨halt | output, w'⟩ := called
    · exact ⟨[command], hone, fun _ => List.cons_ne_nil _ _, hcall⟩
    simp only at hcall ⊢
    rw [Action.run_bind]
    cases output.check command.program with
    | error failure => exact ⟨[command], hone, fun _ => List.cons_ne_nil _ _, hcall⟩
    | ok output =>
      -- What is reported about an output changes no tools.
      have hrest : ∀ w'' : World (σ × List ToolCommand), w''.tools.2 = w.tools.2 ++ [command] →
          ∃ made, made <+: command :: commands ∧ (command :: commands ≠ [] → made ≠ []) ∧
            ((runSteps (recording runner) commands).run w'').2.tools.2 = w.tools.2 ++ made := by
        intro w'' hw
        obtain ⟨made, hprefix, -, hmade⟩ := ih w''
        refine ⟨command :: made, (List.prefix_cons_inj _).2 hprefix,
          fun _ => List.cons_ne_nil _ _, ?_⟩
        rw [hmade, hw, List.append_assoc, List.singleton_append]
      simp only [Action.ofExcept, Action.run_pure]
      split
      · rw [Action.run_bind]
        exact hrest _ hcall
      · exact hrest _ hcall

/-- A report starts with one look at a source. -/
theorem exists_calls_report (w : Workspace) (source : String) (runner : Runner σ)
    (world : World σ) :
    ∃ rest, calls (report (recording runner) w source) world =
        ⟨"gcov", ["-b", "-c", source], some w.root, []⟩ :: rest ∧
      ∀ c ∈ rest, c.program ≠ "gcov" := by
  obtain ⟨made, hprefix, hne, hmade⟩ := exists_noted_runSteps runner (steps w source)
    ⟨world.files, world.events, (world.tools, []), world.requests⟩
  have hcalls : calls (report (recording runner) w source) world = made := by
    rw [calls, report, Action.run_bind]
    generalize (runSteps (recording runner) (steps w source)).run _ = done at hmade ⊢
    obtain ⟨halt | _, w'⟩ := done
    · exact hmade
    · exact hmade
  rw [hcalls]
  obtain ⟨c, rest, rfl⟩ := List.exists_cons_of_ne_nil (hne (List.cons_ne_nil _ _))
  obtain ⟨rfl, hrest⟩ := List.cons_prefix_cons.1 hprefix
  refine ⟨rest, rfl, fun c hc => ?_⟩
  have hother : "lcov" ≠ "gcov" ∧ "genhtml" ≠ "gcov" := by decide
  rcases List.mem_pair.1 (hrest.subset hc) with rfl | rfl
  · exact hother.1
  · exact hother.2

end Coverage

/-! ### The name of the source -/

/-- The stem of a path that is one name is that of the name. -/
theorem Path.stem?_name (h : IsName name) :
    (Path.ofText name).stem? = some (.ofText (String.ofList (splitExtension name.toList).1)) := by
  rw [stem?, fileName?, ofText, components_name (isName_ofText_iff.2 h)]
  refine congrArg some (String.toList_injective ?_)
  dsimp only
  rw [ByteString.toList_ofText, ByteString.toList_ofText, splitExtension_spelled,
    String.toList_ofList, String.toList_ofList]

namespace TestModule

/-- Without the extension, the name of a test module is what it was made of. -/
theorem stem_extended (stem : String) (hdot : '.' ∉ extension.toList) :
    (splitExtension ("test_" ++ stem ++ ("." ++ extension)).toList).1 =
      ("test_" ++ stem).toList := by
  have htext : ("test_" ++ stem ++ ("." ++ extension)).toList =
      ("test_" ++ stem).toList ++ '.' :: extension.toList := by
    simp [String.toList_append]
  have hne : ("test_" ++ stem).toList ≠ [] := by simp
  rw [htext, splitExtension_append hne hdot]

/-- So it is if there is none, and no dot either. -/
theorem stem_bare (hdot : '.' ∉ stem.toList) :
    (splitExtension ("test_" ++ stem).toList).1 = ("test_" ++ stem).toList := by
  have hnone : '.' ∉ ("test_" ++ stem).toList := by
    have hstart : '.' ∉ "test_".toList := by decide
    rw [String.toList_append, List.mem_append, not_or]
    exact ⟨hstart, hdot⟩
  rw [splitExtension_of_dot_notMem hnone]

end TestModule

namespace Project

theorem artifact_of_none (hartifact : s.artifact = none) (hname : Path.IsName m.fileName)
    (hstem : (splitExtension m.fileName.toList).1 = ("test_" ++ stem).toList) :
    artifact s m = "_test_" ++ stem ++ ".c" := by
  rw [artifact, hartifact, Path.stem?_name hname, hstem, String.ofList_toList, Option.bind_some,
    ByteString.text?_ofText]
  change "_" ++ ("test_" ++ stem) ++ ".c" = _
  rw [← String.append_assoc]
  rfl

/-- Whether the test modules of a project get no extension. -/
def IsBare (s : Settings) : Prop :=
  ∃ p, s.template = some p ∧ ∀ extension, p.extension? ≠ some (.ofText extension)

/-- If test modules get an extension, or the stem has none, the source has the whole stem in its
    name. -/
theorem artifact_of_whole {t : FileTree} {template : String} (hartifact : s.artifact = none)
    (htemplate : HasTemplate s t template extension) (hname : Path.IsName m.fileName)
    (hm : m.fileName = "test_" ++ stem ++ extension) (hwhole : IsBare s → '.' ∉ stem.toList) :
    artifact s m = "_test_" ++ stem ++ ".c" := by
  refine artifact_of_none hartifact hname ?_
  rw [hm]
  cases htemplate with
  | bundled =>
    have hdot : '.' ∉ "py".toList := by decide
    exact @TestModule.stem_extended "py" stem hdot
  | extended _ _ hext =>
    obtain ⟨_, _, _, _, _, hdot⟩ := Path.extension?_eq_some_iff.1 hext
    exact TestModule.stem_extended stem (mt (ByteString.mem_ofText_iff (by decide)).2 hdot)
  | bare hp _ hext =>
    rw [String.append_empty]
    exact TestModule.stem_bare (hwhole ⟨_, hp, hext⟩)

/-- If test modules get no extension, what is behind the last dot of the stem is taken for one. -/
theorem artifact_of_cut {t : FileTree} {template front back : String} (hbare : IsBare s)
    (hartifact : s.artifact = none) (htemplate : HasTemplate s t template extension)
    (hname : Path.IsName m.fileName)
    (hm : m.fileName = "test_" ++ (front ++ "." ++ back) ++ extension)
    (hdot : '.' ∉ back.toList) : artifact s m = "_test_" ++ front ++ ".c" := by
  obtain ⟨p, hp, hnone⟩ := hbare
  refine artifact_of_none hartifact hname ?_
  cases htemplate with
  | bundled h => cases hp.symm.trans h
  | extended h _ hext =>
    obtain rfl := Option.some.inj (hp.symm.trans h)
    exact absurd hext (hnone _)
  | bare =>
    have htext : m.fileName = "test_" ++ front ++ ("." ++ back) := by
      simp only [hm, String.append_empty, String.append_assoc]
    rw [htext]
    exact TestModule.stem_extended front hdot

/-- What is behind the last dot of a stem. -/
theorem exists_cut (hdot : '.' ∈ stem.toList) :
    ∃ front back, stem = front ++ "." ++ back ∧ '.' ∉ back.toList := by
  obtain ⟨back, front, hstem, hback⟩ := List.eq_append_cons_of_mem (List.mem_reverse.2 hdot)
  refine ⟨String.ofList front.reverse, String.ofList back.reverse, ?_, by simpa using hback⟩
  apply String.toList_injective
  rw [← List.reverse_reverse stem.toList, hstem]
  simp [String.toList_append]

/-- In any case the source is one that cleaning removes. -/
theorem isBuildName_artifact {t : FileTree} {template : String} (hartifact : s.artifact = none)
    (htemplate : HasTemplate s t template extension) (hname : Path.IsName m.fileName)
    (hm : m.fileName = "test_" ++ stem ++ extension) :
    Path.IsName (artifact s m) ∧ IsBuildName (.ofText (artifact s m)) := by
  have hslash : '/' ∉ stem.toList := by
    have := hname.1
    rw [hm] at this
    simp only [String.toList_append, List.mem_append, not_or] at this
    exact this.1.2
  -- What is left of the stem is part of it.
  obtain ⟨kept, hsource, hkept⟩ : ∃ kept, artifact s m = "_test_" ++ kept ++ ".c" ∧
      '/' ∉ kept.toList := by
    by_cases hwhole : IsBare s → '.' ∉ stem.toList
    · exact ⟨stem, artifact_of_whole hartifact htemplate hname hm hwhole, hslash⟩
    · rw [Classical.not_imp, not_not] at hwhole
      obtain ⟨front, back, rfl, hdot⟩ := exists_cut hwhole.2
      refine ⟨front, artifact_of_cut hwhole.1 hartifact htemplate hname hm hdot, fun hmem => ?_⟩
      exact hslash (by simp [String.toList_append, hmem])
  rw [hsource]
  refine ⟨⟨?_, ?_, ?_, ?_⟩, .inr (.inr ⟨kept, rfl⟩)⟩
  · have hends : '/' ∉ "_test_".toList ∧ '/' ∉ ".c".toList := by decide
    simp only [String.toList_append, List.mem_append, not_or]
    exact ⟨⟨hends.1, hkept⟩, hends.2⟩
  all_goals
    intro h
    have := congrArg String.toList h
    simp [String.toList_append] at this

/-- A test module that is generated is composed. -/
theorem composes_of_generate {clone : Path} {world left : World σ} (hproper : world.files.Proper)
    (hgrounded : world.files.Grounded)
    (h : (generate s w clone).run world = (.ok m, left)) : Composes s clone world.files m := by
  obtain ⟨events, hrun⟩ := @gives_composing σ s clone world
  rw [generate_eq, Action.run_bind, hrun] at h
  cases hmade : composed s clone world.files with
  | error halt =>
    rw [hmade] at h
    cases h
  | ok made =>
    rw [hmade] at h
    obtain ⟨_, w', -, hwritten⟩ := Action.exists_of_run_bind_eq h
    obtain ⟨_, w'', -, hreported⟩ := Action.exists_of_run_bind_eq hwritten
    obtain rfl : made.1 = m := Except.ok.inj (Prod.mk.inj hreported).1
    exact composes_of_composed hproper hgrounded hmade

/-- If a project names no artifact, the report on a test module that was generated looks at one
    source, and that is named after the implementation: it is `_test_<stem>.c` for an implementation
    `<stem>.c`, and with "module" for the stem if that is no text. Only if the template has no
    extension, and the stem has a dot, what is behind the last dot of the stem is missing. In any
    case, cleaning takes the source for a file that a run leaves behind: if it is in a root that
    stands without the clone, it is gone after a cleaning that succeeds. -/
theorem generated_artifact (s : Settings) (w : Workspace) (runner : Runner σ) (clone : Path)
    (world : World σ) (hproper : world.files.Proper) (hgrounded : world.files.Grounded)
    (hartifact : s.artifact = none) {m : TestModule} {left : World σ}
    (hgenerate : (generate s w clone).run world = (.ok m, left)) :
    ∃ (base : ByteString) (stem source : String),
      m.sourceName = ByteString.display (base ++ ".c") ∧ stem = base.text?.getD "module" ∧
      (∃ bytes, Lookup.IsGiven world.files clone s.implementation "c" (base ++ ".c") bytes) ∧
      (∀ later, ∃ rest, calls ((stages s w (recording runner)).report m) later =
        ⟨"gcov", ["-b", "-c", source], some w.root, []⟩ :: rest ∧
          ∀ c ∈ rest, c.program ≠ "gcov") ∧
      ((IsBare s → '.' ∉ stem.toList) → source = "_test_" ++ stem ++ ".c") ∧
      (IsBare s → ∀ front back, stem = front ++ "." ++ back → '.' ∉ back.toList →
        source = "_test_" ++ front ++ ".c") ∧
      Workspace.isArtifact (w.root.join (.ofText source)) ∧
      ∀ (dirty cleaned : World σ) R content executable, Path.IsName w.cloneName →
        dirty.files.Proper → dirty.files.Grounded → dirty.files.directory w.root = .ok R →
        w.Stands dirty.files R →
        dirty.files.lookup (R ++ [.ofText source]) = some (.file content executable) →
        (w.clean : Action σ Unit).run dirty = (.ok (), cleaned) →
        cleaned.files.lookup (R ++ [.ofText source]) = none := by
  have hname := Path.isName_ofText_iff.1 (yields_generate clone world m (by rw [hgenerate])).1
  cases composes_of_generate hproper hgrounded hgenerate with
  | @mk base _ _ _ extension content bytes _ hsource _ _ htemplate =>
  obtain ⟨hsourceName, hbuild⟩ := isBuildName_artifact hartifact htemplate hname rfl
  refine ⟨base, base.text?.getD "module", artifact s _, rfl, rfl, ⟨bytes, hsource⟩, fun later => ?_,
    artifact_of_whole hartifact htemplate hname rfl, fun hbare front back hstem hdot => ?_, ?_, ?_⟩
  · exact Coverage.exists_calls_report w _ runner later
  · exact artifact_of_cut hbare hartifact htemplate hname (by rw [hstem]) hdot
  · exact (w.isArtifact_join_iff (Path.isName_ofText_iff.2 hsourceName)).2 hbuild
  · intro dirty cleaned R content executable hclone hdirty hground hroot hstands hfile hclean
    exact (Workspace.lookup_of_run_clean_of_directory hclone hdirty hground hroot hstands hclean
      _).1 (.file hroot rfl hbuild hfile)

/-- A project with dots in the name of its implementation, and a template without an extension. -/
def dottedSettings : Settings :=
  { smallOptions.settings with
    implementation := "a.b.c"
    header := "a.h"
    template := some ⟨"tmpl"⟩ }

/-- A world with a clone and a template for it. -/
def dottedWorld : World Unit :=
  let entry := fun text => Entry.file (Utf8.encode text) false
  ⟨⟨[(["tmpl"], entry "__HEADER_DEFINITIONS__\n__FUNCTIONS_IMPLEMENTATION__\n"),
      (["cloned_repo"], .directory), (["cloned_repo", "a.h"], entry "int f(void);\n"),
      (["cloned_repo", "a.b.c"], entry "int f(void) { return 1; }\n")], []⟩, [], (), []⟩

/-- Only one file there has a name with the extension. -/
theorem eq_of_isGiven_dotted {clone : Path} {base : ByteString} {bytes : List UInt8}
    (h : Lookup.IsGiven dottedWorld.files clone name extension (base ++ ".c") bytes) :
    base = "a" ++ "." ++ "b" := by
  obtain ⟨l, names, executable, -, hchosen, hlast, hfile⟩ := h
  have hne := hchosen.candidate.ne_nil
  have hmem := mem_of_lookup (by simp [hne]) hfile
  have hend : (l ++ names).getLast?.map String.toList = some (base.toList ++ ['.', 'c']) := by
    rw [List.getLast?_append_of_ne_nil _ hne, hlast, Option.map_some, String.toList_append]
    rfl
  generalize l ++ names = place at hmem hend
  -- The other names end in another letter.
  have hletter := congrArg (Option.bind · List.getLast?) hend
  simp only [dottedWorld, List.mem_cons, List.not_mem_nil, or_false, Prod.mk.injEq] at hmem
  obtain ⟨rfl, -⟩ | ⟨rfl, -⟩ | ⟨rfl, -⟩ | ⟨rfl, -⟩ := hmem
  · simp at hletter
  · simp at hletter
  · simp at hletter
  · have htext : ("a" ++ "." ++ "b").toList ++ ['.', 'c'] = base.toList ++ ['.', 'c'] :=
      Option.some.inj hend
    exact String.toList_injective (List.append_cancel_right htext.symm)

/-- There the report does not look at the source that is named after the whole stem. -/
theorem generated_artifact_dotted :
    dottedWorld.files.Proper ∧ dottedWorld.files.Grounded ∧ dottedSettings.artifact = none ∧
    ∃ m left, (generate dottedSettings smallOptions.workspace ⟨"./cloned_repo"⟩).run dottedWorld =
        (.ok m, left) ∧ m.sourceName = "a.b.c" ∧
      (∀ later, ∃ rest, calls ((stages dottedSettings smallOptions.workspace
          (recording smallTools)).report m) later =
        ⟨"gcov", ["-b", "-c", "_test_a.c"], some ⟨"."⟩, []⟩ :: rest ∧
          ∀ c ∈ rest, c.program ≠ "gcov") ∧
      Workspace.isArtifact ⟨"./_test_a.c"⟩ := by
  have hproper : dottedWorld.files.Proper :=
    ⟨by decide, by decide, by decide, by simp [dottedWorld]⟩
  have hgrounded : dottedWorld.files.Grounded := ⟨groundedFrom_of_entries (by decide +kernel), rfl⟩
  have hvalue : ((generate dottedSettings smallOptions.workspace ⟨"./cloned_repo"⟩).run
      dottedWorld).1 =
      .ok ⟨"test_a.b", "int f(void);\nint f(void) { return 1; }\n\n", "a.b.c"⟩ := by
    decide +kernel
  have hrun := Prod.ext (x := (generate dottedSettings smallOptions.workspace
    ⟨"./cloned_repo"⟩).run dottedWorld) (y := (_, _)) hvalue rfl
  obtain ⟨base, stem, source, -, hstem, ⟨bytes, hgiven⟩, hcalls, -, hcut, hartifact, -⟩ :=
    generated_artifact dottedSettings smallOptions.workspace smallTools ⟨"./cloned_repo"⟩
      dottedWorld hproper hgrounded rfl hrun
  have hnone : (⟨"tmpl"⟩ : Path).extension? = none := by decide +kernel
  have hbare : IsBare dottedSettings :=
    ⟨⟨"tmpl"⟩, rfl, fun extension h => absurd (hnone.symm.trans h) (by simp)⟩
  obtain rfl : stem = "a" ++ "." ++ "b" := by
    rw [hstem, eq_of_isGiven_dotted hgiven]
    decide +kernel
  obtain rfl : source = "_test_a.c" := hcut hbare "a" "b" rfl (by decide)
  exact ⟨hproper, hgrounded, rfl, _, _, hrun, rfl, hcalls, hartifact⟩

end Project

end TestBench
