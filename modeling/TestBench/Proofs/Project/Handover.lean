import TestBench.Options.Variables
import TestBench.Project
import TestBench.Proofs.Check
import TestBench.Proofs.Lookup
import TestBench.Proofs.Tool.Calls
import TestBench.Proofs.Workspace.Cleaning

/-!
# Paths that are handed to tools

A run works from where the program was started, and its tools run in the root of the workspace.
Both use the same paths, as the options give them. So what a tool makes of a path is what the
program makes of it only if the root leads from itself to itself again (`LeadsBack`): an absolute
root does, and so does a dot, but most relative roots do not. A tool is given a path as it is shown,
which is the path itself if that is a text.

* `calls_prepare`, `calls_report`, `calls_execute`: the commands that the stages call;
* `agrees_iff_leadsBack`: when the paths in them lead tool and program to the same places.
-/

namespace TestBench

variable {σ : Type}

/-! ### The commands of a run -/

namespace Project

/-- Preparing calls the command that clones. -/
theorem calls_prepare (s : Settings) (w : Workspace) (runner : Runner σ) (world : World σ) :
    ∀ c ∈ calls (prepare s w (recording runner)) world, c = cloneCommand s w := by
  refine forall_mem_calls ?_ world
  refine CallsOnly.bind (.of_quiet (Workspace.quiet_clean w)) fun _ => ?_
  refine CallsOnly.bind (CallsOnly.request _) fun _ => ?_
  refine CallsOnly.bind CallsOnly.report fun _ => ?_
  refine CallsOnly.bind (CallsOnly.call _ rfl) fun _ => ?_
  exact CallsOnly.bind (CallsOnly.ofExcept _) fun _ => CallsOnly.pure _

theorem callsOnly_runSteps {P : ToolCommand → Prop} (runner : Runner σ) {cs : List ToolCommand}
    (h : ∀ c ∈ cs, P c) : CallsOnly P (Coverage.runSteps (recording runner) cs) := by
  induction cs with
  | nil => exact CallsOnly.pure ()
  | cons c cs ih =>
    rw [List.forall_mem_cons] at h
    refine CallsOnly.bind CallsOnly.report fun _ => ?_
    refine CallsOnly.bind (CallsOnly.call _ h.1) fun _ => ?_
    refine CallsOnly.bind (CallsOnly.ofExcept _) fun _ => ?_
    have ih := ih h.2
    split
    · exact CallsOnly.bind CallsOnly.report fun _ => ih
    · exact ih

/-- Reporting calls the commands that make the report. -/
theorem calls_report (w : Workspace) (artifact : String) (runner : Runner σ) (world : World σ) :
    ∀ c ∈ calls (Coverage.report (recording runner) w artifact) world,
      c ∈ Coverage.steps w artifact := by
  refine forall_mem_calls ?_ world
  exact CallsOnly.bind (callsOnly_runSteps runner fun _ hc => hc) fun _ => CallsOnly.pure _

/-- The directory of a header that was looked up, or else the clone. -/
def directoryOf (w : Workspace) : Except Halt Path → Path
  | .ok p => p.parent?.getD w.clone
  | .error _ => w.clone

/-- The directory that a test module is told to find its header in. -/
def includeDirectory (s : Settings) (w : Workspace) (t : FileTree) : Path :=
  directoryOf w (Lookup.outcome t w.clone s.header SourceKind.header.extension)

theorem run_headerDirectory (s : Settings) (w : Workspace) (world : World σ) :
    ∃ events, (headerDirectory s w).run world =
      (.ok (includeDirectory s w world.files), { world with events }) := by
  obtain ⟨events, h⟩ :=
    Lookup.run_locate w.clone s.header SourceKind.header.extension world
  refine ⟨events, ?_⟩
  simp only [headerDirectory, includeDirectory, Action.run_bind, Action.attempt,
    Action.run_ofFunction, h]
  cases Lookup.outcome world.files w.clone s.header SourceKind.header.extension <;> rfl

/-- Executing calls the command that executes the module, with the directory of the header. -/
theorem calls_execute (s : Settings) (w : Workspace) (m : TestModule) (runner : Runner σ)
    (world : World σ) :
    ∀ c ∈ calls (execute s w (recording runner) m) world,
      c = testCommand s w m (includeDirectory s w world.files) := by
  obtain ⟨events, h⟩ := run_headerDirectory s w
    (⟨world.files, world.events, (world.tools, []), world.requests⟩ : World (σ × List ToolCommand))
  rw [calls, execute, Action.run_bind, h]
  refine CallsOnly.bind CallsOnly.report (fun _ => ?_) _ (by simp)
  exact CallsOnly.bind (CallsOnly.call _ rfl) fun _ => CallsOnly.ofExcept _

end Project

/-! ### What a command is told -/

namespace ToolCommand

/-- The value that a command sets a variable to. -/
def settingOf? (c : ToolCommand) (key : String) : Option String :=
  Variables.value? c.environment.reverse key

/-- Where a command runs that is called from a place. -/
def placeFrom (c : ToolCommand) (cwd : Place) : Place :=
  match c.directory with
  | some d => d.placeFrom cwd
  | none => cwd

/-- Whether a text leads a command to the place where a path leads the program that calls it. -/
def Agrees (c : ToolCommand) (cwd : Place) (given : String) (used : Path) : Prop :=
  (Path.ofText given).placeFrom (c.placeFrom cwd) = used.placeFrom cwd

end ToolCommand

/-- Whether a path leads from its own place to that place again: it is absolute, it leads up as
    far as down, or it leads up to the top both times. -/
def Path.LeadsBack (cwd : Place) (p : Path) : Prop :=
  p.isAbsolute ∨ p.way.2.length = p.way.1 ∨
    (cwd.length ≤ p.way.1 ∧ p.way.2.length ≤ p.way.1)

instance (cwd : Place) (p : Path) : Decidable (p.LeadsBack cwd) :=
  inferInstanceAs (Decidable (_ ∨ _))

/-- A path leads a command that runs in the root where it leads the program, if it leads to one
    place from both. -/
theorem ToolCommand.agrees_display_iff {c : ToolCommand} (root : Path)
    (hc : c.directory = some root) (cwd : Place) {p : Path} (hp : p.IsText) :
    c.Agrees cwd p.display p ↔ p.placeFrom (root.placeFrom cwd) = p.placeFrom cwd := by
  rw [ToolCommand.Agrees, ToolCommand.placeFrom, hc, hp.ofText_display]

/-- What is behind the root makes no difference. -/
theorem Path.placeFrom_below_iff {root p : Path} {names : List String}
    (hp : ∀ base, p.placeFrom base = root.placeFrom base ++ names) (cwd : Place) :
    p.placeFrom (root.placeFrom cwd) = p.placeFrom cwd ↔ root.LeadsBack cwd := by
  rw [hp, hp, List.append_cancel_right_eq]
  exact placeFrom_placeFrom_iff root cwd

/-! ### Names that options may give -/

namespace Options

variable {o : Options}

theorem isName_of_checkGiven (field : String) {default : String} {value : Option String}
    (h : checkGiven value (Check.directoryName field) = .ok ()) (hd : Path.IsName default) :
    Path.IsName (.ofText (value.getD default)) := by
  cases value with
  | none => exact Path.isName_ofText_iff.2 hd
  | some name => exact Check.isName_of_directoryName h

theorem isName_cloneName (h : o.check = .ok ()) : Path.IsName o.workspace.cloneName := by
  refine isName_of_checkGiven "repo_dir" (check_eq_ok_iff.1 h _ ?_)
    ⟨by decide, by decide, by decide, by decide⟩
  exact .tail _ (.tail _ (.tail _ (.tail _ (.tail _ (.head _)))))

theorem isName_reportName (h : o.check = .ok ()) : Path.IsName o.workspace.reportName := by
  refine isName_of_checkGiven "report_dir" (check_eq_ok_iff.1 h _ ?_)
    ⟨by decide, by decide, by decide, by decide⟩
  exact .tail _ (.tail _ (.tail _ (.tail _ (.tail _ (.tail _ (.head _))))))

/-- The paths of the clone and of the report are texts if the root is one. -/
theorem isText_clone (h : o.workspace.root.IsText) : o.workspace.clone.IsText :=
  h.join _

theorem isText_report (h : o.workspace.root.IsText) : o.workspace.report.IsText :=
  h.join _

end Options

/-! ### Where the paths of a workspace lead -/

namespace Workspace

variable (w : Workspace)

theorem placeFrom_clone (h : Path.IsName w.cloneName) (base : Place) :
    w.clone.placeFrom base = w.root.placeFrom base ++ [w.cloneName] := by
  rw [clone, Path.placeFrom_join, Path.placeFrom_name h]

theorem placeFrom_report (h : Path.IsName w.reportName) (base : Place) :
    w.report.placeFrom base = w.root.placeFrom base ++ [w.reportName] := by
  rw [report, Path.placeFrom_join, Path.placeFrom_name h]

theorem placeFrom_coverageData (base : Place) :
    w.coverageData.placeFrom base = w.root.placeFrom base ++ [coverageName] := by
  rw [coverageData, Path.placeFrom_join,
    Path.placeFrom_name ⟨by decide, by decide, by decide, by decide⟩]

theorem isText_coverageData (h : w.root.IsText) : w.coverageData.IsText :=
  h.join coverageName

/-- A path below the clone leads to one place from two directories from which the root does. -/
theorem placeFrom_foldl_join {root : Path} {base base' : Place}
    (h : root.placeFrom base = root.placeFrom base') (names : List ByteString) :
    (names.foldl Path.join root).placeFrom base = (names.foldl Path.join root).placeFrom base' := by
  induction names generalizing root with
  | nil => exact h
  | cons name names ih =>
    refine ih ?_
    rw [Path.placeFrom_join, Path.placeFrom_join, h]

end Workspace

theorem Path.placeFrom_names {names : List ByteString} (h : ∀ n ∈ names, Path.IsName n)
    (root : Path) (base : Place) :
    (names.foldl Path.join root).placeFrom base = root.placeFrom base ++ names := by
  induction names generalizing root with
  | nil => exact (List.append_nil _).symm
  | cons name names ih =>
    rw [List.forall_mem_cons] at h
    rw [List.foldl_cons, ih h.2, Path.placeFrom_join, Path.placeFrom_name h.1, List.append_assoc]
    rfl

/-! ### What the tools make of it -/

namespace Project

/-- The command that clones is told where the clone is. -/
theorem agrees_clone {w : Workspace} (hw : Path.IsName w.cloneName) (htext : w.clone.IsText)
    (s : Settings) (cwd : Place) :
    ∃ given, (cloneCommand s w).args.getLast? = some given ∧
      ((cloneCommand s w).Agrees cwd given w.clone ↔ w.root.LeadsBack cwd) := by
  refine ⟨w.clone.display, rfl, ?_⟩
  rw [ToolCommand.agrees_display_iff w.root rfl cwd htext]
  exact Path.placeFrom_below_iff (w.placeFrom_clone hw) cwd

/-- The command that collects the coverage is told where the root and the data are. -/
theorem agrees_lcov {w : Workspace} (htext : w.root.IsText) {artifact : String} {c : ToolCommand}
    (hc : c ∈ Coverage.steps w artifact) (hp : c.program = "lcov") (cwd : Place) :
    ∃ directory data, c.args = ["--capture", "--directory", directory, "--output-file", data] ∧
      (c.Agrees cwd directory w.root ↔ w.root.LeadsBack cwd) ∧
      (c.Agrees cwd data w.coverageData ↔ w.root.LeadsBack cwd) := by
  simp only [Coverage.steps, List.mem_cons, List.not_mem_nil, or_false] at hc
  rcases hc with rfl | rfl | rfl
  · exact absurd (show "gcov" = "lcov" from hp) (by decide)
  · refine ⟨w.root.display, w.coverageData.display, rfl, ?_, ?_⟩
    · rw [ToolCommand.agrees_display_iff w.root rfl cwd htext]
      exact Path.placeFrom_placeFrom_iff w.root cwd
    · rw [ToolCommand.agrees_display_iff w.root rfl cwd (w.isText_coverageData htext)]
      exact Path.placeFrom_below_iff w.placeFrom_coverageData cwd
  · exact absurd (show "genhtml" = "lcov" from hp) (by decide)

/-- The command that renders the coverage is told where the data and the report are. -/
theorem agrees_genhtml {w : Workspace} (hw : Path.IsName w.reportName) (htext : w.root.IsText)
    (hreport : w.report.IsText) {artifact : String} {c : ToolCommand}
    (hc : c ∈ Coverage.steps w artifact) (hp : c.program = "genhtml") (cwd : Place) :
    ∃ data report, c.args = [data, "--output-directory", report] ∧
      (c.Agrees cwd data w.coverageData ↔ w.root.LeadsBack cwd) ∧
      (c.Agrees cwd report w.report ↔ w.root.LeadsBack cwd) := by
  simp only [Coverage.steps, List.mem_cons, List.not_mem_nil, or_false] at hc
  rcases hc with rfl | rfl | rfl
  · exact absurd (show "gcov" = "genhtml" from hp) (by decide)
  · exact absurd (show "lcov" = "genhtml" from hp) (by decide)
  · refine ⟨w.coverageData.display, w.report.display, rfl, ?_, ?_⟩
    · rw [ToolCommand.agrees_display_iff w.root rfl cwd (w.isText_coverageData htext)]
      exact Path.placeFrom_below_iff w.placeFrom_coverageData cwd
    · rw [ToolCommand.agrees_display_iff w.root rfl cwd hreport]
      exact Path.placeFrom_below_iff (w.placeFrom_report hw) cwd

/-- The command that executes a module is told where the header that was found is, if the path of
    its directory is a text. -/
theorem agrees_include {s : Settings} {w : Workspace} (hw : Path.IsName w.cloneName)
    {t : FileTree} {p : Path}
    (hp : Lookup.outcome t w.clone s.header SourceKind.header.extension = .ok p)
    (m : TestModule) (cwd : Place) :
    ∃ d given, p.parent? = some d ∧
      (testCommand s w m (includeDirectory s w t)).settingOf? includeVariable = some given ∧
      (d.IsText → w.root.LeadsBack cwd →
        (testCommand s w m (includeDirectory s w t)).Agrees cwd given d) ∧
      (d.IsText → (∀ e ∈ t.entries, ∀ n ∈ e.1, Path.IsName n) →
        ((testCommand s w m (includeDirectory s w t)).Agrees cwd given d ↔
          w.root.LeadsBack cwd)) := by
  obtain ⟨l, names, content, executable, -, -, hnames, hext, hmem⟩ := Lookup.exists_file hp
  obtain ⟨fileName, hfile, -⟩ := Option.bind_eq_some_iff.1 hext
  obtain ⟨d, hd, hplace⟩ := Path.exists_parent hfile
  have hdir : includeDirectory s w t = d := by
    rw [includeDirectory, hp, directoryOf, hd]
    rfl
  have hgiven : (testCommand s w m d).settingOf? includeVariable = some d.display := by
    simp [ToolCommand.settingOf?, testCommand, ToolCommand.withVariable, ToolCommand.addArgs,
      ToolCommand.ofProgram, ToolCommand.inDirectory, Variables.value?]
  -- The file is where its directory is, with a name behind it.
  have hiff : d.placeFrom (w.root.placeFrom cwd) = d.placeFrom cwd ↔
      p.placeFrom (w.root.placeFrom cwd) = p.placeFrom cwd := by
    rw [hplace, hplace, List.append_cancel_right_eq]
  rw [hdir]
  refine ⟨d, d.display, hd, hgiven, fun htext hback => ?_, fun htext ht => ?_⟩
  · rw [ToolCommand.agrees_display_iff w.root rfl cwd htext, hiff, hnames]
    refine Workspace.placeFrom_foldl_join ?_ names
    rw [w.placeFrom_clone hw, w.placeFrom_clone hw,
      (Path.placeFrom_placeFrom_iff w.root cwd).2 hback]
  · rw [ToolCommand.agrees_display_iff w.root rfl cwd htext, hiff]
    -- Proper names lead down from the clone, so that the file leads back as the root does.
    have hbelow : ∀ base, p.placeFrom base = w.root.placeFrom base ++ w.cloneName :: names := by
      intro base
      have hproper : ∀ n ∈ names, Path.IsName n :=
        fun n hn => ht _ hmem n (List.mem_append_right l hn)
      rw [hnames, Path.placeFrom_names hproper, w.placeFrom_clone hw, List.append_assoc]
      rfl
    exact Path.placeFrom_below_iff hbelow cwd

theorem eq_clone_of_prepare {s : Settings} {w : Workspace} {runner : Runner σ} {world : World σ}
    {p : Path} (h : ((prepare s w runner).run world).1 = .ok p) : p = w.clone := by
  obtain ⟨_, _, _, h⟩ := Action.exists_of_run_bind h
  obtain ⟨_, _, _, h⟩ := Action.exists_of_run_bind h
  obtain ⟨_, _, _, h⟩ := Action.exists_of_run_bind h
  obtain ⟨_, _, _, h⟩ := Action.exists_of_run_bind h
  obtain ⟨_, _, _, h⟩ := Action.exists_of_run_bind h
  exact (Except.ok.inj h).symm

theorem eq_reportIndex_of_report {w : Workspace} {artifact : String} {runner : Runner σ}
    {world : World σ} {p : Path}
    (h : ((Coverage.report runner w artifact).run world).1 = .ok p) :
    p = w.report.join "index.html" := by
  obtain ⟨_, _, _, h⟩ := Action.exists_of_run_bind h
  exact (Except.ok.inj h).symm

/-- The paths that a run hands to its tools are shown forms of the paths that it uses itself, and
    so the same paths, as far as these are texts. They lead the tools to the places where they lead
    the run if and only if the root of the workspace leads from its own place to that place again:
    the last argument of the command that clones leads to the clone, which is what preparing gives;
    the arguments of the commands that collect and render the coverage lead to the root, the data
    and the report, whose first page is what reporting gives; and the variable of the command that
    executes a module leads to the directory of the header that is found. -/
theorem agrees_iff_leadsBack {o : Options} (h : o.check = .ok ())
    (htext : o.workspace.root.IsText) (cwd : Place) (runner : Runner σ) (world : World σ) :
    (∀ c ∈ calls (prepare o.settings o.workspace (recording runner)) world,
      ∃ given, c.args.getLast? = some given ∧
        (c.Agrees cwd given o.workspace.clone ↔ o.workspace.root.LeadsBack cwd)) ∧
    (∀ p, ((prepare o.settings o.workspace runner).run world).1 = .ok p →
      p = o.workspace.clone) ∧
    (∀ artifact, ∀ c ∈ calls (Coverage.report (recording runner) o.workspace artifact) world,
      (c.program = "lcov" → ∃ directory data,
        c.args = ["--capture", "--directory", directory, "--output-file", data] ∧
        (c.Agrees cwd directory o.workspace.root ↔ o.workspace.root.LeadsBack cwd) ∧
        (c.Agrees cwd data o.workspace.coverageData ↔ o.workspace.root.LeadsBack cwd)) ∧
      (c.program = "genhtml" → ∃ data report,
        c.args = [data, "--output-directory", report] ∧
        (c.Agrees cwd data o.workspace.coverageData ↔ o.workspace.root.LeadsBack cwd) ∧
        (c.Agrees cwd report o.workspace.report ↔ o.workspace.root.LeadsBack cwd))) ∧
    (∀ artifact p, ((Coverage.report runner o.workspace artifact).run world).1 = .ok p →
      p = o.workspace.report.join "index.html") ∧
    (∀ m, ∀ c ∈ calls (execute o.settings o.workspace (recording runner) m) world, ∀ p,
      Lookup.outcome world.files o.workspace.clone o.settings.header
        SourceKind.header.extension = .ok p →
      ∃ d given, p.parent? = some d ∧ c.settingOf? includeVariable = some given ∧
        (d.IsText → o.workspace.root.LeadsBack cwd → c.Agrees cwd given d) ∧
        (d.IsText → (∀ e ∈ world.files.entries, ∀ n ∈ e.1, Path.IsName n) →
          (c.Agrees cwd given d ↔ o.workspace.root.LeadsBack cwd))) := by
  have hclone := Options.isName_cloneName h
  have hreport := Options.isName_reportName h
  refine ⟨fun c hc => ?_, fun p hp => eq_clone_of_prepare hp, fun artifact c hc => ?_,
    fun artifact p hp => eq_reportIndex_of_report hp, fun m c hc p hp => ?_⟩
  · rw [calls_prepare _ _ runner world c hc]
    exact agrees_clone hclone (Options.isText_clone htext) o.settings cwd
  · have hc := calls_report _ artifact runner world c hc
    exact ⟨fun hp => agrees_lcov htext hc hp cwd,
      fun hp => agrees_genhtml hreport htext (Options.isText_report htext) hc hp cwd⟩
  · rw [calls_execute _ _ m runner world c hc]
    exact agrees_include hclone hp m cwd

/-- The least that options have to give, and a workspace below the directory where the program is
    started. -/
def relativeOptions : Options :=
  { Options.none with
    repository := some "git@github.com:org/repo"
    implementation := some "math.c"
    header := some "math.h"
    workspaceRoot := some (.ofText "ws") }

/-- Answers every command with success. -/
def succeeding : Runner Unit := fun _ w => (.ok ⟨0, "", ""⟩, w)

/-- With such a workspace, neither the clone nor the data of the coverage are where the tools are
    told that they are. -/
theorem not_agrees_relativeOptions :
    relativeOptions.check = .ok () ∧ relativeOptions.workspace.root.IsText ∧
    ¬relativeOptions.workspace.root.LeadsBack ["home"] ∧
    (∀ c ∈ calls (prepare relativeOptions.settings relativeOptions.workspace
        (recording succeeding)) ⟨FileTree.empty, [], (), []⟩,
      ∃ given, c.args.getLast? = some given ∧
        ¬c.Agrees ["home"] given relativeOptions.workspace.clone) ∧
    ∃ c ∈ calls (Coverage.report (recording succeeding) relativeOptions.workspace "_test_math.c")
        ⟨FileTree.empty, [], (), []⟩,
      ∃ directory data, c.args = ["--capture", "--directory", directory, "--output-file", data] ∧
        ¬c.Agrees ["home"] directory relativeOptions.workspace.root ∧
        ¬c.Agrees ["home"] data relativeOptions.workspace.coverageData := by
  have hcheck : relativeOptions.check = .ok () := by rfl
  have hback : ¬relativeOptions.workspace.root.LeadsBack ["home"] := by decide
  have htext : relativeOptions.workspace.root.IsText := Path.isText_ofText "ws"
  obtain ⟨hclone, _, hsteps, _⟩ :=
    agrees_iff_leadsBack hcheck htext ["home"] succeeding ⟨FileTree.empty, [], (), []⟩
  refine ⟨hcheck, htext, hback, fun c hc => ?_, ?_⟩
  · obtain ⟨given, hg, hiff⟩ := hclone c hc
    exact ⟨given, hg, mt hiff.1 hback⟩
  · have hcalls : calls
        (Coverage.report (recording succeeding) relativeOptions.workspace "_test_math.c")
        ⟨FileTree.empty, [], (), []⟩ = Coverage.steps relativeOptions.workspace "_test_math.c" := by
      decide +kernel
    have hmem : (Coverage.steps relativeOptions.workspace "_test_math.c")[1] ∈
        calls (Coverage.report (recording succeeding) relativeOptions.workspace "_test_math.c")
          ⟨FileTree.empty, [], (), []⟩ := by
      rw [hcalls]
      exact .tail _ (.head _)
    obtain ⟨directory, data, hargs, hdir, hdata⟩ := (hsteps _ _ hmem).1 rfl
    exact ⟨_, hmem, directory, data, hargs, mt hdir.1 hback, mt hdata.1 hback⟩

end Project

end TestBench
