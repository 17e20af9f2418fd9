import TestBench.Proofs.Deed
import TestBench.Proofs.FileTree.Extends
import TestBench.Proofs.Project.Exchanges
import TestBench.Proofs.Project.Handover
import TestBench.Proofs.Project.Keeping

/-!
# The places that a run changes

A run asks for a few deeds only: it makes its root, makes and removes the lock file, removes the
clone and files that come from building, and writes the test module (`Permits`). Everything else is
done by the tools that it calls. The path of each deed is that of the root and one name more, by its
components and whatever there is in the files, since the names from the options, from the repository
and from the template are names. In the files, a deed touches what stands in the root under that
name (`Touches`). There are two exceptions: the root is made, and directories on the way to it,
where nothing was; and if the name of the test module is taken by a link, a file is written where
the link leads.

* `Permits.confined`: a deed that a run may do keeps to the workspace;
* `asks_run`: a run asks for no other deeds;
* `confined_to_workspace`: each deed that a run has asked for keeps to the workspace;
* `overwritten_behind_link`: a file beside the root that is overwritten.
-/

namespace TestBench

open FileTree Relation

variable {σ : Type} {s : Settings} {w : Workspace} {runner : Runner σ} {t t' : FileTree}
  {R l : Location} {name : ByteString} {d : Deed}

namespace Workspace

/-- Whether a run may ask for a deed in its workspace, in the tree that it finds. -/
inductive Permits (w : Workspace) (t : FileTree) : Deed → Prop where
  | root : w.Permits t (.makeDirectories w.root)
  | lock : w.Permits t (.createFile w.lockFile)
  | unlock : w.Permits t (.removeFile w.lockFile)
  | clone : w.Permits t (.removeTree w.clone)
  /-- Files in the root go that come from building or from measuring coverage. -/
  | artifact {name : ByteString} (hname : Path.IsName name)
      (hartifact : isArtifact (w.root.join name))
      (hfile : ∀ R e, w.RootAt t R → t.lookup (R ++ [name]) = some e →
        ∃ content executable, e = .file content executable) :
      w.Permits t (.removeFile (w.root.join name))
  | testModule {name : String} (content : List UInt8) (hname : IsModuleName (.ofText name)) :
      w.Permits t (.writeFile (w.modulePath name) content)

/-- Whether a deed may change what stands at a place. -/
inductive Touches (w : Workspace) (t : FileTree) : Deed → Location → Prop where
  /-- The place is in the root, under the name that the deed is about. -/
  | own {d : Deed} {R : Location} {name : ByteString} (hroot : w.RootAt t R)
      (hpath : d.path = w.root.join name) : w.Touches t d (R ++ [name])
  /-- The place belongs to the clone, which is removed. -/
  | clone {R l : Location} (hroot : w.RootAt t R) (hl : w.cloneAt R <+: l) :
      w.Touches t (.removeTree w.clone) l
  /-- Nothing stands at the place, and afterwards a directory does: the root or a directory on the
      way to it, as it is found by a start of the path. -/
  | onTheWay {p : Path} {l : Location} (hfree : t.lookup l = none)
      (hp : p.components <+: w.root.components)
      (hmade : (t.makeDirectories w.root).2.find p false = .ok (l, .directory)) :
      w.Touches t (.makeDirectories w.root) l
  /-- A link stands in the root where the test module is to be written, and where it leads there is
      a file or nothing. -/
  | behindLink {R l : Location} {name : String} {text : ByteString} (content : List UInt8)
      (hroot : w.RootAt t R) (hlink : t.lookup (R ++ [.ofText name]) = some (.link text))
      (hplain : ∀ e, t.lookup l = some e → ∃ content executable, e = .file content executable) :
      w.Touches t (.writeFile (w.modulePath name) content) l

/-- Whether a deed keeps to the workspace. -/
structure Confined (w : Workspace) (t : FileTree) (d : Deed) : Prop where
  /-- The path is that of the root and a name, unless the root is made. -/
  path : (∃ name, Path.IsName name ∧ d.path.components = w.root.components ++ [.normal name]) ∨
    d = .makeDirectories w.root
  touches : ∀ l, (d.perform t).2.lookup l ≠ t.lookup l → w.Touches t d l
  /-- The root and the directories above it stay. -/
  root : ∀ R l, w.RootAt t R → l <+: R → t.lookup l = some .directory →
    (d.perform t).2.lookup l = some .directory

/-- What a deed touches is no directory on the way to the root. -/
theorem Touches.not_above (h : w.Touches t d l) (hroot : w.RootAt t R) (hl : l <+: R) :
    t.lookup l ≠ some .directory := by
  intro hdir
  cases h with
  | own hroot' _ =>
    obtain rfl := hroot.unique hroot'
    have hlength := hl.length_le
    rw [List.length_append, List.length_singleton] at hlength
    omega
  | clone hroot' hclone =>
    obtain rfl := hroot.unique hroot'
    have hlength := (hclone.trans hl).length_le
    rw [cloneAt, List.length_append, List.length_singleton] at hlength
    omega
  | onTheWay hfree _ _ => cases hfree.symm.trans hdir
  | behindLink _ _ _ hplain =>
    obtain ⟨_, _, hfile⟩ := hplain _ hdir
    cases hfile

/-- Removing a file in the root touches its own place. -/
theorem touches_removeFile (hn : Path.IsName name)
    (h : ((Deed.removeFile (w.root.join name)).perform t).2.lookup l ≠ t.lookup l) :
    w.Touches t (.removeFile (w.root.join name)) l := by
  obtain ⟨t', hremove, h⟩ := Deed.exists_of_settle h
  obtain ⟨R, e, hroot, -, -, rfl⟩ := exists_of_removeFile_join hn hremove
  obtain rfl := eq_of_lookup_erase (by simp) h
  exact .own hroot rfl

/-- What a deed changes that a run may ask for, it touches. -/
theorem Permits.touches (hn : Path.IsName w.cloneName) (hd : w.Permits t d)
    (h : (d.perform t).2.lookup l ≠ t.lookup l) : w.Touches t d l := by
  cases hd with
  | root =>
    obtain ⟨hfree, p, hp, hmade⟩ := exists_of_lookup_makeDirectories h
    exact .onTheWay hfree hp hmade
  | lock =>
    obtain ⟨t', hcreate, h⟩ := Deed.exists_of_settle h
    obtain ⟨R, name, hr, rfl⟩ := exists_of_createFile hcreate
    obtain ⟨hroot, rfl, -⟩ := vacant_join isName_lockName hr
    obtain rfl := eq_of_lookup_insert (by simp) h
    exact .own hroot rfl
  | unlock => exact touches_removeFile isName_lockName h
  | clone =>
    obtain ⟨top, e, hfind, -, hl⟩ := exists_of_lookup_removeTree h
    obtain ⟨R, hroot, rfl, -⟩ := find_join hn hfind
    exact .clone hroot hl
  | artifact hname => exact touches_removeFile hname h
  | testModule content hname =>
    rw [Deed.perform] at h
    obtain ⟨t', hwrite, h⟩ := Deed.exists_of_settle h
    obtain ⟨target, executable, hr, rfl, hplain⟩ := exists_of_writeFile hwrite
    obtain ⟨R, hroot, hplace⟩ := place_join hname.1 hr
    obtain rfl := eq_of_lookup_insert (ne_nil_of_plain hplain) h
    -- The name of the test module may be taken by a link, which writing follows.
    rcases hplace with hplace | ⟨text, hlink⟩
    · exact hplace ▸ .own hroot rfl
    · exact .behindLink content hroot hlink hplain

/-- The path of a deed that a run may ask for is that of the root and a name, unless the root is
    made. -/
theorem Permits.path_eq (hn : Path.IsName w.cloneName) (h : w.Permits t d) :
    (∃ name, Path.IsName name ∧ d.path = w.root.join name) ∨ d = .makeDirectories w.root := by
  cases h with
  | root => exact .inr rfl
  | lock | unlock => exact .inl ⟨lockName, isName_lockName, rfl⟩
  | clone => exact .inl ⟨w.cloneName, hn, rfl⟩
  | artifact hname => exact .inl ⟨_, hname, rfl⟩
  | testModule _ hname => exact .inl ⟨_, hname.1, rfl⟩

/-- A deed that a run may ask for keeps to the workspace. -/
theorem Permits.confined (hn : Path.IsName w.cloneName) (h : w.Permits t d) : w.Confined t d where
  path := by
    rcases h.path_eq hn with ⟨name, hname, hpath⟩ | h
    · exact .inl ⟨name, hname, by rw [hpath, Path.components_join _ hname]⟩
    · exact .inr h
  touches l hl := h.touches hn hl
  root R l hroot hl hdir := by
    -- What changes is touched, and what is touched is no directory on the way to the root.
    by_contra hne
    rw [← hdir] at hne
    exact (h.touches hn hne).not_above hroot hl hdir

/-! ### What is asked for in a workspace -/

theorem asks_lock (w : Workspace) (runner : Runner σ) :
    Asks w.Permits runner (w.lock : Action σ Unit) := by
  refine .bind (.request fun _ => .root) fun _ => .bind (.tryRequest fun _ => .lock) fun done => ?_
  split
  · exact .report
  · split
    · exact .fail _
    · exact .fail _

theorem asks_unlock (w : Workspace) (runner : Runner σ) :
    Asks w.Permits runner (w.unlock : Action σ Unit) := by
  refine .bind (.tryRequest fun _ => .unlock) fun done => ?_
  split
  · exact .pure ()
  · exact .report

/-- A file that was left behind is still a file when others are gone. -/
theorem IsLeftover.permits {t₁ : FileTree} {p : Path} (hp : w.IsLeftover t₁ p name)
    (ht : Part t t₁) : w.Permits t (.removeFile p) := by
  obtain rfl := hp.path
  -- The listing is older than the tree, but nothing has come to the tree since.
  refine .artifact hp.proper.isName hp.artifact fun R e hroot he => ?_
  obtain ⟨content, executable, hfile⟩ := hp.file R (hroot.of_part ht)
  exact ⟨content, executable, Option.some.inj ((ht.lookup _ _ he).symm.trans hfile)⟩

/-- Removing files that were left behind asks for nothing else, also when others are gone. -/
theorem asksAt_removeFiles {t₁ : FileTree} {ps : List Path}
    (hps : ∀ p ∈ ps, ∃ name, w.IsLeftover t₁ p name) {world : World σ}
    (hworld : world.files.Proper) (hpart : Part world.files t₁) :
    AsksAt w.Permits runner (removeFiles ps) world := by
  induction ps generalizing world with
  | nil => exact Asks.pure () world hworld
  | cons p ps ih =>
    rw [List.forall_mem_cons] at hps
    obtain ⟨⟨name, hname⟩, hps⟩ := hps
    refine .bind (.request hworld (hname.permits hpart)) fun _ left hleft => ?_
    obtain rfl : world.after (.removeFile p) = left := congrArg Prod.snd hleft
    have hproper := (Deed.removeFile p).proper_perform hworld
    refine .bind (Asks.report _ hproper) fun _ noted hnoted => ?_
    have hfiles : noted.files = ((Deed.removeFile p).perform world.files).2 :=
      congrArg (·.2.files) hnoted.symm
    refine ih hps (by rwa [hfiles]) ?_
    rw [hfiles]
    exact Deed.settle_keeps (P := (Part · t₁)) hpart fun t' h =>
      (cleans_removeFile hname hpart h).part.trans hpart

theorem asks_clean (w : Workspace) (runner : Runner σ) :
    Asks w.Permits runner (w.clean : Action σ Unit) := by
  refine .bind (.bind (.tryRequest fun _ => .clone) fun done => ?_) fun _ world hworld => ?_
  · split
    · exact .report
    · split
      · exact .fail _
      · exact .pure ()
  · refine .bind (Asks.of_reads (Q := fun _ => True) .files world hworld) fun t left hfiles => ?_
    obtain ⟨rfl, rfl⟩ : world.files = t ∧ world = left :=
      ⟨Except.ok.inj (congrArg Prod.fst hfiles), congrArg Prod.snd hfiles⟩
    split
    next R hR =>
      have hroot := (directory_root_iff.1 hR).2
      exact asksAt_removeFiles (fun p hp => exists_isLeftover hworld hroot hp) hworld (.refl _)
    next => exact Asks.pure () world hworld

end Workspace

namespace Project

theorem asks_preparing (s : Settings) (w : Workspace) (hrunner : runner.Keeps Proper) :
    Asks w.Permits runner (stages s w runner).preparing := by
  refine .bind .report fun _ => .bind (w.asks_clean runner) fun _ => ?_
  refine .bind (.request fun _ => .root) fun _ => .bind .report fun _ => ?_
  exact .bind (.call hrunner _) fun output => .bind (.ofExcept _) fun _ => .pure _

theorem asks_generating (s : Settings) (w : Workspace) (clone : Path) :
    Asks w.Permits runner ((stages s w runner).generating clone) := by
  have hgenerate : Asks w.Permits runner (generate s w clone) := by
    rw [generate_eq]
    refine .bind_of_yields (.of_reads (reads_composing s clone)) (yields_composing clone)
      fun made hmade => ?_
    exact .bind (.request fun _ => .testModule _ hmade) fun _ => .bind .report fun _ => .pure _
  exact .bind .report fun _ => hgenerate

theorem asks_executing (s : Settings) (w : Workspace) (hrunner : runner.Keeps Proper)
    (testModule : TestModule) :
    Asks w.Permits runner ((stages s w runner).executing testModule) := by
  have houtput : ∀ title text, Asks w.Permits runner (Stages.reportOutput title text) := by
    intro title text
    exact .of_reads (Q := fun _ => True) (Stages.reads_reportOutput title text)
  have hexecute : Asks w.Permits runner (execute s w runner testModule) := by
    refine .bind (.of_reads (Q := fun _ => True) (reads_headerDirectory s w)) fun directory => ?_
    exact .bind .report fun _ => .bind (.call hrunner _) fun output => .ofExcept _
  exact .bind .report fun _ => .bind hexecute fun output =>
    .bind (houtput _ _) fun _ => houtput _ _

theorem asks_reporting (s : Settings) (w : Workspace) (hrunner : runner.Keeps Proper)
    (testModule : TestModule) :
    Asks w.Permits runner ((stages s w runner).reporting testModule) := by
  have hsteps : ∀ commands, Asks w.Permits runner (Coverage.runSteps runner commands) := by
    intro commands
    induction commands with
    | nil => exact .pure ()
    | cons command commands ih =>
      refine .bind .report fun _ => .bind (.call hrunner _) fun output => ?_
      refine .bind (.ofExcept _) fun output => ?_
      split
      · exact .bind .report fun _ => ih
      · exact ih
  exact .bind .report fun _ => .bind (.bind (hsteps _) fun _ => .pure _) fun _ => .pure _

theorem asks_cleanUp (s : Settings) (w : Workspace) :
    Asks w.Permits runner (stages s w runner).cleanUp := by
  refine .bind (.attempt (w.asks_clean runner)) fun result => ?_
  split
  · exact .pure ()
  · exact .report
  · exact .crash

/-- A run asks for nothing but what it may ask for. -/
theorem asks_run (s : Settings) (w : Workspace) (hrunner : runner.Keeps Proper) :
    Asks w.Permits runner (stages s w runner).run := by
  have hwork : Asks w.Permits runner (stages s w runner).work := by
    rw [Stages.work_eq]
    refine .bind (asks_preparing s w hrunner) fun clone => ?_
    refine .bind (asks_generating s w clone) fun testModule => ?_
    exact .bind (asks_executing s w hrunner testModule) fun _ =>
      asks_reporting s w hrunner testModule
  refine .bind (.ofExcept _) fun _ => .bind (w.asks_lock runner) fun _ => ?_
  -- Files are cleaned unless the work crashed; the lock file is removed in any case.
  refine .bind (.attempt (.bind (.attempt hwork) fun result => ?_)) fun result => ?_
  · split
    · exact .crash
    · exact .bind (asks_cleanUp s w) fun _ => .ofResult _
  · exact .bind (w.asks_unlock runner) fun _ => .ofResult _

/-! ### A link in the workspace -/

/-- The options of a small project that works in a directory of its own. -/
def linkedOptions : Options :=
  { smallOptions with workspaceRoot := some ⟨"ws"⟩ }

/-- A world with that directory, in which a link has the name of the test module. It leads to a file
    beside the directory. -/
def linkedWorld : World Unit :=
  { smallWorld with
    files := ((smallWorld.files.insert ["precious.txt"] (smallEntry (some "keep\n"))).insert ["ws"]
      .directory).insert ["ws", "test_math.py"] (.link "../precious.txt") }

/-- Tools that make what they make for a small project in that directory, and do nothing else. -/
def linkedTools : Runner Unit := fun command world =>
  (.ok ⟨0, "", ""⟩, { world with
    files := (smallFiles command.program).foldl
      (fun t q => t.insert ("ws" :: q.1) (smallEntry q.2)) world.files })

/-- The stages of that project. -/
def linkedStages : Stages Unit :=
  stages linkedOptions.settings linkedOptions.workspace linkedTools

theorem linkedStages_eq :
    stages linkedOptions.settings linkedOptions.workspace linkedTools = linkedStages :=
  rfl

theorem check_linkedOptions : linkedOptions.check = .ok () := by
  decide +kernel

theorem linkedTools_keeps {P : FileTree → Prop} (h : ∀ program, ∀ q ∈ smallFiles program, ∀ t,
    P t → P (t.insert ("ws" :: q.1) (smallEntry q.2))) : linkedTools.Keeps P := by
  intro command world hw
  exact List.foldlRecOn _ _ hw fun t ht q hq => h command.program q hq t ht

theorem linkedTools_keeps_proper : linkedTools.Keeps Proper :=
  linkedTools_keeps fun program q hq _ ht =>
    proper_insert_smallEntry ht
      (List.forall_mem_cons.2 ⟨by decide, (smallFiles_names program q hq).1⟩) q.2

theorem proper_linkedWorld : linkedWorld.files.Proper := by
  refine ((proper_insert_smallEntry proper_smallWorld (by decide) _).insert (by decide) ?_).insert
    (by decide) ?_
  · simp
  · intro text h
    obtain rfl := Entry.link.inj h
    decide

/-! ### The whole run -/

/-- Up to its end and however it ends, a run does nothing to the world but report, ask for deeds and
    call its tools, in a row. Each deed that it asks for is noted, and each is one that it may ask
    for in the files that the deed finds, and keeps to the workspace. Tools may remember how they
    were called, and then the deeds in the row stand between the calls that the run makes. -/
theorem confined_to_workspace {o : Options} (ho : o.check = .ok ()) {runner : Runner σ}
    (hrunner : runner.Keeps Proper) {world : World σ} (hworld : world.files.Proper) :
    let left := ((stages o.settings o.workspace runner).run.run world).2
    ReflTransGen (Act runner) world left ∧
      ∃ made, left.requests = world.requests ++ made ∧
        ∀ r ∈ made, o.workspace.Permits r.files r.deed ∧ o.workspace.Confined r.files r.deed := by
  obtain ⟨hacts, ⟨made, hnoted, hmade⟩, -⟩ := asks_run o.settings o.workspace hrunner world hworld
  exact ⟨hacts, made, hnoted, fun r hr =>
    ⟨hmade r hr, (hmade r hr).confined (Options.isName_cloneName ho)⟩⟩

/-- Each deed that the run of such a project asks for keeps to its workspace, up to the link in
    it. -/
theorem confined_to_workspace_linked :
    linkedOptions.check = .ok () ∧ linkedTools.Keeps Proper ∧ linkedWorld.files.Proper ∧
      (linkedStages.run.run linkedWorld).2.requests.map (·.deed.path.text) =
        ["ws", "ws/.cscaffold.lock", "ws/cloned_repo", "ws", "ws/test_math.py", "ws/cloned_repo",
          "ws/coverage.info", "ws/.cscaffold.lock"] ∧
      let left := (linkedStages.run.run linkedWorld).2
      ReflTransGen (Act linkedTools) linkedWorld left ∧
        ∃ made, left.requests = linkedWorld.requests ++ made ∧
          ∀ r ∈ made, linkedOptions.workspace.Permits r.files r.deed ∧
            linkedOptions.workspace.Confined r.files r.deed := by
  have h := confined_to_workspace check_linkedOptions linkedTools_keeps_proper proper_linkedWorld
  rw [linkedStages_eq] at h
  exact ⟨check_linkedOptions, linkedTools_keeps_proper, proper_linkedWorld, by decide +kernel, h⟩

/-- A file beside the workspace is overwritten, with tools that leave it alone, where a link in the
    workspace has the name of the test module and leads to it. -/
theorem overwritten_behind_link :
    linkedOptions.check = .ok () ∧ linkedTools.Keeps Proper ∧ linkedWorld.files.Proper ∧
      linkedWorld.files.directory linkedOptions.workspace.root = .ok ["ws"] ∧
      (∀ command world, (linkedTools command world).2.files.lookup ["precious.txt"] =
        world.files.lookup ["precious.txt"]) ∧
      linkedWorld.files.lookup ["precious.txt"] = some (smallEntry (some "keep\n")) ∧
      (linkedStages.run.run linkedWorld).2.files.lookup ["precious.txt"] =
        some (smallEntry (some "int f(void);\nint f(void) { return 1; }\n\n")) := by
  refine ⟨check_linkedOptions, linkedTools_keeps_proper, proper_linkedWorld, by decide +kernel,
    fun command world => ?_, by decide +kernel, by decide +kernel⟩
  exact linkedTools_keeps (P := fun t => t.lookup ["precious.txt"] =
    world.files.lookup ["precious.txt"]) (fun program q _ t ht => by
      rw [lookup_insert _ _ _ (List.cons_ne_nil _ _), if_neg (by simp), ht]) command world rfl

end Project

end TestBench
