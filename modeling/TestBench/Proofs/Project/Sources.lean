import TestBench.Proofs.FileTree.Grounded
import TestBench.Proofs.FileTree.Retraces
import TestBench.Proofs.Project.Generation
import TestBench.Proofs.Project.Handover

/-!
# What a test module is composed of

What composing a test module gives is a function of the files (`composed`): of two files in the
clone that are looked up, and of the template. The clone that has just been made is a directory of
its own (`Cloned`), so that the files that are looked up in it are read in it (`Cloned.inside`). So
in two trees that have the same clone, and the same template, the same test module is composed.

* `gives_composing`: composing gives what is composed;
* `Cloned.composed_eq`: where the clone and the template are retraced, the same is composed.
-/

namespace TestBench

open FileTree

variable {σ : Type} {s : Settings} {w : Workspace} {t t' B G F : FileTree} {R l : Location}
  {p root full : Path} {name extension : String} {names : List String} {e : Entry}

/-! ### Composing -/

/-- What follows from a value was made of one. -/
theorem exists_of_bind_eq_ok {α β : Type} {r : Except Halt α} {f : α → Except Halt β} {y : β}
    (h : r.bind f = .ok y) : ∃ x, r = .ok x ∧ f x = .ok y := by
  cases r with
  | error halt => cases h
  | ok x => exact ⟨x, rfl, h⟩

/-- What reading a source file gives. -/
def SourceFile.outcome (t : FileTree) (p : Path) (kind : SourceKind) : Except Halt SourceFile :=
  match t.canonical p with
  | .error fault => .error (.failure (.unreadableSource p fault))
  | .ok path =>
    match t.readBytes path with
    | .error fault => .error (.failure (.unreadableSource path fault))
    | .ok bytes =>
      match decode kind bytes with
      | .error fault => .error (.failure (.unreadableSource path (.malformed fault)))
      | .ok (content, _) => .ok ⟨path, kind, content⟩

theorem SourceFile.gives_read (p : Path) (kind : SourceKind) :
    Gives (fun t => outcome t p kind) (read p kind : Action σ SourceFile) := by
  intro w
  simp only [read, askAbout, outcome, Action.run_bind, Action.files, Action.run_ofFunction]
  cases w.files.canonical p with
  | error fault => exact ⟨_, rfl⟩
  | ok path =>
    simp only [Action.run_pure]
    cases w.files.readBytes path with
    | error fault => exact ⟨_, rfl⟩
    | ok bytes =>
      simp only [Action.run_pure]
      cases decode kind bytes with
      | error fault => exact ⟨_, rfl⟩
      | ok read =>
        obtain ⟨content, replaced⟩ := read
        cases replaced <;> exact ⟨_, rfl⟩

namespace Project

/-- What composing a test module gives. -/
def composed (s : Settings) (clone : Path) (t : FileTree) : Except Halt (TestModule × Nat) :=
  (Lookup.outcome t clone s.implementation SourceKind.implementation.extension).bind fun source =>
  (Lookup.outcome t clone s.header SourceKind.header.extension).bind fun headerSource =>
  (SourceFile.outcome t source .implementation).bind fun implementation =>
  (SourceFile.outcome t headerSource .header).bind fun header =>
  ((template s t).mapError fun fault => .failure (.io fault)).bind fun template =>
  (moduleOf source implementation (Source.extract header.content) template).bind fun m =>
    .ok (m, (Source.extract header.content).size)

theorem gives_composing (s : Settings) (clone : Path) :
    Gives (composed s clone) (composing s clone : Action σ (TestModule × Nat)) := by
  have hlocate := @Lookup.run_locate σ clone
  refine Gives.bind (hlocate _ _) fun source => ?_
  refine Gives.bind (hlocate _ _) fun headerSource => ?_
  refine .then .report (.then .report ?_)
  refine Gives.bind (SourceFile.gives_read _ _) fun implementation => ?_
  refine Gives.bind (SourceFile.gives_read _ _) fun header => ?_
  refine .then .report (.then .report (.then (.reportAll _) ?_))
  -- Whether or not it is reported that nothing was found, what follows is the same.
  split
  on_goal 1 => refine .then .report ?_
  all_goals
    refine Gives.bind (.ask _) fun template => Gives.bind (.ofResult _) fun testModule => ?_
    exact .then .report (.pure _)

end Project

/-! ### Looking up -/

namespace Lookup

/-- What is found depends on what is there from the directory on. -/
theorem found_eq (h : t'.entriesFrom l = t.entriesFrom l) (root : Path) (extension : String) :
    found t' l root extension = found t l root extension := by
  have hdescendants : ∀ t : FileTree, t.descendants l = (t.entriesFrom l).filterMap fun q =>
      if isBelow q.1 l then some (q.1.drop l.length, q.2) else none := by
    intro t
    rw [entriesFrom, List.filterMap_filter]
    refine List.filterMap_congr fun q _ => ?_
    by_cases hl : l.isPrefixOf q.1 <;> simp [isBelow, hl]
  rw [found, found, hdescendants, hdescendants, h]

end Lookup

/-! ### The clone -/

namespace Workspace

/-- Whether the clone is a directory in which everything stands in directories, as the root does. -/
structure Cloned (w : Workspace) (R : Location) (t : FileTree) : Prop where
  proper : t.Proper
  name : Path.IsName w.cloneName
  rootAt : w.RootAt t R
  above : ∀ k, k <+: R → t.lookup k = some .directory
  clone : t.lookup (w.cloneAt R) = some .directory
  grounded : GroundedFrom (w.cloneAt R) t

namespace Cloned

variable (h : w.Cloned R t)
include h

/-- Everything on the way down to what is in the clone is a directory. -/
theorem lookup_prefix (hl : w.cloneAt R <+: l) (he : t.lookup l = some e) {k : Location}
    (hk : k <+: l) (hne : k ≠ l) : t.lookup k = some .directory := by
  rcases List.prefix_or_prefix_of_prefix hk hl with hsub | hsub
  · rcases List.prefix_concat_iff.1 hsub with rfl | hsub
    · exact h.clone
    · exact h.above k hsub
  · exact h.grounded.lookup_prefix hsub hk hne he

/-- The path of the clone with names behind it leads into the clone. -/
theorem eq_of_find_join (hnames : ∀ name ∈ names, IsProperName name) (hne : names ≠ [])
    {content : List UInt8} {executable : Bool}
    (hfile : t.lookup (w.cloneAt R ++ names) = some (.file content executable))
    (hfind : t.find (names.foldl Path.join w.clone) true = .ok (l, e)) :
    l = w.cloneAt R ++ names := by
  obtain ⟨hsteps, horigin⟩ := steps_foldl_join (fun n hn => (hnames n hn).isName) hne w.clone
  have hway := (resolve_eq_ok_iff.1 (find_eq_ok_iff.1 hfind)).2
  have hclone : namesOf w.clone.text = namesOf w.root.text ++ [w.cloneName] :=
    namesOf_join w h.name
  rw [hsteps, horigin, hclone, List.append_assoc, Workspace.clone,
    (join_starts_as_root w h.name.1 t.here).1] at hway
  obtain ⟨d, links, hroot, hdown⟩ := hway.exists_of_append (by simp)
  obtain rfl : R = d := h.rootAt.unique hroot
  have hentry : ∀ name ∈ [w.cloneName] ++ names, IsEntryName name := by
    have hcloneName := h.proper.of_lookup h.clone w.cloneName (by simp [cloneAt])
    rw [List.singleton_append, List.forall_mem_cons]
    exact ⟨hcloneName.isEntryName, fun n hn => (hnames n hn).isEntryName⟩
  have hwhole : R ++ ([w.cloneName] ++ names) = w.cloneAt R ++ names := by
    rw [cloneAt, List.append_assoc]
  have hstraight : Leads t true links R ([w.cloneName] ++ names)
      (.found (R ++ ([w.cloneName] ++ names)) (.file content executable)) := by
    refine .down hentry (by simp) (fun k hk _ hk' => ?_) (by rw [hwhole]; exact hfile)
    refine h.lookup_prefix (List.prefix_append _ names) hfile ?_ ?_
    · rw [← hwhole]
      exact (List.prefix_append_right_inj R).2 hk
    · rw [← hwhole]
      simpa using hk'
  rw [← hwhole]
  exact (Target.found.inj (Leads.unique hdown hstraight)).1

/-- The path of the clone leads to it. -/
theorem eq_of_directory (hdir : t.directory w.clone = .ok l) : l = w.cloneAt R := by
  have hway := (resolve_eq_ok_iff.1 (find_eq_ok_iff.1 (directory_eq_ok_iff.1 hdir))).2
  rw [Workspace.clone, steps_join w h.name, (join_starts_as_root w h.name.1 t.here).1] at hway
  obtain ⟨d, links, hroot, hdown⟩ := hway.exists_of_append (by simp)
  obtain rfl : R = d := h.rootAt.unique hroot
  have hentry := (h.proper.of_lookup h.clone w.cloneName (by simp [cloneAt])).isEntryName
  have hstraight : Leads t true links R [w.cloneName] (.found (w.cloneAt R) .directory) :=
    .pass (.down hentry h.clone) .here
  exact (Target.found.inj (Leads.unique hdown hstraight)).1

/-- The file that is read where one was looked up is in the clone. -/
theorem inside (hp : Lookup.outcome t w.clone name extension = .ok p)
    (hfull : t.canonical p = .ok full) (hfind : t.find full true = .ok (l, e)) :
    w.cloneAt R <+: l := by
  obtain ⟨l₀, names, content, executable, hdir, hne, rfl, -, hmem⟩ := Lookup.exists_file hp
  obtain rfl := h.eq_of_directory hdir
  have hnames := h.proper.names _ hmem
  have hfile : t.lookup (w.cloneAt R ++ names) = some (.file content executable) :=
    (h.proper.lookup_iff (by simp [hne])).2 hmem
  rw [canonical] at hfull
  cases hfound : t.find (names.foldl Path.join w.clone) true with
  | error fault =>
    rw [hfound] at hfull
    cases hfull
  | ok found =>
    obtain ⟨l₁, e₁⟩ := found
    obtain rfl := h.eq_of_find_join (fun n hn => hnames n (by simp [hn])) hne hfile hfound
    rw [hfound] at hfull
    obtain rfl := Except.ok.inj hfull
    have hdirs : ∀ k, k <+: w.cloneAt R ++ names → k ≠ w.cloneAt R ++ names →
        t.lookup k = some .directory :=
      fun k hk hne => h.lookup_prefix (List.prefix_append _ _) hfile hk hne
    rw [eq_of_find_pathOf hnames hdirs hfile hfind]
    exact List.prefix_append _ _

end Cloned

end Workspace

/-! ### Composing again -/

theorem Lookup.outcome_eq (hdir : t.directory root = .ok l) (hdir' : t'.directory root = .ok l)
    (hinside : t'.entriesFrom l = t.entriesFrom l) (name extension : String) :
    outcome t' root name extension = outcome t root name extension := by
  rw [outcome, outcome, hdir, hdir']
  simp only [found_eq hinside]

/-- Whether the file that the template is read from in one tree is the same in another one, as far
    as it is there. -/
def KeepsTemplate (s : Settings) (t t' : FileTree) : Prop :=
  ∀ p l e e', s.template = some p → t.find p true = .ok (l, e) → t'.lookup l = some e' → e' = e

namespace Workspace.Cloned

variable (h : w.Cloned R B) (hretraces : Retraces G (w.cloneAt R) B t') (hextends : Extends B t')
include h hretraces hextends

theorem outcome_eq (hp : Lookup.outcome B w.clone name extension = .ok p) :
    Lookup.outcome t' w.clone name extension = .ok p := by
  obtain ⟨l, -, -, -, hdir, -⟩ := Lookup.exists_file hp
  obtain rfl := h.eq_of_directory hdir
  rw [Lookup.outcome_eq hdir (hextends.directory hdir) hretraces.inside, hp]

theorem sourceOutcome_eq {kind : SourceKind} {f : SourceFile}
    (hp : Lookup.outcome B w.clone name extension = .ok p)
    (hread : SourceFile.outcome B p kind = .ok f) : SourceFile.outcome t' p kind = .ok f := by
  rw [SourceFile.outcome] at hread ⊢
  cases hfull : B.canonical p with
  | error fault =>
    rw [hfull] at hread
    cases hread
  | ok full =>
    rw [hfull] at hread
    rw [hextends.canonical hfull]
    simp only at hread ⊢
    cases hbytes : B.readBytes full with
    | error fault =>
      rw [hbytes] at hread
      cases hread
    | ok bytes =>
      have hsame := hextends.readBytes (fun l content executable hf =>
        hretraces.lookup_inside (h.inside hp hfull hf)) hbytes
      rw [hbytes] at hread
      rw [hsame]
      exact hread

omit h in
/-- The template is read the same. -/
theorem template_eq (htemplate : KeepsTemplate s B G) {found : String × String}
    (hread : Project.template s B = .ok found) : Project.template s t' = .ok found := by
  rw [Project.template] at hread ⊢
  split
  next hnone =>
    rw [hnone] at hread
    exact hread
  next p hp =>
    rw [hp] at hread
    simp only at hread
    have htext : ∀ text, B.readText p = .ok text → t'.readText p = .ok text := by
      intro text hread
      rw [readText] at hread ⊢
      cases hbytes : B.readBytes p with
      | error fault =>
        rw [hbytes] at hread
        cases hread
      | ok bytes =>
        have hsame := hextends.readBytes (fun l content executable hf => ?_) hbytes
        · rw [hbytes] at hread
          rw [hsame]
          exact hread
        · have hl := (resolve_eq_ok_iff.1 (find_eq_ok_iff.1 hf)).2.lookup_file.2
          rcases hretraces.lookup l with hsame | ⟨e, he, hleft⟩
          · exact hsame
          · rw [he, hl, htemplate p l _ e hp hf hleft]
    cases hb : B.readText p with
    | error fault =>
      rw [hb] at hread
      cases hread
    | ok text =>
      rw [hb] at hread
      rw [htext text hb]
      exact hread

/-- Where the clone and the template are retraced, the same test module is composed. -/
theorem composed_eq (htemplate : KeepsTemplate s B G) {made : TestModule × Nat}
    (hmade : Project.composed s w.clone B = .ok made) :
    Project.composed s w.clone t' = .ok made := by
  rw [Project.composed] at hmade ⊢
  obtain ⟨source, hsource, hmade⟩ := exists_of_bind_eq_ok hmade
  obtain ⟨headerSource, hheaderSource, hmade⟩ := exists_of_bind_eq_ok hmade
  obtain ⟨implementation, himplementation, hmade⟩ := exists_of_bind_eq_ok hmade
  obtain ⟨header, hheader, hmade⟩ := exists_of_bind_eq_ok hmade
  obtain ⟨found, hfound, hmade⟩ := exists_of_bind_eq_ok hmade
  have hread : Project.template s B = .ok found := by
    cases hb : Project.template s B with
    | error fault =>
      rw [hb] at hfound
      cases hfound
    | ok found' =>
      rw [hb] at hfound
      exact congrArg _ (Except.ok.inj hfound)
  rw [h.outcome_eq hretraces hextends hsource]
  simp only [Except.bind]
  rw [h.outcome_eq hretraces hextends hheaderSource]
  simp only
  rw [h.sourceOutcome_eq hretraces hextends hsource himplementation]
  simp only
  rw [h.sourceOutcome_eq hretraces hextends hheaderSource hheader]
  simp only
  rw [template_eq hretraces hextends htemplate hread]
  exact hmade

end Workspace.Cloned

end TestBench
