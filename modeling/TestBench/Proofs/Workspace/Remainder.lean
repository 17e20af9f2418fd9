import TestBench.Proofs.Check
import TestBench.Proofs.FileTree.Grounded
import TestBench.Proofs.Workspace.Cleaned

/-!
# What cleaning removes, place by place

A cleaning that succeeds has removed what the path of the clone leads to, and the files in the
root whose names are those of files that come from building and from measuring coverage
(`Removes`); it leaves everything else. The names are told by what is in them (`IsBuildName`).
After it nothing is at the path of the clone, so that another cleaning has nothing to do. A
cleaning that fails since there is no directory where there should be one has not removed anything.

* `isArtifact_join_iff`: which files in the root are removed;
* `find_clone_of_run`: what is left has no clone;
* `clean_exactly`: what a cleaning removes, another one after it, and one that fails.
-/

namespace TestBench

open FileTree

variable {σ : Type} {w : Workspace} {t t' : FileTree} {R l : Location} {name : ByteString}
  {field : String} {fault : Fault} {world left : World σ}

/-- Whether a name is that of a file that comes from building or from measuring coverage. The name
    of a source that a test module writes is a text. -/
def IsBuildName (name : ByteString) : Prop :=
  name = "coverage.info" ∨
  (∃ extension ∈ ["so", "o", "gcda", "gcno", "gcov"], HasExtension name extension) ∨
  ∃ middle, name = .ofText ("_test_" ++ middle ++ ".c")

/-- The names that start like the sources that a test module writes, and have their extension. -/
theorem exists_middle_iff {name : String} :
    (∃ middle, name = "_test_" ++ middle ++ ".c") ↔
      Workspace.generatedStart <+: name.toList ∧ HasExtension name "c" := by
  constructor
  · rintro ⟨middle, rfl⟩
    refine ⟨?_, "_test_" ++ middle, by simp, ?_, by decide⟩
    · rw [String.toList_append, String.toList_append, List.append_assoc]
      exact List.prefix_append _ _
    · apply String.toList_injective
      simp [String.toList_append]
  · rintro ⟨hstart, stem, -, rfl, -⟩
    have htext : (stem ++ "." ++ "c").toList = stem.toList ++ ['.', 'c'] := by
      simp [String.toList_append]
    rw [htext] at hstart
    -- The start has no dot, so that it does not reach into the extension.
    have hstem : Workspace.generatedStart <+: stem.toList := by
      rcases List.prefix_or_prefix_of_prefix hstart (List.prefix_append _ ['.', 'c']) with h | h
      · exact h
      · obtain ⟨rest, hrest⟩ := h
        rw [← hrest, List.prefix_append_right_inj] at hstart
        cases rest with
        | nil => exact ⟨[], by rw [← hrest]; simp⟩
        | cons c rest =>
          obtain ⟨rfl, -⟩ := List.cons_prefix_cons.1 hstart
          have hdot : '.' ∈ Workspace.generatedStart := hrest ▸ by simp
          exact absurd hdot (by decide)
    obtain ⟨middle, hmiddle⟩ := hstem
    refine ⟨String.ofList middle, String.toList_inj.1 ?_⟩
    rw [htext, ← hmiddle]
    simp [String.toList_append, Workspace.generatedStart]

namespace Workspace

/-- The files in the root that are removed are told by their names. -/
theorem isArtifact_join_iff (w : Workspace) (hn : Path.IsName name) :
    isArtifact (w.root.join name) ↔ IsBuildName name := by
  have hextension : ∀ extension, extension ≠ "" →
      (((w.root.join name).extension?.bind ByteString.text?).getD "" = extension ↔
        HasExtension name (.ofText extension)) := by
    intro extension hne
    rw [ByteString.getD_bind_text?_iff hne, Path.extension?_join_iff w.root hn]
  have hbuild : ((w.root.join name).extension?.bind ByteString.text?).getD "" ∈ buildExtensions ↔
      ∃ extension ∈ buildExtensions, HasExtension name extension := by
    have hascii : ∀ extension ∈ buildExtensions, ByteString.ofText extension = extension := by
      decide
    constructor
    · intro hmem
      have hne : ((w.root.join name).extension?.bind ByteString.text?).getD "" ≠ "" :=
        fun hempty => absurd (hempty ▸ hmem) (by decide)
      exact ⟨_, hmem, hascii _ hmem ▸ (hextension _ hne).1 rfl⟩
    · rintro ⟨extension, hmem, hext⟩
      have hne : extension ≠ "" := fun hempty => absurd (hempty ▸ hmem) (by decide)
      rwa [(hextension extension hne).2 (by rwa [hascii extension hmem])]
  have hsource : generatedStart <+: (((some name).bind ByteString.text?).getD "").toList ∧
      HasExtension name (.ofText "c") ↔ ∃ middle, name = .ofText ("_test_" ++ middle ++ ".c") := by
    constructor
    · rintro ⟨hstart, hext⟩
      generalize htext : ((some name).bind ByteString.text?).getD "" = text at hstart
      have hne : text ≠ "" := by
        rintro rfl
        exact absurd hstart (by decide)
      obtain rfl := Option.some.inj ((ByteString.getD_bind_text?_iff hne).1 htext)
      obtain ⟨middle, rfl⟩ := exists_middle_iff.2 ⟨hstart, hasExtension_ofText_iff.1 hext⟩
      exact ⟨middle, rfl⟩
    · rintro ⟨middle, rfl⟩
      obtain ⟨hstart, hext⟩ := exists_middle_iff.1 ⟨middle, rfl⟩
      rw [Option.bind_some, ByteString.text?_ofText]
      exact ⟨hstart, hasExtension_ofText_iff.2 hext⟩
  rw [isArtifact, Path.fileName?_join w.root hn]
  simp only [Bool.or_eq_true, Bool.and_eq_true, beq_iff_eq, List.contains_iff_mem,
    List.isPrefixOf_iff_prefix, or_assoc]
  rw [hbuild, hextension "c" (by decide), hsource,
    ByteString.getD_bind_text?_iff (show coverageName ≠ "" by decide), Option.some_inj]
  rfl

/-! ### The clone -/

theorem join_ne_empty (hn : Path.IsName name) : (w.root.join name).text ≠ "" := by
  rcases join_text w hn.1 with ⟨-, h⟩ | ⟨-, front, -, h⟩
  · rw [h]
    exact hn.2.1
  · rw [h]
    simp

/-- The emptied directory of the clone goes, unless it is out of reach, and then nothing is at the
    path of the clone. -/
theorem removeEmptied_clone (hn : Path.IsName w.cloneName)
    (h : t.find w.clone false = .ok (l, .directory)) :
    ((t.eraseBelow l).removeEmptied w.clone l).1 = .ok () ∧
      ((t.eraseBelow l).removeEmptied w.clone l).2.find w.clone false =
        .error (.system .notFound) := by
  rcases find_of_part (Part.eraseBelow t l) w.clone false with hfind | hfind
  · rw [h] at hfind
    rw [clone, removeEmptied_join hn hfind]
    refine ⟨rfl, ?_⟩
    rcases find_of_part (Part.erase (t.eraseBelow l) l) w.clone false with hgone | hgone
    · rw [hfind] at hgone
      obtain ⟨R, -, rfl, hl⟩ := find_join hn hgone
      rw [lookup_erase _ _ (by simp), if_pos rfl] at hl
      cases hl
    · exact hgone
  · rw [removeEmptied, hfind]
    exact ⟨rfl, hfind⟩

/-- Removing the clone changes nothing if it fails, and else leaves nothing at the path of the
    clone. -/
theorem removeTree_clone (hn : Path.IsName w.cloneName) (t : FileTree) :
    (∃ fault, t.removeTree w.clone = (.error fault, t) ∧
      (t.find w.clone false = .error fault ∨ fault = .system .notDirectory)) ∨
    (t.removeTree w.clone).1 = .ok () ∧
      (t.removeTree w.clone).2.find w.clone false = .error (.system .notFound) := by
  rw [removeTree]
  cases hfind : t.find w.clone false with
  | error fault => exact .inl ⟨fault, rfl, .inl rfl⟩
  | ok found =>
    obtain ⟨l, e⟩ := found
    cases e with
    | file content executable => exact .inl ⟨_, rfl, .inr rfl⟩
    | directory => exact .inr (removeEmptied_clone hn hfind)
    | link text =>
      refine .inr ⟨rfl, ?_⟩
      rcases find_of_part (Part.erase t l) w.clone false with hgone | hgone
      · rw [hfind] at hgone
        obtain ⟨R, -, rfl, hl⟩ := find_join hn hgone
        rw [lookup_erase _ _ (by simp), if_pos rfl] at hl
        cases hl
      · exact hgone

/-- Removing the clone fails without having changed anything, or leaves nothing at its path. -/
theorem run_removeClone_cases (hn : Path.IsName w.cloneName) (world : World σ) :
    (∃ fault events requests, fault ≠ .system .notFound ∧
      (w.removeClone : Action σ Unit).run world =
        (.error (.failure (.io fault)), { world with events, requests })) ∨
    ∃ events requests, (w.removeClone : Action σ Unit).run world =
        (.ok (), ⟨(world.files.removeTree w.clone).2, events, world.tools, requests⟩) ∧
      (world.files.removeTree w.clone).2.find w.clone false = .error (.system .notFound) := by
  obtain ⟨events, requests, hrun⟩ := @run_removeClone σ w world
  rcases removeTree_clone hn world.files with ⟨fault, hremove, hfind⟩ | ⟨hok, hgone⟩
  · rw [hremove] at hrun ⊢
    by_cases hfault : fault = .system .notFound
    · subst hfault
      exact .inr ⟨events, requests, hrun, hfind.resolve_right (by decide)⟩
    · refine .inl ⟨fault, events, requests, hfault, ?_⟩
      rw [hrun]
      simp [hfault]
  · rw [hok] at hrun
    exact .inr ⟨events, requests, hrun, hgone⟩

/-! ### Cleaning again -/

/-- After the clone, the files in the root are removed, if there is a root. -/
theorem run_clean_of_removeClone (h : (w.removeClone : Action σ Unit).run world = (.ok (), left)) :
    (w.clean : Action σ Unit).run world =
      match left.files.directory w.root with
      | .ok R => (removeFiles (w.artifacts left.files R)).run left
      | .error _ => (.ok (), left) := by
  rw [clean, Action.run_bind, h]
  simp only
  rw [Action.run_bind, Action.files, Action.run_ofFunction]
  simp only
  cases left.files.directory w.root <;> rfl

/-- A directory that a path leads to in a part is the one that it leads to in the whole. -/
theorem directory_of_part (ht : Part t' t) {p : Path} (h : t'.directory p = .ok l) :
    t.directory p = .ok l := by
  rw [directory_eq_ok_iff] at h ⊢
  rcases find_of_part ht p true with hfind | hfind
  · rwa [← hfind]
  · rw [hfind] at h
    cases h

/-- What is left after a cleaning that succeeds has no clone, and no files that are to be
    removed. -/
theorem nothing_left (hn : Path.IsName w.cloneName) (ht : world.files.Proper)
    (h : (w.clean : Action σ Unit).run world = (.ok (), left)) :
    left.files.find w.clone false = .error (.system .notFound) ∧
      ∀ R, left.files.directory w.root = .ok R → w.artifacts left.files R = [] := by
  have hproper : left.files.Proper := by
    have hkept := (keeps_cleans hn world.files world ⟨.refl w _, ht⟩).2
    rwa [h] at hkept
  rcases run_removeClone_cases hn world with ⟨fault, events, requests, -, hrun⟩ |
    ⟨events, requests, hrun, hgone⟩
  · rw [clean, Action.run_bind, hrun] at h
    cases h
  rw [run_clean_of_removeClone hrun] at h
  cases hroot : (world.files.removeTree w.clone).2.directory w.root with
  | error fault =>
    simp only [hroot] at h
    obtain rfl := (Prod.mk.inj h).2
    exact ⟨hgone, fun R hR => absurd (hroot.symm.trans hR) (by simp)⟩
  | ok R =>
    simp only [hroot] at h
    obtain ⟨hpart, hleft⟩ := lookup_of_run_removeFiles (w := w) (congrArg Prod.fst h)
    rw [h] at hpart hleft
    constructor
    · rcases find_of_part hpart w.clone false with hfind | hfind
      · exact hfind.trans hgone
      · exact hfind
    · intro R' hR'
      obtain rfl := Except.ok.inj (hroot.symm.trans (directory_of_part hpart hR'))
      have hrootAt := (directory_root_iff.1 hR').2
      refine List.eq_nil_iff_forall_not_mem.2 fun p hp => ?_
      obtain ⟨name, hname⟩ := exists_isLeftover hproper hrootAt hp
      obtain ⟨content, executable, hfile⟩ := hname.file R hrootAt
      obtain rfl := hname.path
      -- Such a file was there before, and so it has been removed.
      have hlisted := mem_artifacts (hpart.lookup _ _ hfile) hname.artifact
      obtain ⟨-, R'', hrootAt', hnone⟩ := hleft _ hlisted name hname.proper.isName rfl
      obtain rfl := (hrootAt.of_part hpart).unique hrootAt'
      exact absurd (hfile.symm.trans hnone) (by simp)

/-- A cleaning after one that succeeds succeeds, and changes nothing. -/
theorem run_clean_again (hn : Path.IsName w.cloneName) (ht : world.files.Proper)
    (h : (w.clean : Action σ Unit).run world = (.ok (), left)) :
    ∃ events requests, (w.clean : Action σ Unit).run left =
      (.ok (), { left with events, requests }) := by
  obtain ⟨hclone, hartifacts⟩ := nothing_left hn ht h
  have hremove : left.files.removeTree w.clone = (.error (.system .notFound), left.files) := by
    rw [removeTree, hclone]
  obtain ⟨events, requests, hrun⟩ := @run_removeClone σ w left
  rw [hremove] at hrun
  have hrun : (w.removeClone : Action σ Unit).run left =
      (.ok (), { left with events, requests }) := hrun
  refine ⟨events, requests, ?_⟩
  rw [run_clean_of_removeClone hrun]
  dsimp only
  cases hroot : left.files.directory w.root with
  | error fault => rfl
  | ok R =>
    dsimp only
    rw [hartifacts R hroot]
    rfl

/-! ### A cleaning that fails -/

/-- Removing files fails at one of them. -/
theorem exists_of_run_removeFiles {ps : List Path} {halt : Halt}
    (h : ((removeFiles ps : Action σ Unit).run world).1 = .error halt) :
    ∃ p ∈ ps, ∃ t fault, Part t world.files ∧ t.removeFile p = .error fault ∧
      halt = .failure (.io fault) := by
  induction ps generalizing world with
  | nil => cases h
  | cons p ps ih =>
    cases hremove : world.files.removeFile p with
    | error fault =>
      obtain ⟨requests, hrefused⟩ := @run_removeFiles_refused σ world p ps fault hremove
      rw [hrefused] at h
      exact ⟨p, by simp, world.files, fault, .refl _, hremove, (Except.error.inj h).symm⟩
    | ok t =>
      obtain ⟨events, requests, hcons⟩ := @run_removeFiles_cons σ t world p ps hremove
      rw [hcons] at h
      have hpart : Part t world.files := by
        have := Part.removeFile world.files p
        rwa [hremove] at this
      obtain ⟨q, hq, t', fault, hpart', hfails, hhalt⟩ := ih h
      exact ⟨q, List.mem_cons_of_mem p hq, t', fault, hpart'.trans hpart, hfails, hhalt⟩

/-- Removing the files that a run leaves behind does not fail for want of a directory. -/
theorem ne_notDirectory_of_removeFile (hroot : w.RootAt t R) {p : Path}
    (hp : w.IsLeftover t p name) (ht : Part t' t) (h : t'.removeFile p = .error fault) :
    fault ≠ .system .notDirectory := by
  obtain rfl := hp.path
  rw [removeFile] at h
  by_cases htext : IsPathText (w.root.join name).text
  · obtain ⟨content, executable, hfile⟩ := hp.file R hroot
    have hfind := find_join_of_rootAt hp.proper.isName hp.proper.isEntryName htext hroot
    rw [hfile] at hfind
    rcases find_of_part ht (w.root.join name) false with hfind' | hfind'
    · rw [hfind', hfind] at h
      cases h
    · rw [hfind'] at h
      obtain rfl := Except.error.inj h
      decide
  · obtain ⟨fault', hfault, hresolve⟩ := resolve_of_not_isPathText htext
    rw [find, hresolve] at h
    obtain rfl := Except.error.inj h
    rcases hfault with rfl | hempty | rfl
    · decide
    · exact absurd hempty (join_ne_empty hp.proper.isName)
    · decide

/-- A cleaning that fails since there is no directory where there should be one has not changed
    anything. -/
theorem files_of_notDirectory (hn : Path.IsName w.cloneName) (ht : world.files.Proper)
    (h : (w.clean : Action σ Unit).run world =
      (.error (.failure (.io (.system .notDirectory))), left)) : left.files = world.files := by
  rcases run_removeClone_cases hn world with
      ⟨fault, events, requests, -, hrun⟩ | ⟨events, requests, hrun, -⟩
  · rw [clean, Action.run_bind, hrun] at h
    obtain rfl := (Prod.mk.inj h).2
    rfl
  have hproper := (keeps_cleans_removeClone hn world.files world ⟨.refl w _, ht⟩).2
  rw [hrun] at hproper
  rw [run_clean_of_removeClone hrun] at h
  cases hroot : (world.files.removeTree w.clone).2.directory w.root with
  | error fault =>
    simp only [hroot] at h
    cases h
  | ok R =>
    simp only [hroot] at h
    have hrootAt := (directory_root_iff.1 hroot).2
    obtain ⟨p, hp, t, fault, hpart, hremove, hhalt⟩ :=
      exists_of_run_removeFiles (congrArg Prod.fst h)
    obtain ⟨name, hname⟩ := exists_isLeftover hproper hrootAt hp
    obtain rfl := Failure.io.inj (Halt.failure.inj hhalt)
    exact absurd rfl (ne_notDirectory_of_removeFile hrootAt hname hpart hremove)

/-! ### A cleaning that succeeds -/

/-- Whether cleaning is to remove what stands at a place: it is where the path of the clone leads,
    or below it, where a link at the end of the path is not followed; or it is a file directly in
    the root with a name of a file that comes from building or from measuring coverage. -/
inductive Removes (w : Workspace) (t : FileTree) (l : Location) : Prop where
  | clone {top : Location} {e : Entry} (h : t.find w.clone false = .ok (top, e)) (hl : top <+: l)
  | file {R : Location} {name : ByteString} {content : List UInt8} {executable : Bool}
      (h : t.directory w.root = .ok R) (hl : l = R ++ [name]) (hname : IsBuildName name)
      (hfile : t.lookup l = some (.file content executable))

/-- If the root is a directory and something in it is found, or nothing is, the name and the path
    are such as the system takes. -/
theorem isPathText_of_find (hn : Path.IsName name) (hroot : w.RootAt t R)
    (h : ∀ fault, t.find (w.root.join name) false = .error fault → fault = .system .notFound) :
    IsPathText (w.root.join name).text ∧ IsEntryName name := by
  have htext : IsPathText (w.root.join name).text := by
    by_contra htext
    obtain ⟨fault, hfault, hresolve⟩ := resolve_of_not_isPathText htext
    have hfind := h fault (by rw [find, hresolve])
    rcases hfault with rfl | hempty | rfl
    · exact absurd hfind (by decide)
    · exact join_ne_empty hn hempty
    · exact absurd hfind (by decide)
  refine ⟨htext, hn.2.2.1, hn.2.2.2, ?_⟩
  by_contra hsize
  obtain ⟨links, hwalk⟩ := Leads.walk_append hroot
  have hresolve : t.resolve (w.root.join name) false = .error (.system .nameTooLong) := by
    rw [resolve_of_isPathText htext, steps_join w hn, (join_starts_as_root w hn.1 t.here).1,
      hwalk false [name] (by simp)]
    have hlong : t.walk false links R [name] = .error .nameTooLong := by
      cases links <;>
        rw [walk, walkFrom, if_neg hn.2.2.1, if_neg hn.2.2.2, if_pos (Nat.not_le.1 hsize)]
    rw [hlong]
    rfl
  exact absurd (h _ (by rw [find, hresolve])) (by decide)

/-- If removing the clone succeeds and the root is a directory, the system takes all names and
    paths. -/
theorem addressable_of_run (hn : Path.IsName w.cloneName)
    (hroot : world.files.directory w.root = .ok R)
    (h : (w.removeClone : Action σ Unit).run world = (.ok (), left)) : w.Addressable := by
  obtain ⟨hpath, hrootAt⟩ := directory_root_iff.1 hroot
  have hfind : ∀ fault, world.files.find w.clone false = .error fault →
      fault = .system .notFound := by
    intro fault hfind
    obtain ⟨events, hrun⟩ := @run_removeClone σ w world
    have hremove : world.files.removeTree w.clone = (.error fault, world.files) := by
      rw [removeTree, hfind]
    rw [hremove, h] at hrun
    by_contra hfault
    simp [hfault] at hrun
  obtain ⟨htext, hentry⟩ := isPathText_of_find hn hrootAt hfind
  refine ⟨⟨hn, fun hzero => htext.1 ?_, hentry.2.2⟩, hpath, htext⟩
  rcases join_text w hn.1 with ⟨-, hjoin⟩ | ⟨-, front, -, hjoin⟩
  · rwa [hjoin]
  · rw [hjoin, String.toList_append]
    exact List.mem_append_right _ hzero

/-- In a grounded tree, everything below the place of the clone is in a directory there. -/
theorem encloses_of_grounded (hg : t.Grounded) (R : Location) : w.Encloses t R := by
  intro l hl hne hsome
  obtain ⟨e, he⟩ := Option.ne_none_iff_exists'.1 hsome
  exact hg.everywhere.lookup_prefix List.nil_prefix hl hne.symm he

/-- Where the root is a directory, what cleaning is to remove is what it may remove. -/
theorem removes_iff_removable (hw : w.Addressable) (ht : t.Proper)
    (hroot : t.directory w.root = .ok R)
    (hfile : ∀ content executable, t.lookup (w.cloneAt R) ≠ some (.file content executable)) :
    w.Removes t l ↔ w.Removable t l := by
  have hrootAt := (directory_root_iff.1 hroot).2
  constructor
  · intro h
    cases h with
    | clone hfind hl =>
      obtain ⟨R', hrootAt', rfl, he⟩ := find_join hw.name.isName hfind
      obtain rfl := hrootAt.unique hrootAt'
      refine .clone hrootAt hl he fun content executable heq => hfile content executable ?_
      rw [cloneAt, he, heq]
    | @file R' name _ _ hroot' hl hname he =>
      obtain rfl := Except.ok.inj (hroot.symm.trans hroot')
      subst hl
      have hn := (ht.of_lookup he name (by simp)).isName
      exact .artifact hrootAt rfl ((w.isArtifact_join_iff hn).2 hname) he
  · intro h
    cases h with
    | clone hrootAt' hl he =>
      obtain rfl := hrootAt.unique hrootAt'
      have hfind := find_join_of_rootAt hw.name.isName hw.name.isEntryName hw.clone hrootAt
      rw [cloneAt] at he
      rw [he] at hfind
      exact .clone hfind hl
    | @artifact R' name _ _ hrootAt' hl hname he =>
      obtain rfl := hrootAt.unique hrootAt'
      subst hl
      have hn := (ht.of_lookup he name (by simp)).isName
      exact .file hroot rfl ((w.isArtifact_join_iff hn).1 hname) he

/-- A cleaning that succeeds removes exactly what it is to remove, if the root is a directory that
    stands without the clone. -/
theorem lookup_of_run_clean_of_directory (hn : Path.IsName w.cloneName) (ht : world.files.Proper)
    (hg : world.files.Grounded) (hroot : world.files.directory w.root = .ok R)
    (hstands : w.Stands world.files R)
    (h : (w.clean : Action σ Unit).run world = (.ok (), left)) (l : Location) :
    (w.Removes world.files l → left.files.lookup l = none) ∧
      (¬w.Removes world.files l → left.files.lookup l = world.files.lookup l) := by
  have hrootAt := (directory_root_iff.1 hroot).2
  obtain ⟨_, w₁, hremove, -⟩ := Action.exists_of_run_bind_eq h
  have hw := addressable_of_run hn hroot hremove
  have hclone := encloses_of_grounded (w := w) hg R
  have hfile := (lookup_of_run_removeClone hw hstands hclone (congrArg Prod.fst hremove)).2
  have hclean := (clean_of_run hw ht hstands hclone (congrArg Prod.fst h)).1
  have hcleans := (keeps_cleans hn world.files world ⟨.refl w _, ht⟩).1
  rw [h] at hclean hcleans
  rw [removes_iff_removable hw ht hroot hfile]
  exact ⟨hclean.lookup_of_removable hcleans hrootAt, (hcleans.lookup l).resolve_right⟩

/-- With a root that stands without the clone, removing the clone empties its place. -/
theorem lookup_removeTree_clone (hn : Path.IsName w.cloneName) (hg : t.Grounded)
    (hstands : w.Stands t R) {e : Entry} (hfind : t.find w.clone false = .ok (w.cloneAt R, e))
    (hfile : ∀ content executable, e ≠ .file content executable) (l : Location) :
    (t.removeTree w.clone).2.lookup l = if w.cloneAt R <+: l then none else t.lookup l := by
  cases e with
  | file content executable => exact absurd rfl (hfile content executable)
  | directory =>
    rw [removeTree_of_stands hn hstands hfind]
    exact lookup_prune (w.cloneAt_ne_nil R)
  | link text =>
    have hremove : t.removeTree w.clone = (.ok (), t.erase (w.cloneAt R)) := by
      rw [removeTree, hfind]
    have hlink : t.lookup (w.cloneAt R) = some (.link text) := by
      obtain ⟨R', -, heq, hl⟩ := find_join hn hfind
      rwa [heq]
    rw [hremove]
    dsimp only
    rw [lookup_erase _ _ (w.cloneAt_ne_nil R)]
    by_cases hl : l = w.cloneAt R
    · rw [if_pos hl, if_pos (hl ▸ List.prefix_rfl)]
    · -- Nothing is below a link.
      rw [if_neg hl]
      split
      next hbelow =>
        by_contra hsome
        have hdir := encloses_of_grounded (w := w) hg R l hbelow hl hsome
        rw [hlink] at hdir
        cases hdir
      next => rfl

/-- The empty path is the only one of a root that is no directory but leads to the clone. -/
theorem stands_of_noDirectory (hn : Path.IsName w.cloneName)
    (hroot : ∀ R, t.directory w.root ≠ .ok R) (htext : IsPathText w.clone.text)
    (hrootAt : w.RootAt t R) : w.Stands t R := by
  have hempty : w.root.text = "" := by
    by_contra hne
    have hpath := (join_starts_as_root w hn.1 t.here).2 hne htext
    exact hroot R (directory_root_iff.2 ⟨hpath, hrootAt⟩)
  rw [RootAt, hempty, namesOf_empty] at hrootAt
  rw [Stands, RootAt, hempty, namesOf_empty]
  cases hrootAt
  exact .here

/-- A cleaning that succeeds removes only what is at the path of the clone, if there is no root. -/
theorem lookup_of_run_clean_of_noDirectory (hn : Path.IsName w.cloneName)
    (hg : world.files.Grounded) (hroot : ∀ R, world.files.directory w.root ≠ .ok R)
    (h : (w.clean : Action σ Unit).run world = (.ok (), left)) (l : Location) :
    (w.Removes world.files l → left.files.lookup l = none) ∧
      (¬w.Removes world.files l → left.files.lookup l = world.files.lookup l) := by
  have hleft : left.files = (world.files.removeTree w.clone).2 := by
    rcases run_removeClone_cases hn world with
        ⟨fault, events, requests, -, hrun⟩ | ⟨events, requests, hrun, -⟩
    · rw [clean, Action.run_bind, hrun] at h
      cases h
    · rw [run_clean_of_removeClone hrun] at h
      cases hdir : (world.files.removeTree w.clone).2.directory w.root with
      | ok R => exact absurd (directory_of_part (.removeTree _ _) hdir) (hroot R)
      | error fault =>
        simp only [hdir] at h
        obtain rfl := (Prod.mk.inj h).2
        rfl
  rw [hleft]
  cases hfind : world.files.find w.clone false with
  | error fault =>
    have hremove : world.files.removeTree w.clone = (.error fault, world.files) := by
      rw [removeTree, hfind]
    rw [hremove]
    refine ⟨fun hremoves => ?_, fun _ => rfl⟩
    cases hremoves with
    | clone hfind' => exact absurd (hfind.symm.trans hfind') (by simp)
    | file hroot' => exact absurd hroot' (hroot _)
  | ok found =>
    obtain ⟨top, e⟩ := found
    have htext := (resolve_eq_ok_iff.1 (find_eq_ok_iff.1 hfind)).1
    obtain ⟨R, hrootAt, rfl, he⟩ := find_join hn hfind
    have hstands := stands_of_noDirectory hn hroot htext hrootAt
    have hremoves : w.Removes world.files l ↔ w.cloneAt R <+: l := by
      refine ⟨fun hremoves => ?_, .clone hfind⟩
      cases hremoves with
      | clone hfind' hl =>
        obtain ⟨rfl, -⟩ := Prod.mk.inj (Except.ok.inj (hfind.symm.trans hfind'))
        exact hl
      | file hroot' => exact absurd hroot' (hroot _)
    rw [hremoves]
    have hfile : ∀ content executable, e ≠ .file content executable := by
      rintro content executable rfl
      have hremove : world.files.removeTree w.clone =
          (.error (.system .notDirectory), world.files) := by
        rw [removeTree, hfind]
      rcases run_removeClone_cases hn world with
          ⟨fault, events, requests, -, hrun⟩ | ⟨events, requests, hrun, hgone⟩
      · rw [clean, Action.run_bind, hrun] at h
        cases h
      · rw [hremove, hfind] at hgone
        cases hgone
    rw [lookup_removeTree_clone hn hg hstands hfind hfile]
    exact ⟨fun hl => if_pos hl, fun hl => if_neg hl⟩

/-- A cleaning that succeeds leaves nothing where it is to remove something, and everything else as
    it was, and it changes neither the directory where paths start nor the tools. For this, a root
    that is a directory has to stand without the clone. In any case, another cleaning succeeds and
    changes nothing. And a cleaning that fails since there is no directory where there should be one
    has not changed anything. -/
theorem clean_exactly {accepted : String} (hname : Check.directoryName field accepted = .ok ())
    (hw : w.cloneName = .ofText accepted) (world : World σ) (ht : world.files.Proper)
    (hg : world.files.Grounded) :
    (∀ left, (w.clean : Action σ Unit).run world = (.ok (), left) →
      (∀ R, world.files.directory w.root = .ok R → w.Stands world.files R) →
      left.files.here = world.files.here ∧ left.tools = world.tools ∧
        ∀ l, (w.Removes world.files l → left.files.lookup l = none) ∧
          (¬w.Removes world.files l → left.files.lookup l = world.files.lookup l)) ∧
    (∀ left, (w.clean : Action σ Unit).run world = (.ok (), left) →
      ((w.clean : Action σ Unit).run left).1 = .ok () ∧
        ((w.clean : Action σ Unit).run left).2.files = left.files) ∧
    ∀ left, (w.clean : Action σ Unit).run world =
        (.error (.failure (.io (.system .notDirectory))), left) →
      left.files = world.files := by
  have hn : Path.IsName w.cloneName := hw ▸ Check.isName_of_directoryName hname
  refine ⟨fun left h hstands => ⟨?_, ?_, fun l => ?_⟩, fun left h => ?_, fun left h => ?_⟩
  · have hcleans := (keeps_cleans hn world.files world ⟨.refl w _, ht⟩).1
    rw [h] at hcleans
    exact hcleans.part.here
  · have htools := (quiet_clean w world).1
    rwa [h] at htools
  · cases hroot : world.files.directory w.root with
    | ok R => exact lookup_of_run_clean_of_directory hn ht hg hroot (hstands R hroot) h l
    | error fault =>
      exact lookup_of_run_clean_of_noDirectory hn hg (fun R hR => by simp [hroot] at hR) h l
  · obtain ⟨events, requests, hrun⟩ := run_clean_again hn ht h
    rw [hrun]
    exact ⟨rfl, rfl⟩
  · exact files_of_notDirectory hn ht h

/-! ### Small workspaces -/

/-- A world with some entries, where paths start at the top. -/
def worldOf (entries : List (Location × Entry)) : World Unit where
  files := ⟨entries, []⟩
  events := []
  tools := ()

/-- A workspace in the directory where everything is. -/
def hereWorkspace : Workspace :=
  ⟨⟨"."⟩, "cloned_repo", "coverage_report"⟩

/-- The entries of a workspace with a clone, files that are removed, and others. -/
def littered : List (Location × Entry) :=
  [(["cloned_repo"], .directory), (["cloned_repo", "math.c"], .file [] false),
    (["math.gcno"], .file [] false), ([".o"], .file [] false), (["a.so"], .link "math.gcno"),
    (["_test_math.c"], .file [] false), ([".cscaffold.lock"], .file [] false)]

theorem proper_littered : (worldOf littered).files.Proper :=
  ⟨by decide, by decide, by decide, by simp [worldOf, littered]⟩

theorem grounded_littered : (worldOf littered).files.Grounded :=
  ⟨groundedFrom_of_entries (by decide), rfl⟩

theorem accepted_hereWorkspace : Check.directoryName "repo_dir" "cloned_repo" = .ok () := by
  decide +kernel

theorem stands_littered (R : Location)
    (hR : (worldOf littered).files.directory hereWorkspace.root = .ok R) :
    hereWorkspace.Stands (worldOf littered).files R := by
  have hdir : (worldOf littered).files.directory hereWorkspace.root = .ok [] := by decide +kernel
  obtain rfl := Except.ok.inj (hdir.symm.trans hR)
  exact stands_here rfl _

theorem removes_littered :
    hereWorkspace.Removes (worldOf littered).files ["cloned_repo", "math.c"] ∧
    hereWorkspace.Removes (worldOf littered).files ["math.gcno"] ∧
    ¬hereWorkspace.Removes (worldOf littered).files [".o"] := by
  have hdir : (worldOf littered).files.directory hereWorkspace.root = .ok [] := by decide +kernel
  have hclone : (worldOf littered).files.find hereWorkspace.clone false =
      .ok (["cloned_repo"], .directory) := by decide +kernel
  refine ⟨.clone hclone (List.prefix_append _ ["math.c"]), .file hdir rfl ?_ rfl, fun h => ?_⟩
  · exact (hereWorkspace.isArtifact_join_iff (by decide)).1 (by decide +kernel)
  · cases h with
    | clone hfind hl =>
      obtain ⟨rfl, -⟩ := Prod.mk.inj (Except.ok.inj (hclone.symm.trans hfind))
      exact absurd hl (by decide)
    | file hroot hl hname =>
      obtain rfl := Except.ok.inj (hdir.symm.trans hroot)
      obtain rfl := List.singleton_inj.1 hl
      exact absurd ((hereWorkspace.isArtifact_join_iff (by decide)).2 hname) (by decide +kernel)

theorem run_eq_of_fst {a : Action σ Unit} {r : Except Halt Unit} (h : (a.run world).1 = r) :
    a.run world = (r, (a.run world).2) :=
  Prod.ext h rfl

/-- A workspace with a clone is cleaned, and stays so. One with a file in the place of the clone is
    left as it is. -/
theorem clean_exactly_littered :
    Check.directoryName "repo_dir" "cloned_repo" = .ok () ∧
    hereWorkspace.cloneName = .ofText "cloned_repo" ∧
    (worldOf littered).files.Proper ∧ (worldOf littered).files.Grounded ∧
    (∃ left, (hereWorkspace.clean : Action Unit Unit).run (worldOf littered) = (.ok (), left) ∧
      left.files.lookup ["cloned_repo", "math.c"] = none ∧
      left.files.lookup ["math.gcno"] = none ∧
      left.files.lookup [".o"] = some (.file [] false) ∧
      ((hereWorkspace.clean : Action Unit Unit).run left).2.files = left.files) ∧
    ∃ left, (hereWorkspace.clean : Action Unit Unit).run
        (worldOf [(["cloned_repo"], .file [] false), (["math.o"], .file [] false)]) =
          (.error (.failure (.io (.system .notDirectory))), left) ∧
      left.files.lookup ["math.o"] = some (.file [] false) := by
  have hname : hereWorkspace.cloneName = .ofText "cloned_repo" := by decide
  obtain ⟨hexact, hagain, -⟩ := clean_exactly accepted_hereWorkspace hname (worldOf littered)
    proper_littered grounded_littered
  have hok : ((hereWorkspace.clean : Action Unit Unit).run (worldOf littered)).1 = .ok () := by
    decide +kernel
  have hrun := run_eq_of_fst hok
  obtain ⟨hclone, hbuild, hkept⟩ := removes_littered
  have hlookup := (hexact _ hrun stands_littered).2.2
  refine ⟨accepted_hereWorkspace, hname, proper_littered, grounded_littered,
    ⟨_, hrun, (hlookup _).1 hclone, (hlookup _).1 hbuild, (hlookup _).2 hkept,
      (hagain _ hrun).2⟩, ?_⟩
  generalize hblocked : worldOf [(["cloned_repo"], .file [] false), (["math.o"], .file [] false)] =
    blocked
  have hproper : blocked.files.Proper := by
    subst hblocked
    exact ⟨by decide, by decide, by decide, by simp [worldOf]⟩
  have hgrounded : blocked.files.Grounded := by
    subst hblocked
    exact ⟨groundedFrom_of_entries (by decide), rfl⟩
  have hfails : ((hereWorkspace.clean : Action Unit Unit).run blocked).1 =
      .error (.failure (.io (.system .notDirectory))) := by
    subst hblocked
    decide +kernel
  have hsame := (clean_exactly accepted_hereWorkspace hname blocked hproper hgrounded).2.2 _
    (run_eq_of_fst hfails)
  refine ⟨_, run_eq_of_fst hfails, ?_⟩
  rw [hsame, ← hblocked]
  rfl

/-- Where the root is reached by way of the clone, a cleaning that succeeds leaves files in the root
    that it is to remove. -/
theorem clean_leaves_behind_clone :
    Check.directoryName "repo_dir" "cloned_repo" = .ok () ∧
    ∃ left, ((⟨⟨"cloned_repo/.."⟩, "cloned_repo", "coverage_report"⟩ : Workspace).clean :
        Action Unit Unit).run
          (worldOf [(["cloned_repo"], .directory), (["math.o"], .file [] false)]) =
            (.ok (), left) ∧
      left.files.lookup ["cloned_repo"] = none ∧
      left.files.lookup ["math.o"] = some (.file [] false) :=
  ⟨accepted_hereWorkspace, _, run_eq_of_fst (by decide +kernel), by decide +kernel,
    by decide +kernel⟩

end Workspace

end TestBench
