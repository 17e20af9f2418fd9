import TestBench.Proofs.FileTree.Grounded
import TestBench.Proofs.Lookup
import TestBench.Proofs.Path.Names

/-!
# Which file is looked up

A look-up may give any file with the extension, if the directories on the way to it can be listed
by the paths that lead there (`Candidate`). Of these it gives the first with the name that is
looked for, or else the first of all (`IsFirst`). What comes first is told by the names on the way,
where the first that differ decide, so that the order in which directories are listed makes no
difference.

* `directory_foldl_join_iff`: a directory below can be listed unless its path is too long;
* `mem_found_iff`: the candidates are what is found;
* `locate_gives_first`: looking up gives the first candidate with the name, or else the first of
  all.
-/

namespace TestBench.Lookup

open FileTree

variable {σ : Type} {t t' : FileTree} {l : Location} {root p : Path} {name extension : ByteString}
  {names other : List ByteString} {ps : List Path} {P : List ByteString → Prop}

/-! ### Directories below -/

/-- Directories can be listed on the way if each of their paths is short enough. -/
theorem isReached_iff :
    isReached root names ↔ ∀ front, front <+: names → front ≠ [] → front ≠ names →
      isListed (front.foldl Path.join root) := by
  induction names generalizing root with
  | nil => simp [isReached]
  | cons name rest ih =>
    cases rest with
    | nil =>
      simp only [isReached, true_iff]
      intro front hfront hne hne'
      obtain rfl | hnil := List.prefix_concat_iff.1 (show front <+: [] ++ [name] from hfront)
      · exact absurd rfl hne'
      · exact absurd (List.prefix_nil.1 hnil) hne
    | cons next rest =>
      rw [isReached, Bool.and_eq_true, ih]
      constructor
      · rintro ⟨hfirst, hrest⟩ front hfront hne hne'
        cases front with
        | nil => exact absurd rfl hne
        | cons name' front =>
          obtain ⟨rfl, hbehind⟩ := List.cons_prefix_cons.1 hfront
          by_cases hnil : front = []
          · rw [hnil]
            exact hfirst
          · exact hrest front hbehind hnil (by simpa using hne')
      · intro h
        refine ⟨h [name] (by simp) (by simp) (by simp), fun front hfront hne hne' => ?_⟩
        exact h (name :: front) (List.cons_prefix_cons.2 ⟨rfl, hfront⟩) (by simp)
          (by simpa using hne')

/-- The text of a path with names behind it may be that of a path, unless it is too long. -/
theorem isPathText_foldl_join_iff (hroot : IsPathText root.text)
    (hnames : ∀ name ∈ names, IsProperName name) :
    IsPathText (names.foldl Path.join root).text ↔ isListed (names.foldl Path.join root) := by
  have htext : ∀ p : Path, Char.ofNat 0 ∉ p.text.toList → p.text ≠ "" →
      (IsPathText p.text ↔ isListed p) := by
    intro p hzero hne
    rw [isListed, decide_eq_true_iff]
    exact ⟨fun h => h.2.2, fun h => ⟨hzero, hne, h⟩⟩
  obtain ⟨hzero, hne, -⟩ := hroot
  induction names generalizing root with
  | nil => exact htext root hzero hne
  | cons name names ih =>
    rw [List.forall_mem_cons] at hnames
    obtain ⟨hempty, -⟩ | ⟨-, front, hfront, hjoin⟩ :=
      Workspace.join_text ⟨root, "", ""⟩ hnames.1.isName.1
    · exact absurd hempty hne
    have hfrontZero : Char.ofNat 0 ∉ front.toList := by
      rcases hfront with hfront | hfront <;> rw [hfront] at hzero
      · exact hzero
      · rw [String.toList_append, List.mem_append, not_or] at hzero
        exact hzero.1
    have hjoin : (root.join name).text = front ++ "/" ++ name := hjoin
    refine ih hnames.2 ?_ ?_
    · rw [hjoin, String.toList_append, String.toList_append, List.mem_append, List.mem_append]
      exact not_or.2 ⟨not_or.2 ⟨hfrontZero, by decide⟩, hnames.1.zero⟩
    · rw [hjoin]
      simp

/-- A directory below another one can be listed by its path, unless that is too long. -/
theorem directory_foldl_join_iff (ht : t.Proper) (hroot : t.directory root = .ok l)
    (hdirs : ∀ k, k <+: names → t.lookup (l ++ k) = some .directory) :
    (∃ d, t.directory (names.foldl Path.join root) = .ok d) ↔
      isListed (names.foldl Path.join root) := by
  obtain ⟨htext, hway⟩ := (Workspace.directory_root_iff (w := ⟨root, "", ""⟩)).1 hroot
  have hnames : ∀ name ∈ names, IsProperName name := fun name hname =>
    ht.of_lookup (hdirs names List.prefix_rfl) name (List.mem_append_right l hname)
  rw [← isPathText_foldl_join_iff htext hnames]
  constructor
  · rintro ⟨d, hd⟩
    exact ((Workspace.directory_root_iff (w := ⟨names.foldl Path.join root, "", ""⟩)).1 hd).1
  · intro hlisted
    by_cases hne : names = []
    · exact ⟨l, by rw [hne]; exact hroot⟩
    obtain ⟨hsteps, horigin⟩ :=
      Workspace.steps_foldl_join (fun name hname => (hnames name hname).isName) hne root
    obtain ⟨links, hdown⟩ := Leads.append hway
    refine ⟨l ++ names,
      directory_eq_ok_iff.2 (find_eq_ok_iff.2 (resolve_eq_ok_iff.2 ⟨hlisted, ?_⟩))⟩
    rw [hsteps, horigin]
    refine hdown hne (.downDirectories (fun name hname => (hnames name hname).isEntryName) ?_)
    exact fun k hk _ => hdirs k hk

/-! ### Candidates -/

/-- Whether names lead from a directory down to a file that may be given: the file has the
    extension, and the directories on the way can be listed by their paths. -/
structure Candidate (t : FileTree) (l : Location) (root : Path) (extension : ByteString)
    (names : List ByteString) : Prop where
  file : ∃ content executable, t.lookup (l ++ names) = some (.file content executable)
  extension : ∃ name, names.getLast? = some name ∧ HasExtension name extension
  listed : ∀ front, front <+: names → front ≠ names →
    ∃ d, t.directory (front.foldl Path.join root) = .ok d

/-- Whether names are the first of those with a property: of the first names that differ, the one of
    theirs is less. -/
def IsFirst (P : List ByteString → Prop) (names : List ByteString) : Prop :=
  P names ∧ ∀ other, P other → other = names ∨ List.Lex (· < ·) names other

theorem IsFirst.unique (h : IsFirst P names) (h' : IsFirst P other) : names = other := by
  rcases h.2 other h'.1 with heq | hlt
  · exact heq.symm
  · rcases h'.2 names h.1 with heq | hlt'
    · exact heq
    · exact absurd hlt' (List.lt_asymm hlt)

namespace Candidate

theorem ne_nil (h : Candidate t l root extension names) : names ≠ [] := by
  rintro rfl
  obtain ⟨name, hname, -⟩ := h.extension
  cases hname

theorem isProperName (ht : t.Proper) (h : Candidate t l root extension names) :
    ∀ name ∈ names, IsProperName name := by
  obtain ⟨content, executable, hfile⟩ := h.file
  exact fun name hname => ht.of_lookup hfile name (List.mem_append_right l hname)

theorem isName (ht : t.Proper) (h : Candidate t l root extension names) :
    ∀ name ∈ names, Path.IsName name :=
  fun name hname => (h.isProperName ht name hname).isName

/-- The path of a candidate has the name that is looked for if the last of its names is it. -/
theorem isNamed_iff (ht : t.Proper) (h : Candidate t l root extension names) :
    isNamed name (names.foldl Path.join root) ↔ names.getLast? = some name := by
  rw [isNamed, Path.fileName?_foldl_join (h.isName ht) h.ne_nil, beq_iff_eq]

end Candidate

/-- What is found are the paths of the candidates. -/
theorem mem_found_iff (ht : t.Proper) (hg : t.Grounded) (hroot : t.directory root = .ok l) :
    p ∈ found t l root extension ↔
      ∃ names, Candidate t l root extension names ∧ p = names.foldl Path.join root := by
  rw [mem_found]
  have hext : ∀ names : List ByteString, names ≠ [] → (∀ name ∈ names, Path.IsName name) →
      ((names.foldl Path.join root).extension? = some extension ↔
        ∃ name, names.getLast? = some name ∧ HasExtension name extension) := by
    intro names hne hnames
    rw [Path.extension?_eq_some_iff, Path.fileName?_foldl_join hnames hne]
  -- Everything on the way to a file is a directory.
  have hlisted : ∀ names content executable,
      t.lookup (l ++ names) = some (.file content executable) →
      (isReached root names ↔ ∀ front, front <+: names → front ≠ names →
        ∃ d, t.directory (front.foldl Path.join root) = .ok d) := by
    intro names content executable hfile
    rw [isReached_iff]
    refine forall_congr' fun front => forall_congr' fun hfront => ?_
    by_cases hnil : front = []
    · rw [hnil]
      exact iff_of_true (fun hne => absurd rfl hne) fun _ => ⟨l, hroot⟩
    · refine (forall_prop_of_true hnil).trans (forall_congr' fun hne => ?_)
      refine (directory_foldl_join_iff ht hroot fun k hk => ?_).symm
      refine hg.everywhere.lookup_prefix List.nil_prefix
        ((List.prefix_append_right_inj l).2 (hk.trans hfront)) (fun heq => ?_) hfile
      rw [List.append_cancel_left_eq] at heq
      exact hne (hfront.eq_of_length_le (heq ▸ hk.length_le))
  constructor
  · rintro ⟨names, content, executable, hne, hmem, hreached, rfl, hextension⟩
    have hfile : t.lookup (l ++ names) = _ := (ht.lookup_iff (by simp [hne])).2 hmem
    have hnames : ∀ name ∈ names, Path.IsName name := fun name hname =>
      (ht.of_lookup hfile name (List.mem_append_right l hname)).isName
    exact ⟨names, ⟨⟨content, executable, hfile⟩, (hext names hne hnames).1 hextension,
      (hlisted names content executable hfile).1 hreached⟩, rfl⟩
  · rintro ⟨names, h, rfl⟩
    obtain ⟨content, executable, hfile⟩ := h.file
    exact ⟨names, content, executable, h.ne_nil, mem_of_lookup (by simp [h.ne_nil]) hfile,
      (hlisted names content executable hfile).2 h.listed, rfl,
      (hext names h.ne_nil (h.isName ht)).2 h.extension⟩

/-! ### The first of them -/

/-- What is found is in the order of paths. -/
theorem pairwise_found (t : FileTree) (l : Location) (root : Path) (extension : ByteString) :
    (found t l root extension).Pairwise fun p q => p.le q := by
  rw [found]
  refine @List.pairwise_mergeSort Path Path.le (fun _ _ _ => Path.le_trans) (fun p q => ?_) _
  rw [Bool.or_eq_true]
  exact p.le_total q

/-- In a list of paths in order, what is found first comes before all that could be found. -/
theorem le_of_find? {Q : Path → Bool} (hps : ps.Pairwise fun p q => p.le q)
    (hp : ps.find? Q = some p) : ∀ q ∈ ps, Q q → p.le q := by
  obtain ⟨-, before, behind, rfl, hbefore⟩ := List.find?_eq_some_iff_append.1 hp
  intro q hq hQ
  rcases List.mem_append.1 hq with hq | hq
  · exact absurd hQ (by simpa using hbefore q hq)
  · rcases List.mem_cons.1 hq with rfl | hq
    · exact (q.le_total q).elim id id
    · exact (List.pairwise_cons.1 (List.pairwise_append.1 hps).2.1).1 q hq

/-- The first path with some property leads to the first candidate with it. -/
theorem exists_isFirst_of_find? (ht : t.Proper) (hg : t.Grounded) (hroot : t.directory root = .ok l)
    {Q : Path → Bool} (hQ : ∀ names, Candidate t l root extension names →
      (Q (names.foldl Path.join root) ↔ P names))
    (hp : (found t l root extension).find? Q = some p) :
    ∃ names, IsFirst (fun names => Candidate t l root extension names ∧ P names) names ∧
      p = names.foldl Path.join root := by
  obtain ⟨names, hnames, rfl⟩ := (mem_found_iff ht hg hroot).1 (List.mem_of_find?_eq_some hp)
  refine ⟨names, ⟨⟨hnames, (hQ names hnames).1 (List.find?_some hp)⟩, ?_⟩, rfl⟩
  rintro other ⟨hother, hP⟩
  have hle := le_of_find? (pairwise_found t l root extension) hp (other.foldl Path.join root)
    ((mem_found_iff ht hg hroot).2 ⟨other, hother, rfl⟩) ((hQ other hother).2 hP)
  exact ((Path.le_foldl_join_iff (hnames.isName ht) (hother.isName ht) root).1 hle).imp_left
    Eq.symm

/-- Whether names lead to the file that is to be given: the first candidate with the name, or else
    the first of all. -/
def IsChosen (t : FileTree) (l : Location) (root : Path) (name extension : ByteString)
    (names : List ByteString) : Prop :=
  IsFirst (fun names => Candidate t l root extension names ∧ names.getLast? = some name) names ∨
    (¬∃ names, Candidate t l root extension names ∧ names.getLast? = some name) ∧
      IsFirst (Candidate t l root extension) names

theorem IsChosen.candidate (h : IsChosen t l root name extension names) :
    Candidate t l root extension names :=
  h.elim (fun h => h.1.1) fun h => h.2.1

theorem IsChosen.unique (h : IsChosen t l root name extension names)
    (h' : IsChosen t l root name extension other) : names = other := by
  rcases h with h | ⟨hnone, h⟩ <;> rcases h' with h' | ⟨hnone', h'⟩
  · exact h.unique h'
  · exact absurd ⟨names, h.1⟩ hnone'
  · exact absurd ⟨other, h'.1⟩ hnone
  · exact h.unique h'

/-- What is chosen of what is found is the file that is to be given. -/
theorem exists_isChosen_of_choose (ht : t.Proper) (hg : t.Grounded)
    (hroot : t.directory root = .ok l) (h : choose name (found t l root extension) = some p) :
    ∃ names, IsChosen t l root name extension names ∧ p = names.foldl Path.join root := by
  rw [choose] at h
  split at h
  next q hq =>
    obtain rfl := Option.some.inj h
    obtain ⟨names, hfirst, rfl⟩ :=
      exists_isFirst_of_find? ht hg hroot (fun _ hnames => hnames.isNamed_iff ht) hq
    exact ⟨names, .inl hfirst, rfl⟩
  next hnone =>
    have hfind : (found t l root extension).find? (fun _ => true) = some p := by
      cases hfound : found t l root extension with
      | nil => rw [hfound] at h; cases h
      | cons q qs => rw [hfound] at h; exact h
    obtain ⟨names, hfirst, rfl⟩ := exists_isFirst_of_find? ht hg hroot
      (P := fun _ => True) (fun _ _ => iff_of_true rfl trivial) hfind
    refine ⟨names, .inr ⟨?_, by simpa using hfirst⟩, rfl⟩
    rintro ⟨other, hother, hlast⟩
    refine List.find?_eq_none.1 hnone _ ((mem_found_iff ht hg hroot).2 ⟨other, hother, rfl⟩) ?_
    exact (hother.isNamed_iff ht).2 hlast

/-- A look-up in a directory gives the file that is to be given, unless there is none. -/
theorem outcome_of_directory (ht : t.Proper) (hg : t.Grounded) (hroot : t.directory root = .ok l)
    (name extension : String) :
    ((¬∃ names, Candidate t l root (.ofText extension) names) ∧
      outcome t root name extension = .error (.failure (.noSuchFile root extension))) ∨
    ∃ names, IsChosen t l root (.ofText name) (.ofText extension) names ∧
      outcome t root name extension = .ok (names.foldl Path.join root) := by
  rw [outcome, hroot]
  dsimp only
  cases h : choose (.ofText name) (found t l root (.ofText extension)) with
  | none =>
    refine .inl ⟨?_, rfl⟩
    rintro ⟨names, hnames⟩
    have hmem := (mem_found_iff ht hg hroot).2 ⟨names, hnames, rfl⟩
    rw [choose_eq_none_iff.1 h] at hmem
    exact absurd hmem List.not_mem_nil
  | some p =>
    obtain ⟨names, hnames, rfl⟩ := exists_isChosen_of_choose ht hg hroot h
    exact .inr ⟨names, hnames, rfl⟩

theorem outcome_of_noDirectory {fault : Fault} (hroot : t.directory root = .error fault)
    (name extension : String) :
    outcome t root name extension = .error (.failure (.io fault)) := by
  rw [outcome, hroot]

/-- The order in which the entries are listed makes no difference. -/
theorem outcome_of_perm (ht : t.Proper) (hg : t.Grounded) (hhere : t'.here = t.here)
    (hperm : t'.entries.Perm t.entries) (root : Path) (name extension : String) :
    outcome t' root name extension = outcome t root name extension := by
  have ht' := ht.of_perm hhere hperm
  have hlookup := ht.lookup_of_perm hhere hperm
  have hg' : t'.Grounded := by
    obtain ⟨heverywhere, hdir⟩ := hg
    rw [GroundedFrom, ← hlookup] at heverywhere
    exact ⟨heverywhere, by rw [hhere, hlookup]; exact hdir⟩
  have hdirectory := directory_congr hhere hlookup
  cases hroot : t.directory root with
  | error fault =>
    rw [outcome_of_noDirectory hroot, outcome_of_noDirectory (hdirectory ▸ hroot)]
  | ok l =>
    have hcandidate : Candidate t' l root (.ofText extension) =
        Candidate t l root (.ofText extension) := by
      funext names
      refine propext ⟨fun ⟨hfile, hext, hlisted⟩ => ?_, fun ⟨hfile, hext, hlisted⟩ => ?_⟩
      · exact ⟨hlookup ▸ hfile, hext, hdirectory ▸ hlisted⟩
      · exact ⟨hlookup.symm ▸ hfile, hext, hdirectory.symm ▸ hlisted⟩
    have hchosen : ∀ names, IsChosen t' l root (.ofText name) (.ofText extension) names ↔
        IsChosen t l root (.ofText name) (.ofText extension) names := fun names => by
      rw [IsChosen, IsChosen, hcandidate]
    rcases outcome_of_directory ht' hg' (hdirectory ▸ hroot) name extension with
      ⟨hnone', h'⟩ | ⟨names', hnames', h'⟩ <;>
      rcases outcome_of_directory ht hg hroot name extension with
        ⟨hnone, h⟩ | ⟨names, hnames, h⟩
    · rw [h, h']
    · exact absurd ⟨names, hcandidate ▸ hnames.candidate⟩ hnone'
    · exact absurd ⟨names', hcandidate ▸ hnames'.candidate⟩ hnone
    · rw [h, h', ((hchosen names').1 hnames').unique hnames]

/-- Looking up fails for the system only where the root cannot be listed. Else it fails only if
    there is no candidate, and gives the first candidate with the name, if there is one, and the
    first of all if there is none. The order in which what is in the directories is listed makes no
    difference. -/
theorem locate_gives_first (root : Path) (name extension : String) (world : World σ)
    (ht : world.files.Proper) (hg : world.files.Grounded) :
    ((∃ fault, ((locate root name extension).run world).1 = .error (.failure (.io fault))) ↔
      ∀ l, world.files.directory root ≠ .ok l) ∧
    (∀ l, world.files.directory root = .ok l →
      (((locate root name extension).run world).1 =
          .error (.failure (.noSuchFile root extension)) ↔
        ¬∃ names, Candidate world.files l root (.ofText extension) names) ∧
      ((∃ names, Candidate world.files l root (.ofText extension) names ∧
          names.getLast? = some (.ofText name)) →
        ∃ names, IsFirst (fun names => Candidate world.files l root (.ofText extension) names ∧
            names.getLast? = some (.ofText name)) names ∧
          ((locate root name extension).run world).1 = .ok (names.foldl Path.join root)) ∧
      ((∃ names, Candidate world.files l root (.ofText extension) names) →
        (¬∃ names, Candidate world.files l root (.ofText extension) names ∧
          names.getLast? = some (.ofText name)) →
        ∃ names, IsFirst (Candidate world.files l root (.ofText extension)) names ∧
          ((locate root name extension).run world).1 = .ok (names.foldl Path.join root))) ∧
    ∀ world' : World σ, world'.files.here = world.files.here →
      world'.files.entries.Perm world.files.entries →
      ((locate root name extension).run world').1 =
        ((locate root name extension).run world).1 := by
  simp only [fst_run_locate]
  refine ⟨?_, fun l hroot => ?_, fun world' hhere hperm => ?_⟩
  · cases hroot : world.files.directory root with
    | error fault => simp [outcome_of_noDirectory hroot]
    | ok l =>
      refine iff_of_false ?_ fun h => h l rfl
      rintro ⟨fault, hfault⟩
      rcases outcome_of_directory ht hg hroot name extension with ⟨-, h⟩ | ⟨names, -, h⟩ <;>
        rw [h] at hfault <;> cases hfault
  · rcases outcome_of_directory ht hg hroot name extension with ⟨hnone, h⟩ | ⟨names, hnames, h⟩
    · rw [h]
      refine ⟨iff_of_true rfl hnone, ?_, fun hsome => absurd hsome hnone⟩
      rintro ⟨other, hother, -⟩
      exact absurd ⟨other, hother⟩ hnone
    · rw [h]
      refine ⟨iff_of_false (fun h => by cases h) fun hnone => hnone ⟨names, hnames.candidate⟩,
        ?_, ?_⟩
      · intro hnamed
        exact ⟨names, hnames.resolve_right fun h => h.1 hnamed, rfl⟩
      · intro _ hnot
        exact ⟨names, (hnames.resolve_left fun h => hnot ⟨names, h.1⟩).2, rfl⟩
  · exact outcome_of_perm ht hg hhere hperm root name extension

/-! ### A file that is in a directory -/

/-- A file in a directory below, and another one beside that directory. -/
def nested : World Unit where
  files :=
    { entries :=
        [(["sub"], .directory), (["sub", "v.c"], .file [] false), (["other.c"], .file [] false)]
      here := [] }
  events := []
  tools := ()

theorem proper_nested : nested.files.Proper :=
  ⟨by decide, by decide, by decide, by simp [nested]⟩

theorem grounded_nested : nested.files.Grounded :=
  ⟨groundedFrom_of_entries (by decide), rfl⟩

theorem hasExtension_nested : HasExtension "v.c" "c" :=
  ⟨"v", by decide, by decide, by decide⟩

theorem directory_nested : nested.files.directory ⟨"."⟩ = .ok [] := by
  decide +kernel

/-- The directory that the file is in can be listed. -/
theorem listed_nested {front : List ByteString} (hfront : front <+: ["sub", "v.c"])
    (hne : front ≠ ["sub", "v.c"]) :
    ∃ d, nested.files.directory (front.foldl Path.join ⟨"."⟩) = .ok d := by
  have hsub : nested.files.directory ((⟨"."⟩ : Path).join "sub") = .ok ["sub"] := by
    decide +kernel
  rcases List.prefix_concat_iff.1 (show front <+: ["sub"] ++ ["v.c"] from hfront) with h | h
  · exact absurd h hne
  · rcases List.prefix_concat_iff.1 (show front <+: [] ++ ["sub"] from h) with rfl | h
    · exact ⟨["sub"], hsub⟩
    · obtain rfl := List.prefix_nil.1 h
      exact ⟨[], directory_nested⟩

theorem candidate_nested : Candidate nested.files [] ⟨"."⟩ "c" ["sub", "v.c"] :=
  ⟨⟨[], false, rfl⟩, ⟨"v.c", rfl, hasExtension_nested⟩, fun _ => listed_nested⟩

/-- From the directory where everything is, the file is given by its name. -/
theorem locate_gives_first_nested :
    nested.files.Proper ∧ nested.files.Grounded ∧ nested.files.directory ⟨"."⟩ = .ok [] ∧
    Candidate nested.files [] ⟨"."⟩ "c" ["sub", "v.c"] ∧
    ∃ names, IsFirst (fun names => Candidate nested.files [] ⟨"."⟩ "c" names ∧
        names.getLast? = some "v.c") names ∧
      ((locate ⟨"."⟩ "v.c" "c").run nested).1 = .ok (names.foldl Path.join ⟨"."⟩) := by
  have hgives := locate_gives_first ⟨"."⟩ "v.c" "c" nested proper_nested grounded_nested
  exact ⟨proper_nested, grounded_nested, directory_nested, candidate_nested,
    (hgives.2.1 [] directory_nested).2.1 ⟨_, candidate_nested, rfl⟩⟩

/-! ### A path that leaves no room for a name -/

/-- The path of the working directory with slashes behind it, which lead nowhere else. -/
def dotSlashes (k : Nat) : Path :=
  ⟨"." ++ String.ofList (List.replicate k '/')⟩

theorem size_dotSlashes (k : Nat) : (dotSlashes k).text.length = k + 1 := by
  have hdot : ("." : String).length = 1 := by decide
  have hslash : ("/" : String).length = 1 := by decide
  have hslashes : (String.ofList (List.replicate k '/')).length = k := by
    induction k with
    | zero => rfl
    | succ k ih =>
      have hcons : String.ofList (List.replicate (k + 1) '/') =
          String.ofList (List.replicate k '/') ++ "/" := by
        apply String.toList_injective
        simp [String.toList_append, List.replicate_succ']
      rw [hcons, String.length_append, ih, hslash]
  rw [dotSlashes, String.length_append, hslashes, hdot, Nat.add_comm]

theorem directory_dotSlashes {k : Nat} (hk : k + 1 < pathBytes) :
    t.directory (dotSlashes k) = .ok t.here := by
  refine (Workspace.directory_root_iff (w := ⟨dotSlashes k, "", ""⟩)).2 ⟨⟨?_, ?_, ?_⟩, ?_⟩
  · have hzero : Char.ofNat 0 ∉ List.replicate k '/' := fun h =>
      absurd (List.eq_of_mem_replicate h) (by decide)
    simp [dotSlashes, String.toList_append, hzero]
  · simp [dotSlashes]
  · rwa [size_dotSlashes]
  · rw [Workspace.RootAt, dotSlashes, namesOf_append_slashes, origin_append _ _ (by decide)]
    exact .pass .stay .here

/-- A joined name adds at least its own bytes. -/
theorem size_join_le (p : Path) (hname : '/' ∉ name.toList) :
    p.text.length + name.length ≤ (p.join name).text.length := by
  have hrel : ¬(name.toList.head? == some '/') = true := fun h =>
    hname (List.mem_of_mem_head? (beq_iff_eq.1 h))
  rw [Path.join, if_neg hrel]
  split
  · rw [String.length_append]
  · rw [String.length_append, String.length_append]
    omega

/-- Behind a path that is so long, no directory is listed. -/
theorem not_listed_dotSlashes {k : Nat} (hname : '/' ∉ name.toList)
    (hk : pathBytes ≤ k + 1 + name.length) (d : Location) :
    t.directory ((dotSlashes k).join name) ≠ .ok d := by
  intro hd
  obtain ⟨⟨-, -, hsize⟩, -⟩ :=
    (Workspace.directory_root_iff (w := ⟨(dotSlashes k).join name, "", ""⟩)).1 hd
  have hjoin := size_join_le (dotSlashes k) hname
  rw [size_dotSlashes] at hjoin
  exact absurd (hk.trans hjoin) (Nat.not_le.2 hsize)

/-- By such a path, only the file beside the directory is a candidate. -/
theorem candidate_dotSlashes_iff {k : Nat} (hk : k + 1 < pathBytes) (hlong : pathBytes ≤ k + 4) :
    Candidate nested.files [] (dotSlashes k) "c" names ↔ names = ["other.c"] := by
  have hroot : nested.files.directory (dotSlashes k) = .ok [] := directory_dotSlashes hk
  have hsub : ∀ d, nested.files.directory ((dotSlashes k).join "sub") ≠ .ok d :=
    not_listed_dotSlashes (by decide) hlong
  constructor
  · intro h
    obtain ⟨content, executable, hfile⟩ := h.file
    have hmem := mem_of_lookup h.ne_nil hfile
    simp only [nested, List.mem_cons, Prod.mk.injEq, reduceCtorEq, and_false, List.not_mem_nil,
      or_false, false_or] at hmem
    rcases hmem with ⟨rfl, -⟩ | ⟨rfl, -⟩
    · obtain ⟨d, hd⟩ := h.listed ["sub"] (by simp) (by simp)
      exact absurd hd (hsub d)
    · rfl
  · rintro rfl
    refine ⟨⟨[], false, rfl⟩, ⟨"other.c", rfl, "other", by decide, by decide, by decide⟩,
      fun front hfront hne => ?_⟩
    rcases List.prefix_concat_iff.1 (show front <+: [] ++ ["other.c"] from hfront) with h | h
    · exact absurd h hne
    · obtain rfl := List.prefix_nil.1 h
      exact ⟨[], hroot⟩

theorem outcome_dotSlashes {k : Nat} (hk : k + 1 < pathBytes) (hlong : pathBytes ≤ k + 4) :
    outcome nested.files (dotSlashes k) "v.c" "c" = .ok ((dotSlashes k).join "other.c") := by
  rcases outcome_of_directory proper_nested grounded_nested (directory_dotSlashes hk) "v.c" "c" with
    ⟨hnone, -⟩ | ⟨names, hnames, h⟩
  · exact absurd ⟨_, (candidate_dotSlashes_iff hk hlong).2 rfl⟩ hnone
  · rw [h, (candidate_dotSlashes_iff hk hlong).1 hnames.candidate]
    rfl

/-- A file with the name that is looked for is passed over, if the directory that it is in cannot be
    listed by its path. -/
theorem locate_passes_over :
    nested.files.Proper ∧ nested.files.Grounded ∧
    nested.files.directory (dotSlashes 4094) = .ok [] ∧
    nested.files.lookup ["sub", "v.c"] = some (.file [] false) ∧ HasExtension "v.c" "c" ∧
    ((locate (dotSlashes 4094) "v.c" "c").run nested).1 =
      .ok ((dotSlashes 4094).join "other.c") := by
  have hroot : nested.files.directory (dotSlashes 4094) = .ok [] :=
    directory_dotSlashes (by decide)
  refine ⟨proper_nested, grounded_nested, hroot, rfl, hasExtension_nested, ?_⟩
  rw [fst_run_locate, outcome_dotSlashes (by decide) (by decide)]

end TestBench.Lookup
