import TestBench.Proofs.Workspace.Cleaning
import TestBench.Proofs.Workspace.Lock

/-!
# A workspace that is locked

A workspace is *held* if the lock file is where the root is, and the root stands; it is *open* if
there is no lock file, whatever directories are made on the way to the root. From an open workspace
one step leads to one that is held, the making of the lock file, and the lock file is taken away
again by one step only, the unlocking. Cleaning, making the root and writing files in it do not
matter.

* `run_lock_of_open`, `run_lock_of_held`: only an open workspace is locked;
* `Held.of_cleans`: cleaning never removes the lock file;
* `run_unlock_of_held`: a workspace that is unlocked is open.
-/

namespace TestBench.Workspace

open FileTree

variable {σ : Type} {w : Workspace} {t t' : FileTree} {R : Location} {world : World σ}

/-- Whether the lock file is in its place, and its place does not depend on the clone. -/
structure Held (w : Workspace) (t : FileTree) : Prop where
  proper : t.Proper
  text : IsPathText w.lockFile.text
  file : ∃ R content executable, w.Stands t R ∧
    t.lookup (R ++ [lockName]) = some (.file content executable)

/-- Whether there is no lock file, and wherever the root comes to be as directories are made, it
    does not depend on the clone, and there is none. -/
structure Open (w : Workspace) (t : FileTree) : Prop where
  proper : t.Proper
  free : ∀ t', Grows t t' → ∀ R, w.RootAt t' R → w.Stands t' R ∧
    ∀ content executable, t'.lookup (R ++ [lockName]) ≠ some (.file content executable)

/-- Where a workspace is held, its lock file is found. -/
theorem Held.find (h : w.Held t) :
    ∃ l content executable, t.find w.lockFile false = .ok (l, .file content executable) := by
  obtain ⟨R, content, executable, hstands, hfile⟩ := h.file
  have hfind := find_join_of_rootAt isName_lockName (by decide) h.text hstands.rootAt
  rw [hfile] at hfind
  exact ⟨_, content, executable, hfind⟩

/-- Where a workspace is open, no lock file is found. -/
theorem Open.find (h : w.Open t) (l : Location) (content : List UInt8) (executable : Bool) :
    t.find w.lockFile false ≠ .ok (l, .file content executable) := by
  intro hfind
  obtain ⟨R, hroot, -, hfile⟩ := find_join isName_lockName hfind
  exact (h.free t (.refl t) R hroot).2 content executable hfile

/-! ### What keeps a workspace as it is -/

theorem Held.of_hasWays (h : w.Held t) (hproper : t'.Proper) (hways : HasWays t' t)
    (hfile : ∀ R content executable, t.lookup (R ++ [lockName]) = some (.file content executable) →
      ∃ content executable, t'.lookup (R ++ [lockName]) = some (.file content executable)) :
    w.Held t' := by
  obtain ⟨R, content, executable, hstands, hlock⟩ := h.file
  obtain ⟨content', executable', hlock'⟩ := hfile R content executable hlock
  exact ⟨hproper, h.text, R, content', executable', hstands.of_hasWays hways, hlock'⟩

theorem isArtifact_lockFile (w : Workspace) : isArtifact w.lockFile = false := by
  simp only [isArtifact, Path.extension?, lockFile, Path.fileName?_join _ isName_lockName]
  decide

/-- Cleaning never removes the lock file, not even if the clone has its name. -/
theorem Held.of_cleans (h : w.Held t) (hproper : t'.Proper) (hc : w.Cleans t t') : w.Held t' := by
  obtain ⟨R, content, executable, hstands, hlock⟩ := h.file
  have hfind := find_join_of_rootAt isName_lockName (by decide) h.text hstands.rootAt
  rw [hlock] at hfind
  have hkept := (hc.lookup (R ++ [lockName])).resolve_right
    (not_removable_of_file isName_lockName hfind w.isArtifact_lockFile)
  exact ⟨hproper, h.text, R, content, executable, hstands.of_cleans hc, hkept.trans hlock⟩

theorem Held.makeDirectories (h : w.Held t) (p : Path) : w.Held (t.makeDirectories p).2 := by
  have hgrows := Grows.makeDirectories t p
  exact h.of_hasWays (h.proper.makeDirectories p) (.of_part hgrows.part)
    fun R content executable hl => ⟨content, executable, hgrows.part.lookup _ _ hl⟩

theorem Held.writeFile (h : w.Held t) {p : Path} {content : List UInt8}
    (hw : t.writeFile p content = .ok t') : w.Held t' := by
  have hproper := h.proper.writeFile hw
  obtain ⟨target, executable, -, rfl, hold⟩ := exists_of_writeFile hw
  have hplace := ne_nil_of_plain hold
  refine h.of_hasWays hproper (.insert _ hplace hold) fun R content' executable' hl => ?_
  rw [lookup_insert _ _ _ hplace]
  split
  · exact ⟨content, executable, rfl⟩
  · exact ⟨content', executable', hl⟩

theorem Open.grows (h : w.Open t) (hproper : t'.Proper) (hg : Grows t t') : w.Open t' :=
  ⟨hproper, fun t'' hg' => h.free t'' (hg.trans hg')⟩

/-- Where the root stands and the place of the lock file is free, the workspace is open. -/
theorem open_of_free (hproper : t.Proper) (hstands : w.Stands t R)
    (hfree : t.lookup (R ++ [lockName]) = none) : w.Open t := by
  refine ⟨hproper, fun t' hg R' hroot' => ?_⟩
  obtain rfl := (hstands.rootAt.of_part hg.part).unique hroot'
  refine ⟨hstands.of_hasWays (.of_part hg.part), fun content executable hfile => ?_⟩
  rcases hg.lookup _ _ hfile with hfile | hdir
  · rw [hfree] at hfile
    cases hfile
  · cases hdir

/-- In the directory where paths start, a new entry under another name changes nothing. -/
theorem Held.insert (hw : w.root = ⟨"."⟩) (h : w.Held t) {l : Location} {e : Entry}
    (hproper : (t.insert l e).Proper) (hl : lockName ∉ l) (hne : l ≠ []) :
    w.Held (t.insert l e) := by
  obtain ⟨R, content, executable, hstands, hlock⟩ := h.file
  obtain rfl := hstands.rootAt.unique (stands_here hw t).rootAt
  refine ⟨hproper, h.text, t.here, content, executable, stands_here hw (t.insert l e), ?_⟩
  rw [lookup_insert _ _ _ hne, if_neg, hlock]
  rintro rfl
  exact hl List.mem_concat_self

/-! ### Locking and unlocking -/

/-- Where a workspace is held, it is not locked again, and nothing changes. -/
theorem run_lock_of_held (h : w.Held world.files) :
    (w.lock : Action σ Unit).run world = (.error (.failure (.locked w.lockFile)),
      { world with requests := world.requests ++ w.lockRequests world.files world.files }) := by
  obtain ⟨l, content, executable, hfind⟩ := h.find
  exact run_lock_of_find hfind

/-- The lock file that is made where the root stands makes the workspace held. -/
theorem held_of_vacant (ht : t.Proper) (hstands : w.Stands t R)
    (h : t.resolve w.lockFile false = .ok (.vacant R lockName)) :
    w.Held (t.insert (R ++ [lockName]) (.file [] false)) := by
  refine ⟨ht.createFile (createFile_of_vacant h), (resolve_eq_ok_iff.1 h).1, R, [], false,
    hstands.of_hasWays (hasWays_insert_lockFile h _), ?_⟩
  rw [lookup_insert _ _ _ (by simp), if_pos rfl]

/-- Where a workspace is open, locking makes it held or fails. -/
theorem run_lock_of_open (h : w.Open world.files) :
    (((w.lock : Action σ Unit).run world).1 = .ok () ∧
        w.Held ((w.lock : Action σ Unit).run world).2.files) ∨
      ∃ halt, ((w.lock : Action σ Unit).run world).1 = .error halt ∧
        w.Open ((w.lock : Action σ Unit).run world).2.files := by
  have hgrows := Grows.makeDirectories world.files w.root
  have hproper := h.proper.makeDirectories w.root
  have hopen : w.Open _ := h.grows hproper hgrows
  cases hr : world.files.makeDirectories w.root with
  | mk r t =>
    rw [hr] at hgrows hproper hopen
    cases r with
    | error fault =>
      rw [run_lock_of_noRoot hr]
      exact .inr ⟨_, rfl, hopen⟩
    | ok _ =>
      rw [run_lock_of_root hr]
      cases hl : t.createFile w.lockFile with
      | error fault => exact .inr ⟨_, rfl, hopen⟩
      | ok t' =>
        obtain ⟨R, name, hresolve, rfl⟩ := exists_of_createFile hl
        obtain ⟨hroot, rfl, -⟩ := vacant_join isName_lockName hresolve
        exact .inl ⟨rfl, held_of_vacant hproper (hopen.free t (.refl t) R hroot).1 hresolve⟩

/-- Where a workspace is held, unlocking makes it open. -/
theorem run_unlock_of_held (h : w.Held world.files) :
    w.Open ((w.unlock : Action σ Unit).run world).2.files := by
  obtain ⟨events, hrun⟩ := run_unlock_eq w world
  rw [hrun]
  obtain ⟨R, content, executable, hstands, hlock⟩ := h.file
  have hfind := find_join_of_rootAt isName_lockName (by decide) h.text hstands.rootAt
  rw [hlock] at hfind
  have hremove : world.files.removeFile w.lockFile = .ok (world.files.erase (R ++ [lockName])) := by
    rw [removeFile, lockFile, hfind]
  have hways : HasWays (world.files.erase (R ++ [lockName])) world.files :=
    .erase (by simp) hlock
  have hfree : (world.files.erase (R ++ [lockName])).lookup (R ++ [lockName]) = none := by
    rw [lookup_erase _ _ (by simp), if_pos rfl]
  rw [hremove]
  exact open_of_free (h.proper.removeFile hremove) (hstands.of_hasWays hways) hfree

end TestBench.Workspace
