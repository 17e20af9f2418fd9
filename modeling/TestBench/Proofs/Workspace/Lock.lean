import TestBench.Proofs.Tool.Quiet
import TestBench.Proofs.Workspace.Root
import TestBench.Workspace.Lock

/-!
# Taking the lock and giving it back

The way to the lock file is the way to the root of its workspace, and then its name. So where
the lock file is there, or its name is free, the root is a directory, and making it changes
nothing (`makeDirectories_root`).

* `run_lock_of_find`: where the lock file is there, locking fails and changes nothing;
* `run_whileLocked`: what is done under the lock is done with the lock file in place, and
  afterwards the place of the lock file is free if the file was left alone.
-/

namespace TestBench.Workspace

open FileTree

variable {σ α : Type} {w : Workspace} {world : World σ} {t t' : FileTree} {target : Target}
  {l : Location} {e : Entry}

/-! ### The way to the lock file -/

theorem isName_lockName : Path.IsName lockName := by
  decide

/-- Where the names of the root lead to a directory, and a place in it has the text of a path, the
    root is not made. -/
theorem makeDirectories_of_rootAt {R : Location} {name : ByteString} (hn : '/' ∉ name.toList)
    (htext : IsPathText (w.root.join name).text) (h : w.RootAt t R) :
    t.makeDirectories w.root = (.ok (), t) := by
  by_cases hempty : w.root.text = ""
  · rw [show w.root = ⟨""⟩ from congrArg Path.mk hempty]
    exact makeDirectories_empty t
  · exact makeDirectories_of_leads ((join_starts_as_root w hn t.here).2 hempty htext) h

/-- Where the lock file is there or may be made, the root is a directory, so that making it
    changes nothing. -/
theorem makeDirectories_root (h : t.resolve w.lockFile false = .ok target) :
    t.makeDirectories w.root = (.ok (), t) := by
  obtain ⟨⟨htext, -⟩, R, hroot, -⟩ := (resolve_join_iff isName_lockName).1 h
  exact makeDirectories_of_rootAt isName_lockName.1 htext hroot

/-- A lock file that is made leaves all ways. -/
theorem hasWays_insert_lockFile {R : Location}
    (h : t.resolve w.lockFile false = .ok (.vacant R lockName)) (e : Entry) :
    HasWays (t.insert (R ++ [lockName]) e) t := by
  obtain ⟨-, -, hfree⟩ := vacant_join isName_lockName h
  exact .insert e (by simp) fun e' he' => absurd (hfree.symm.trans he') (by simp)

/-! ### Locking -/

/-- Where the lock file is there, locking fails and changes nothing. -/
theorem run_lock_of_find (h : world.files.find w.lockFile false = .ok (l, e)) :
    (w.lock : Action σ Unit).run world = (.error (.failure (.locked w.lockFile)),
      { world with requests := world.requests ++ w.lockRequests world.files world.files }) :=
  run_lock_of_present (makeDirectories_root (find_eq_ok_iff.1 h)) (createFile_of_find h)

/-- Where the root cannot be made, locking fails with what was made. -/
theorem run_lock_of_noRoot {fault : Fault}
    (h : world.files.makeDirectories w.root = (.error fault, t)) :
    (w.lock : Action σ Unit).run world = (.error (.failure (.io fault)),
      { world with
        files := t
        requests := world.requests ++ [⟨world.files, .makeDirectories w.root⟩] }) := by
  have hroot : (Action.request (.makeDirectories w.root) : Action σ Unit).run world = _ :=
    Action.run_request_error h
  rw [lock, Action.run_bind, hroot]

/-- Where the root was made, locking goes on to make the lock file. -/
theorem run_lock_of_root (hr : world.files.makeDirectories w.root = (.ok (), t)) :
    (w.lock : Action σ Unit).run world =
      match t.createFile w.lockFile with
      | .ok t' => (.ok (), ⟨t', world.events ++
          [⟨.debug, .workspace, s!"Acquired workspace lock {w.lockFile.display}"⟩], world.tools,
          world.requests ++ w.lockRequests world.files t⟩)
      | .error fault => (.error (.failure
            (if fault = .system .present then .locked w.lockFile else .io fault)),
          { world with
            files := t
            requests := world.requests ++ w.lockRequests world.files t }) := by
  have hroot : (Action.request (.makeDirectories w.root) : Action σ Unit).run world = _ :=
    Action.run_request_ok hr
  rw [lock, Action.run_bind, hroot]
  dsimp only
  rw [Action.run_bind, Action.run_tryRequest, World.after, Deed.perform, List.append_assoc]
  dsimp only
  cases t.createFile w.lockFile with
  | ok t' => rfl
  | error fault =>
    by_cases hf : fault = .system .present
    · simp only [Deed.settle, if_pos hf]
      rfl
    · simp only [Deed.settle, if_neg hf]
      rfl

/-- Where the root was made but the lock file cannot be, locking fails with what was made. -/
theorem run_lock_of_noFile {fault : Fault} (hr : world.files.makeDirectories w.root = (.ok (), t))
    (hl : t.createFile w.lockFile = .error fault) :
    (w.lock : Action σ Unit).run world =
      (.error (.failure
          (if fault = .system .present then .locked w.lockFile else .io fault)),
        { world with
          files := t
          requests := world.requests ++ w.lockRequests world.files t }) := by
  rw [run_lock_of_root hr, hl]

/-- Where the lock file is made, locking succeeds. -/
theorem run_lock_of_created (hr : world.files.makeDirectories w.root = (.ok (), t))
    (hl : t.createFile w.lockFile = .ok t') :
    ∃ events, (w.lock : Action σ Unit).run world =
      (.ok (), { world with
        files := t'
        events := events
        requests := world.requests ++ w.lockRequests world.files t }) := by
  rw [run_lock_of_root hr, hl]
  exact ⟨_, rfl⟩

/-- Locking that succeeds has made the root, and then the lock file in it. -/
theorem exists_of_run_lock (h : ((w.lock : Action σ Unit).run world).1 = .ok ()) :
    ∃ t R, world.files.makeDirectories w.root = (.ok (), t) ∧
      t.resolve w.lockFile false = .ok (.vacant R lockName) ∧
      ((w.lock : Action σ Unit).run world).2.files =
        t.insert (R ++ [lockName]) (.file [] false) := by
  cases hr : world.files.makeDirectories w.root with
  | mk r t =>
    cases r with
    | error fault =>
      rw [run_lock_of_noRoot hr] at h
      cases h
    | ok _ =>
      rw [run_lock_of_root hr] at h ⊢
      cases hl : t.createFile w.lockFile with
      | error fault =>
        rw [hl] at h
        cases h
      | ok t' =>
        obtain ⟨R, name, hresolve, rfl⟩ := exists_of_createFile hl
        obtain ⟨-, rfl, -⟩ := vacant_join isName_lockName hresolve
        exact ⟨t, R, rfl, hresolve, rfl⟩

/-- Unlocking does not fail, and takes the lock file away if it can. -/
theorem run_unlock_eq (w : Workspace) (world : World σ) :
    ∃ events, (w.unlock : Action σ Unit).run world =
      (.ok (), ⟨(world.files.removeFile w.lockFile).toOption.getD world.files, events,
        world.tools, world.requests ++ [⟨world.files, .removeFile w.lockFile⟩]⟩) := by
  rw [unlock, Action.run_bind, Action.run_tryRequest, World.after, Deed.perform]
  cases world.files.removeFile w.lockFile with
  | ok t => exact ⟨_, rfl⟩
  | error fault => exact ⟨_, rfl⟩

/-- The lock file that is there is removed. -/
theorem run_unlock {content : List UInt8} {executable : Bool}
    (h : world.files.find w.lockFile false = .ok (l, .file content executable)) :
    ∃ t requests d name, (w.unlock : Action σ Unit).run world =
        (.ok (), { world with files := t, requests }) ∧
      t.resolve w.lockFile false = .ok (.vacant d name) := by
  obtain ⟨t, d, name, hremove, hfree⟩ := removeFile_of_find h
  refine ⟨t, world.requests ++ [⟨world.files, .removeFile w.lockFile⟩], d, name, ?_, hfree⟩
  simp [unlock, Action.run_bind, World.after, Deed.perform, Deed.settle, hremove]

/-- Where the root is, unlocking leaves no file in the place of the lock file. -/
theorem lookup_unlocked {R : Location} (htext : IsPathText w.lockFile.text) (hroot : w.RootAt t R) :
    ∀ e, ((t.removeFile w.lockFile).toOption.getD t).lookup (R ++ [lockName]) = some e →
      e = .directory := by
  have hfind := find_join_of_rootAt isName_lockName (by decide) htext hroot
  cases hl : t.lookup (R ++ [lockName]) with
  | none =>
    rw [hl] at hfind
    have hremove : t.removeFile w.lockFile = .error (.system .notFound) := by
      rw [removeFile, lockFile, hfind]
    rw [hremove]
    exact fun e he => absurd (hl.symm.trans he) (by simp)
  | some e =>
    rw [hl] at hfind
    by_cases hdir : e = .directory
    · have hremove : t.removeFile w.lockFile = .error (.system .isDirectory) := by
        rw [removeFile, lockFile, hfind, hdir]
      rw [hremove]
      exact fun e' he => (Option.some.inj (he.symm.trans hl)).trans hdir
    · have hremove : t.removeFile w.lockFile = .ok (t.erase (R ++ [lockName])) := by
        rw [removeFile, lockFile, hfind]
        cases e <;> first | rfl | exact absurd rfl hdir
      rw [hremove]
      intro e' he
      have hgone := lookup_erase t (R ++ [lockName]) (l := R ++ [lockName]) (by simp)
      rw [if_pos rfl] at hgone
      exact absurd (hgone.symm.trans he) (by simp)

theorem quiet_lock (w : Workspace) : Quiet Halt.IsOwn (w.lock : Action σ Unit) := by
  refine .bind (.request fun _ => trivial) fun _ => .bind (.tryRequest _) fun done => ?_
  split
  · exact .report
  · split
    · exact .fail trivial
    · exact .fail trivial

theorem quiet_unlock {Q : Halt → Prop} (w : Workspace) :
    Quiet Q (w.unlock : Action σ Unit) := by
  intro world
  obtain ⟨events, hrun⟩ := run_unlock_eq w world
  rw [hrun]
  exact ⟨rfl, fun _ h => by cases h⟩

/-- Locking keeps what making the root and making the lock file keep. -/
theorem keeps_lock {P : FileTree → Prop} (hroot : ∀ t, P t → P (t.makeDirectories w.root).2)
    (hcreate : ∀ t t', P t → t.createFile w.lockFile = .ok t' → P t') :
    Keeps P (w.lock : Action σ Unit) := by
  refine .bind (.request hroot) fun _ => .bind (.tryRequest fun t ht =>
    Deed.settle_keeps ht fun t' => hcreate t t' ht) fun done => ?_
  split
  · exact OnlyReads.report.keeps
  · split
    · exact (OnlyReads.fail _).keeps
    · exact (OnlyReads.fail _).keeps

/-- Unlocking keeps what removing the lock file keeps. -/
theorem keeps_unlock {P : FileTree → Prop}
    (hremove : ∀ t t', P t → t.removeFile w.lockFile = .ok t' → P t') :
    Keeps P (w.unlock : Action σ Unit) := by
  intro world hw
  obtain ⟨events, hrun⟩ := run_unlock_eq w world
  rw [hrun]
  cases h : world.files.removeFile w.lockFile with
  | ok t => exact hremove _ _ hw h
  | error fault => exact hw

/-- What is done under the lock is done with the lock file in place; if the file is left alone,
    its name is free afterwards. -/
theorem run_whileLocked {body : Action σ α}
    (hr : world.files.makeDirectories w.root = (.ok (), t))
    (hl : t.createFile w.lockFile = .ok t')
    (hbody : ∀ found world', world'.files.find w.lockFile false = .ok found →
      (body.run world').2.files.find w.lockFile false = .ok found) :
    ∃ events t'' requests d name,
      let done := body.run { world with
        files := t'
        events := events
        requests := world.requests ++ w.lockRequests world.files t }
      (w.whileLocked body).run world = (done.1, { done.2 with files := t'', requests }) ∧
        t''.resolve w.lockFile false = .ok (.vacant d name) := by
  obtain ⟨events, hlock⟩ := @run_lock_of_created σ _ _ _ _ hr hl
  obtain ⟨l, hfound⟩ := find_of_createFile hl
  have hkept := hbody _ { world with
    files := t'
    events := events
    requests := world.requests ++ w.lockRequests world.files t } hfound
  obtain ⟨t'', requests, d, name, hunlock, hfree⟩ := @run_unlock σ _ _ _ _ _ hkept
  refine ⟨events, t'', requests, d, name, ?_, hfree⟩
  rw [whileLocked, Action.run_bind, hlock]
  dsimp only
  rw [Action.run_bind, Action.attempt, Action.run_ofFunction]
  dsimp only
  rw [Action.run_bind, hunlock]
  rfl

end TestBench.Workspace
