import TestBench.Workspace.Basic
import TestBench.World

/-!
# The lock of a workspace

While a run works in a workspace, a file in it keeps others out. Only one run can make the file,
and the run that made it removes it when it ends, however it ends.

* `run_lock_of_present`: where the file is there, the workspace is not locked again.
-/

namespace TestBench.Workspace

variable {σ α : Type}

/-- Locks a workspace, after making its root. -/
def lock (w : Workspace) : Action σ Unit := do
  Action.request (.makeDirectories w.root)
  match ← Action.tryRequest (.createFile w.lockFile) with
  | .ok _ =>
    Action.report .debug .workspace s!"Acquired workspace lock {w.lockFile.display}"
  | .error fault =>
    if fault = .system .present then Action.fail (.locked w.lockFile)
    else Action.fail (.io fault)

/-- Unlocks a workspace. That the file cannot be removed is only reported. -/
def unlock (w : Workspace) : Action σ Unit := do
  match ← Action.tryRequest (.removeFile w.lockFile) with
  | .ok _ => pure ()
  | .error fault =>
    Action.report .warn .workspace
      s!"Failed to release lock {w.lockFile.display}: {fault.message}"

/-- Does something while a workspace is locked. -/
def whileLocked (w : Workspace) (body : Action σ α) : Action σ α := do
  w.lock
  let result ← Action.attempt body
  w.unlock
  Action.ofResult result

/-- What locking asks for, given the files before the root is made and afterwards. -/
def lockRequests (w : Workspace) (t made : FileTree) : List Request :=
  [⟨t, .makeDirectories w.root⟩, ⟨made, .createFile w.lockFile⟩]

/-- Where the file is there, the workspace is not locked again, and nothing is changed. -/
theorem run_lock_of_present {w : Workspace} {world : World σ}
    (hr : world.files.makeDirectories w.root = (.ok (), world.files))
    (hl : world.files.createFile w.lockFile = .error (.system .present)) :
    (w.lock : Action σ Unit).run world = (.error (.failure (.locked w.lockFile)),
      { world with requests := world.requests ++ w.lockRequests world.files world.files }) := by
  have hroot : (Action.request (.makeDirectories w.root) : Action σ Unit).run world = _ :=
    Action.run_request_ok hr
  simp [lock, lockRequests, Action.run_bind, hroot, World.after, Deed.perform, Deed.settle,
    Action.fail, hl]

end TestBench.Workspace
