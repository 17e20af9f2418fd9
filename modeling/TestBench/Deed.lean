import TestBench.FileTree.Request

/-!
# Deeds

A request to change the files is a *deed*: it makes a directory with all those on the way to it,
makes or writes a file, or removes a file or a whole directory. That a deed was asked for is noted
with the files that it found, whether it was done or refused.

* `perform`: whether a deed goes through, and the files that it leaves.
-/

namespace TestBench

/-- A request to change the files. -/
inductive Deed where
  | makeDirectories (p : Path)
  | createFile (p : Path)
  | writeFile (p : Path) (content : List UInt8)
  | removeFile (p : Path)
  | removeTree (p : Path)
deriving Repr, DecidableEq

namespace Deed

/-- The path of what is to be changed. -/
def path : Deed → Path
  | makeDirectories p | createFile p | writeFile p _ | removeFile p | removeTree p => p

/-- What is left of a tree by a change that is done as a whole, or not at all. -/
def settle (t : FileTree) : Except Fault FileTree → Except Fault Unit × FileTree
  | .ok t' => (.ok (), t')
  | .error fault => (.error fault, t)

theorem settle_keeps {P : FileTree → Prop} {t : FileTree} {r : Except Fault FileTree} (ht : P t)
    (h : ∀ t', r = .ok t' → P t') : P (settle t r).2 := by
  cases r with
  | ok t' => exact h t' rfl
  | error fault => exact ht

/-- Whether a deed goes through, and the tree that it leaves. -/
def perform (t : FileTree) : Deed → Except Fault Unit × FileTree
  | makeDirectories p => t.makeDirectories p
  | createFile p => settle t (t.createFile p)
  | writeFile p content => settle t (t.writeFile p content)
  | removeFile p => settle t (t.removeFile p)
  | removeTree p => t.removeTree p

end Deed

/-- A deed that was asked for, and the files that it found. -/
structure Request where
  files : FileTree
  deed : Deed

end TestBench
