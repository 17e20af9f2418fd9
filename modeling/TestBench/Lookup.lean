import TestBench.World

/-!
# Looking up source files

A source file is looked up by its name among all files below a directory that have its
extension. Of several with that name, the first in the order of paths is taken; if there is none,
the first of all. Links below the directory are not followed, and a directory whose path gets too
long for the system is passed over, with all that is in it.

* `choose_eq_none_iff`: nothing is chosen only where nothing was found;
* `fileName?_choose_of_mem`: a file with the name that is looked for is preferred.
-/

namespace TestBench.Lookup

/-- The path of a file, if it has an extension. -/
def pathWith? (root : Path) (extension : ByteString) (names : List ByteString) (e : Entry) :
    Option Path :=
  match e with
  | .file _ _ =>
    let p := names.foldl Path.join root
    if p.extension? = some extension then some p else none
  | _ => none

/-- Whether the system takes a path, so that the directory with this path can be listed. -/
def isListed (p : Path) : Bool :=
  p.text.length < FileTree.pathBytes

/-- Whether all directories can be listed that stand between a path and the last of some names. -/
def isReached (p : Path) : List ByteString → Bool
  | [] | [_] => true
  | name :: next :: rest => isListed (p.join name) && isReached (p.join name) (next :: rest)

/-- The files with an extension below a location that a path leads to, in the order of paths. -/
def found (t : FileTree) (l : Location) (root : Path) (extension : ByteString) : List Path :=
  ((t.descendants l).filterMap fun (names, e) =>
    if isReached root names then pathWith? root extension names e else none).mergeSort Path.le

/-- The report of a directory below a path that cannot be listed. -/
def passedOver (root p : Path) : Event :=
  { level := .warn
    reporter := .lookup
    message := s!"Skipping unreadable entry under {root.display}: " ++
      s!"IO error for operation on {p.display}: {(Fault.system .nameTooLong).message}" }

/-- The reports of the directories below a location that cannot be listed. -/
def skipped (t : FileTree) (l : Location) (root : Path) : List Event :=
  (t.descendants l).filterMap fun (names, e) =>
    let p := names.foldl Path.join root
    if e = .directory && isReached root names && !isListed p then some (passedOver root p) else none

/-- Whether a path ends in a name. -/
def isNamed (name : ByteString) (p : Path) : Bool :=
  p.fileName? == some name

/-- The first path with a name, or else the first path. -/
def choose (name : ByteString) (ps : List Path) : Option Path :=
  match ps.find? (isNamed name) with
  | some p => some p
  | none => ps.head?

/-- The path of the file that is looked for, or of one that takes its place. -/
def locate {σ : Type} (root : Path) (name extension : String) : Action σ Path := do
  let l ← Action.ask (·.directory root)
  let t ← Action.files
  let ps := found t l root (.ofText extension)
  Action.reportAll (skipped t l root)
  Action.report .debug .lookup s!"Found {ps.length} '.{extension}' files under {root.display}"
  match choose (.ofText name) ps with
  | none => Action.fail (.noSuchFile root extension)
  | some p =>
    if !isNamed (.ofText name) p then
      Action.report .warn .lookup s!"{name} not found, using {p.display} instead"
    return p

/-- Nothing is chosen only where nothing was found. -/
theorem choose_eq_none_iff {name : ByteString} {ps : List Path} :
    choose name ps = none ↔ ps = [] := by
  unfold choose
  split
  · next p h => simp [List.ne_nil_of_mem (List.mem_of_find?_eq_some h)]
  · exact List.head?_eq_none_iff

/-- A file with the name that is looked for is preferred. -/
theorem fileName?_choose_of_mem {name : ByteString} {ps : List Path} {p q : Path} (hp : p ∈ ps)
    (hn : isNamed name p) (hq : choose name ps = some q) : isNamed name q := by
  unfold choose at hq
  split at hq
  · next r h =>
    obtain rfl := Option.some.inj hq
    exact List.find?_some h
  · next h => exact absurd hn (List.find?_eq_none.1 h p hp)

end TestBench.Lookup
