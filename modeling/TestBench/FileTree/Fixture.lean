import TestBench.FileTree.Request

/-!
# Fixtures

Files, directories and links that are put into a tree together, with the directories on the
way. What cannot be put there is left out. The other way round, `listing` tells what a tree
holds.

* `add`: a tree with a fixture put into it.
-/

namespace TestBench

/-- Files with their contents, directories, and links with their targets. -/
structure Fixture where
  files : List (Path × List UInt8)
  directories : List Path
  links : List (Path × ByteString)
deriving Repr, DecidableEq

namespace FileTree

/-- The tree with the directories that a path goes through. -/
def makeWay (t : FileTree) (p : Path) : FileTree :=
  match p.parent? with
  | none => t
  | some parent => (t.makeDirectories parent).2

/-- The tree with a file, and with the directories on the way. -/
def addFile (t : FileTree) (p : Path) (content : List UInt8) : FileTree :=
  let t := t.makeWay p
  match t.writeFile p content with
  | .ok t => t
  | .error _ => t

/-- The tree with a directory, and with those on the way. -/
def addDirectory (t : FileTree) (p : Path) : FileTree :=
  (t.makeDirectories p).2

/-- The tree with a link, and with the directories on the way. -/
def addLink (t : FileTree) (p : Path) (target : ByteString) : FileTree :=
  let t := t.makeWay p
  match t.resolve p false with
  | .ok (.vacant l name) => t.insert (l ++ [name]) (.link target)
  | _ => t

/-- The tree with a fixture. -/
def add (t : FileTree) (f : Fixture) : FileTree :=
  let t := f.files.foldl (fun t (p, content) => t.addFile p content) t
  let t := f.directories.foldl addDirectory t
  f.links.foldl (fun t (p, target) => t.addLink p target) t

/-- How an entry is listed below a path: a directory with a slash behind it, a link with a sign,
    so that the kind can be seen. -/
def listed (names : List ByteString) (e : Entry) : ByteString :=
  let text := "/".intercalate names
  match e with
  | .file _ _ => text
  | .directory => text ++ "/"
  | .link _ => text ++ "@"

/-- All entries below the working directory, in order. -/
def listing (t : FileTree) : List String :=
  (((t.descendants t.here).map fun (names, e) => listed names e).mergeSort (· ≤ ·)).map
    ByteString.display

end FileTree

end TestBench
