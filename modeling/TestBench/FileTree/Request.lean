import TestBench.FileTree.Resolve

/-!
# Requests to a file tree

What a program asks of its files: to read and to write one, to list a directory, to create
directories, to remove a file or a whole directory. A request that is refused names the fault;
but for `removeTree`, which may have emptied a directory that then cannot go, and for
`makeDirectories`, which may have made a part of the way, it leaves the tree as it was.
-/

namespace TestBench.FileTree

/-- Whether a path leads to an entry. -/
def present (t : FileTree) (p : Path) : Bool :=
  (t.find p true).isOk

/-- Whether a path leads to a directory. -/
def isDirectory (t : FileTree) (p : Path) : Bool :=
  match t.find p true with
  | .ok (_, .directory) => true
  | _ => false

/-- The absolute path of a location. -/
def pathOf (l : Location) : Path :=
  ⟨"/" ++ "/".intercalate l⟩

/-- The absolute path without links that leads to the same entry as a path. -/
def canonical (t : FileTree) (p : Path) : Except Fault Path :=
  (t.find p true).map fun e => pathOf e.1

/-- The bytes of the file that a path leads to. -/
def readBytes (t : FileTree) (p : Path) : Except Fault (List UInt8) :=
  match t.find p true with
  | .error fault => .error fault
  | .ok (_, .file content _) => .ok content
  | .ok (_, _) => .error (.system .isDirectory)

/-- The text of the file that a path leads to. -/
def readText (t : FileTree) (p : Path) : Except Fault String :=
  match t.readBytes p with
  | .error fault => .error fault
  | .ok bytes => (Utf8.decode bytes).mapError fun _ => .notText

/-- The location of the directory that a path leads to. -/
def directory (t : FileTree) (p : Path) : Except Fault Location :=
  match t.find p true with
  | .error fault => .error fault
  | .ok (l, .directory) => .ok l
  | .ok (_, _) => .error (.system .notDirectory)

/-- A path without the slashes at its end, unless it holds nothing else. -/
def withoutTrailingSlashes (text : ByteString) : ByteString :=
  let cs := text.toList.reverse.dropWhile (· = '/')
  if cs.isEmpty then text else String.ofList cs.reverse

/-- The tree with a new directory where a path leads. -/
def makeDirectory (t : FileTree) (p : Path) : Except Fault FileTree :=
  match t.resolve ⟨withoutTrailingSlashes p.text⟩ false with
  | .error fault => .error fault
  | .ok (.found _ _) => .error (.system .present)
  | .ok (.vacant l name) => .ok (t.insert (l ++ [name]) .directory)

/-- Makes a directory where a path leads, unless there is one. -/
def ensureDirectory (t : FileTree) (p : Path) : Except Fault Unit × FileTree :=
  match t.makeDirectory p with
  | .ok t' => (.ok (), t')
  | .error fault => if t.isDirectory p then (.ok (), t) else (.error fault, t)

/-- Makes a directory where a path leads, and directories on the way. The number of components
    that may be missing is bounded. Those that were made stay, also if the last cannot be. -/
def makeDirectoriesWithin : Nat → FileTree → Path → Except Fault Unit × FileTree
  | 0, t, p => if p.text.isEmpty then (.ok (), t) else t.ensureDirectory p
  | bound + 1, t, p =>
    if p.text.isEmpty then (.ok (), t)
    else
      match t.makeDirectory p with
      | .error (.system .notFound) =>
        match p.parent? with
        | none => (.error (.system .notFound), t)
        | some parent =>
          match makeDirectoriesWithin bound t parent with
          | (.error fault, t') => (.error fault, t')
          | (.ok _, t') => t'.ensureDirectory p
      | _ => t.ensureDirectory p

/-- Makes a directory where a path leads, and directories on the way. -/
def makeDirectories (t : FileTree) (p : Path) : Except Fault Unit × FileTree :=
  makeDirectoriesWithin p.text.length t p

/-- Whether a path asks for a directory by a slash at its end. -/
def wantsDirectory (p : Path) : Bool :=
  p.text.toList.getLast? == some '/'

/-- The tree with a new empty file where a path leads. -/
def createFile (t : FileTree) (p : Path) : Except Fault FileTree :=
  match t.resolve p false with
  | .error fault => if wantsDirectory p then .error (.system .isDirectory) else .error fault
  | .ok (.found _ _) => .error (.system .present)
  | .ok (.vacant l name) => .ok (t.insert (l ++ [name]) (.file [] false))

/-- The tree with the given content in the file that a path leads to, which is made if it is
    not there. -/
def writeFile (t : FileTree) (p : Path) (content : List UInt8) : Except Fault FileTree :=
  match t.resolve p true with
  | .error fault => .error fault
  | .ok (.found l (.file _ executable)) => .ok (t.insert l (.file content executable))
  | .ok (.found _ _) => .error (.system .isDirectory)
  | .ok (.vacant l name) => .ok (t.insert (l ++ [name]) (.file content false))

/-- The tree without the file or the link that a path leads to. -/
def removeFile (t : FileTree) (p : Path) : Except Fault FileTree :=
  match t.find p false with
  | .error fault => .error fault
  | .ok (_, .directory) => .error (.system .isDirectory)
  | .ok (l, _) => .ok (t.erase l)

/-- The tree without the empty directory at a location, which a path leads to. A path that ends
    in dots names a directory by what is in it, and a link with a slash behind it names one that
    stands elsewhere, so that it cannot go. -/
def removeEmptied (t : FileTree) (p : Path) (l : Location) : Except Fault Unit × FileTree :=
  match t.find p false with
  | .error (.system .notFound) => (.ok (), t)
  | .error fault => (.error fault, t)
  | .ok _ =>
    match ((Text.pieces '/' p.text.toList).filter (!·.isEmpty)).getLast? with
    | some ['.'] => (.error (.system .invalid), t)
    | some ['.', '.'] => (.error (.system .notEmpty), t)
    | _ =>
      match t.find ⟨withoutTrailingSlashes p.text⟩ false with
      | .ok (_, .link _) => (.error (.system .notDirectory), t)
      | _ => (.ok (), t.erase l)

/-- Removes the directory that a path leads to with everything in it; of a link, only the link
    itself. -/
def removeTree (t : FileTree) (p : Path) : Except Fault Unit × FileTree :=
  match t.find p false with
  | .error fault => (.error fault, t)
  | .ok (l, .link _) => (.ok (), t.erase l)
  | .ok (_, .file _ _) => (.error (.system .notDirectory), t)
  | .ok (l, .directory) => (t.eraseBelow l).removeEmptied p l

end TestBench.FileTree
