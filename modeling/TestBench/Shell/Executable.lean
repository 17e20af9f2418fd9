import TestBench.Shell.Utility
import TestBench.Text.Blank

/-!
# Executables

What a program's name leads to. A name with a slash is a path; any other is looked up in the
directories of the search path, one after the other. Only a file that is executable can be run:
either it is a script, or it is one of the utilities that are found on every system.

* `search`: the executable that a name leads to.
-/

namespace TestBench.Shell

/-- What can be run. -/
inductive Executable where
  | utility (name : String)
  | shell
  /-- A script, with the arguments that its first line gives the shell. -/
  | script (path : ByteString) (options : List ByteString) (content : List UInt8)
  /-- A file without a first line that tells what it is. -/
  | unmarked (path : ByteString) (content : List UInt8)
deriving Repr, DecidableEq

namespace Executable

/-- The paths that lead to a shell. -/
def shells : List String :=
  ["/bin/sh", "/usr/bin/sh", "/bin/dash", "/usr/bin/dash"]

/-- The directories of utilities. -/
def directories : List (List Component) :=
  [[.root, .normal "bin"], [.root, .normal "usr", .normal "bin"]]

/-- The executable of the system that a path leads to. -/
def ofSystem? (path : ByteString) : Option Executable :=
  if shells.contains path then some .shell
  else
    match (Path.mk path).components.reverse with
    | .normal name :: up =>
      if directories.contains up.reverse && (Utility.find? Utility.outside name).isSome then
        some (.utility name)
      else none
    | _ => none

/-- The words of a first line, the program and what is one argument to it. -/
def lineWords (cs : List Char) : List Char × List Char :=
  let cs := Sum.skipBlanks (cs.takeWhile (· != '\n'))
  let isBlank := fun c : Char => c = ' ' || c = '\t'
  (cs.takeWhile (!isBlank ·),
    Text.dropTail isBlank (Sum.skipBlanks (cs.dropWhile (!isBlank ·))))

/-- The executable that a file is. A script of another program than the shell cannot be run. -/
def ofContent (path : ByteString) (content : List UInt8) : Except ErrorNumber Executable :=
  match content with
  | 35 :: 33 :: bytes =>
    match lineWords (ByteString.ofBytes bytes).toList with
    | (program, option) =>
      if shells.contains (String.ofList program) then
        .ok (.script path (if option.isEmpty then [] else [String.ofList option]) content)
      else .error .notFound
  | _ => .ok (.unmarked path content)

/-- The executable that a path leads to. -/
def at? (t : FileTree) (path : ByteString) : Except ErrorNumber Executable :=
  match ofSystem? path with
  | some e => .ok e
  | none =>
    match t.find ⟨path⟩ true with
    | .ok (_, .file content true) => ofContent path content
    | .ok _ => .error .denied
    | .error (.system e) => .error e
    | .error _ => .error .notFound

/-- The directories of a search path. An empty one is the working directory. -/
def searchDirectories (searchPath : ByteString) : List ByteString :=
  (Text.pieces ':' searchPath.toList).map String.ofList

/-- The search path of a program that has none. -/
def standardSearchPath : ByteString := "/bin:/usr/bin"

/-- Looks a name up in directories. That one was found that cannot be run is remembered. -/
def searchIn (t : FileTree) (name : ByteString) (refusal : ErrorNumber) :
    List ByteString → Except ErrorNumber Executable
  | [] => .error refusal
  | directory :: more =>
    let path := if directory.isEmpty then name else (Path.mk directory).join name |>.text
    match at? t path with
    | .ok e => .ok e
    | .error e => searchIn t name (if e = .denied then .denied else refusal) more

/-- What a name leads to. -/
def search (t : FileTree) (searchPath name : ByteString) :
    Except ErrorNumber Executable :=
  if name.toList.contains '/' then at? t name
  else if name.isEmpty then .error .notFound
  else if name.length > FileTree.maxNameBytes then .error .nameTooLong
  else searchIn t name .notFound (searchDirectories searchPath)

end Executable

end TestBench.Shell
