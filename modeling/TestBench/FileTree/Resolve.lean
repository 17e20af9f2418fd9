import TestBench.FileTree.Basic

/-!
# Where a path leads

A path is followed step by step, from the root or from the working directory. Two dots lead one
directory up, a link leads where its target leads, and every step but the last has to end in a
directory. At most `maxLinks` links are followed on one way, so a way always ends.

* `resolve`: where a path leads;
* `walk_nil`: a path without steps stays where it is.
-/

namespace TestBench.FileTree

/-- The number of links that are followed on one way. -/
def maxLinks : Nat := 40

/-- The number of bytes of the longest name. -/
def maxNameBytes : Nat := 255

/-- The number of bytes, and one, of the longest path. -/
def pathBytes : Nat := 4096

/-- Where a way leads: to an entry, or to a name that is free in a directory. -/
inductive Target where
  | found (location : Location) (entry : Entry)
  | vacant (directory : Location) (name : ByteString)
deriving Repr, DecidableEq

/-- The steps of a path. A slash at the end asks for a directory, which a dot does as well. -/
def steps (text : ByteString) : List ByteString :=
  let pieces := (Text.pieces '/' text.toList).filter (!·.isEmpty)
  pieces.map String.ofList ++ if text.toList.getLast? = some '/' then ["."] else []

/-- Where steps start that a path starts. -/
def origin (text : ByteString) (base : Location) : Location :=
  if text.toList.head? = some '/' then [] else base

/-- Follows steps from a directory. Whether a link at the end is followed is for `last` to say, and
    where the way leads on behind a link is for `follow`, given where the target of the link starts
    and the steps from there. -/
def walkFrom (t : FileTree) (last : Bool)
    (follow : Location → List ByteString → Except ErrorNumber Target) (base : Location) :
    List ByteString → Except ErrorNumber Target
  | [] => .ok (.found base .directory)
  | name :: rest =>
    if name = "." then walkFrom t last follow base rest
    else if name = ".." then walkFrom t last follow base.dropLast rest
    else if name.length > maxNameBytes then .error .nameTooLong
    else
      match t.lookup (base ++ [name]) with
      | none => if rest.isEmpty then .ok (.vacant base name) else .error .notFound
      | some .directory => walkFrom t last follow (base ++ [name]) rest
      | some (.file content executable) =>
        if rest.isEmpty then .ok (.found (base ++ [name]) (.file content executable))
        else .error .notDirectory
      | some (.link target) =>
        if rest.isEmpty && !last then .ok (.found (base ++ [name]) (.link target))
        else follow (origin target base) (steps target ++ rest)

/-- Follows steps from a directory, and links on the way as long as there are `links` left that may
    be. -/
def walk (t : FileTree) (last : Bool) :
    Nat → Location → List ByteString → Except ErrorNumber Target
  | 0 => t.walkFrom last fun _ _ => .error .tooManyLinks
  | links + 1 => t.walkFrom last (walk t last links)

/-- Where a path leads; `last` tells whether a link at its end is followed. -/
def resolve (t : FileTree) (p : Path) (last : Bool) : Except Fault Target :=
  if p.text.toList.contains (Char.ofNat 0) then .error .zeroInPath
  else if p.text.isEmpty then .error (.system .notFound)
  else if p.text.length ≥ pathBytes then .error (.system .nameTooLong)
  else (t.walk last maxLinks (origin p.text t.here) (steps p.text)).mapError .system

/-- The entry that a path leads to, and where it stands. -/
def find (t : FileTree) (p : Path) (last : Bool) : Except Fault (Location × Entry) :=
  match t.resolve p last with
  | .error fault => .error fault
  | .ok (.found l e) => .ok (l, e)
  | .ok (.vacant _ _) => .error (.system .notFound)

/-- A path without steps stays where it is. -/
theorem walk_nil (t : FileTree) (last : Bool) (links : Nat) (base : Location) :
    t.walk last links base [] = .ok (.found base .directory) := by
  cases links <;> rfl

end TestBench.FileTree
