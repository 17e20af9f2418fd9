import TestBench.ByteString
import TestBench.Text.Pieces

/-!
# Paths

A path is kept as it was written, since that is how it is shown. Its *components* are what
counts: slashes in a row are one, and a single dot says nothing, unless the path starts with
it. Joining, parents, stems, extensions and the order of paths follow the components. A path is
made of bytes, and need not be a text.

* `join_absolute`: an absolute path replaces what it is joined to;
* `fileName?_eq_stem_extension`: a file name with an extension is its stem, a dot and it.
-/

namespace TestBench

/-- A path as written. -/
structure Path where
  text : ByteString
deriving Repr, DecidableEq

/-- A step of a path. The order of the constructors is the order of components. -/
inductive Component where
  | root
  | current
  | parent
  | normal (name : ByteString)
deriving Repr, DecidableEq

namespace Component

/-- Whether a component comes before another or is it. Names are compared by their bytes. -/
def le : Component → Component → Bool
  | .root, _ => true
  | _, .root => false
  | .current, _ => true
  | _, .current => false
  | .parent, _ => true
  | _, .parent => false
  | .normal a, .normal b => a ≤ b

end Component

/-- A file name cut at its last dot, into stem and extension. A name that starts with its only
    dot has no extension. -/
def splitExtension (name : List Char) : List Char × Option (List Char) :=
  match name.reverse.dropWhile (· != '.') with
  | [] => (name, none)
  | _ :: stem =>
    if stem.isEmpty then (name, none)
    else (stem.reverse, some (name.reverse.takeWhile (· != '.')).reverse)

namespace Path

/-- The path that a text is. -/
def ofText (text : String) : Path := ⟨.ofText text⟩

/-- A path as it is shown. -/
def display (p : Path) : String := p.text.display

/-- Whether a path starts at the root. -/
def isAbsolute (p : Path) : Bool :=
  p.text.toList.head? == some '/'

/-- One path below another. An absolute one replaces what it is joined to, and an empty one
    leaves a slash at the end. -/
def join (p : Path) (q : ByteString) : Path :=
  if q.toList.head? == some '/' then ⟨q⟩
  else if p.text.isEmpty || p.text.toList.getLast? == some '/' then ⟨p.text ++ q⟩
  else ⟨p.text ++ "/" ++ q⟩

/-- The start of a path that no component may be taken from, a slash or a lone dot, and what
    follows it. -/
def splitLead : List Char → List Char × List Char
  | '/' :: cs => (['/'], cs)
  | '.' :: '/' :: cs => (['.'], '/' :: cs)
  | ['.'] => (['.'], [])
  | cs => ([], cs)

/-- The component that a path starts with, given its start. -/
def leadComponents : List Char → List Component
  | '/' :: _ => [.root]
  | '.' :: _ => [.current]
  | _ => []

/-- The component that a piece between slashes is, if it is one. -/
def pieceComponent (piece : List Char) : Option Component :=
  if piece == [] || piece == ['.'] then none
  else if piece == ['.', '.'] then some .parent
  else some (.normal (String.ofList piece))

/-- The components of a text that no path starts with. -/
def bodyComponents (cs : List Char) : List Component :=
  (Text.pieces '/' cs).filterMap pieceComponent

/-- The components of a path. -/
def components (p : Path) : List Component :=
  leadComponents (splitLead p.text.toList).1 ++ bodyComponents (splitLead p.text.toList).2

/-- The last component, if it is a name. -/
def fileName? (p : Path) : Option ByteString :=
  match p.components.getLast? with
  | some (.normal name) => some name
  | _ => none

/-- The file name without its extension. -/
def stem? (p : Path) : Option ByteString :=
  p.fileName?.map fun name => String.ofList (splitExtension name.toList).1

/-- What follows the last dot of the file name. -/
def extension? (p : Path) : Option ByteString :=
  p.fileName?.bind fun name => (splitExtension name.toList).2.map String.ofList

/-- A reversed text without the pieces at its front that are no components. -/
def trimPieces (body : List Char) : List Char :=
  match body with
  | [] => []
  | '/' :: cs => trimPieces cs
  | '.' :: '/' :: cs => trimPieces cs
  | ['.'] => []
  | cs => cs

/-- The path without its last component. The root and the empty path have no parent. -/
def parent? (p : Path) : Option Path :=
  let (lead, body) := splitLead p.text.toList
  match trimPieces body.reverse with
  | [] => if lead == ['.'] then some ⟨""⟩ else none
  | body =>
    let rest := trimPieces (body.dropWhile (· != '/'))
    some ⟨String.ofList (lead ++ rest.reverse)⟩

/-- Whether a path comes before another or has the same components. -/
def le (p q : Path) : Bool :=
  go p.components q.components
where
  /-- Components in order, the shorter first. -/
  go : List Component → List Component → Bool
    | [], _ => true
    | _ :: _, [] => false
    | a :: as, b :: bs => if a = b then go as bs else a.le b

/-- An absolute path replaces what it is joined to. -/
theorem join_absolute (p : Path) {q : ByteString} (h : q.toList.head? = some '/') :
    p.join q = ⟨q⟩ := by
  simp [join, h]

end Path

/-- A file name with an extension is its stem, a dot and the extension. -/
theorem fileName?_eq_stem_extension {name stem ext : List Char}
    (h : splitExtension name = (stem, some ext)) : name = stem ++ '.' :: ext := by
  have hn := List.takeWhile_append_dropWhile (p := (· != '.')) (l := name.reverse)
  rw [splitExtension] at h
  split at h
  · simp at h
  · next c stem' hs =>
    have hc : c = '.' := by
      have := List.head?_dropWhile_not (fun c : Char => c != '.') name.reverse
      simpa [hs] using this
    split at h
    · simp at h
    · simp only [Prod.mk.injEq, Option.some.injEq] at h
      rw [hs, hc] at hn
      have hr := congrArg List.reverse hn
      rw [List.reverse_append, List.reverse_cons, List.reverse_reverse, List.append_assoc,
        List.singleton_append, h.1, h.2] at hr
      exact hr.symm

end TestBench
