import TestBench.Web.Host

/-!
# Web addresses

An address is read the way browsers do: what is around it and the tabs and line ends in it do
not count, a backslash is as good as a slash, and the slashes before the host may be too few or
too many. Only what the address says about scheme, host and path is kept. The dots in a path are
followed.

* `resolveDots_of_plain`: a path without dots is kept.
-/

namespace TestBench.Web

/-- The kinds of schemes: those of the web, the one for files, and all others. -/
inductive SchemeKind where
  | web
  | file
  | other
deriving Repr, DecidableEq

/-- The kind of a scheme. -/
def kindOfScheme (scheme : List Char) : SchemeKind :=
  let schemes := ["http", "https", "ws", "wss", "ftp"].map String.toList
  if schemes.contains scheme then .web
  else if scheme = "file".toList then .file
  else .other

/-- An address. A path without a slash in front has no segments. -/
structure Address where
  scheme : String
  host : Option Host
  segments : Option (List (List Char))
deriving Repr, DecidableEq

namespace Address

/-- Whether a character is a control or a blank. -/
def isPadding (c : Char) : Bool := c.toNat ≤ 0x20

/-- Whether a character does not count within an address. -/
def isSkipped (c : Char) : Bool := c == '\t' || c == '\n' || c == '\r'

/-- What counts of a text. -/
def significant (cs : List Char) : List Char :=
  ((cs.dropWhile isPadding).reverse.dropWhile isPadding).reverse.filter (!isSkipped ·)

/-- Whether a character may stand in a scheme behind its first letter. -/
def isSchemeChar (c : Char) : Bool :=
  c.isAlphanum || c == '+' || c == '-' || c == '.'

/-- The scheme in small letters, and what follows the colon behind it. -/
def splitScheme (cs : List Char) : Option (List Char × List Char) :=
  match cs with
  | [] => none
  | c :: _ =>
    if !c.isAlpha then none
    else
      match cs.dropWhile isSchemeChar with
      | ':' :: rest => some ((cs.takeWhile isSchemeChar).map Char.toLower, rest)
      | _ => none

/-- Whether a character separates the segments of a path. -/
def isSlash (kind : SchemeKind) (c : Char) : Bool :=
  c == '/' || (c == '\\' && kind != .other)

/-- Whether a character ends the part of an address that names the host. -/
def endsAuthority (kind : SchemeKind) (c : Char) : Bool :=
  isSlash kind c || c == '?' || c == '#'

/-- The authority of an address without the name of the user, and whether it has one. A name
    needs a host behind it. -/
def splitUser (authority : List Char) (more : Bool) : Except Fault (Bool × List Char) :=
  if authority.contains '@' then
    let host := (authority.reverse.takeWhile (· != '@')).reverse
    let user := (authority.reverse.dropWhile (· != '@')).tail.reverse
    if user.isEmpty then
      if host.isEmpty && more then .error .emptyHost else .ok (false, host)
    else .ok (user != [':'], host)
  else .ok (false, authority)

/-- The host and what follows it, from the colon of the port on. A colon in brackets belongs to
    the host. -/
def splitPort (inBrackets : Bool) : List Char → List Char × List Char
  | [] => ([], [])
  | c :: cs =>
    if c = ':' && !inBrackets then ([], c :: cs)
    else
      let inBrackets := if c = '[' then true else if c = ']' then false else inBrackets
      let (host, port) := splitPort inBrackets cs
      (c :: host, port)

/-- The largest port. -/
def maxPort : Nat := 65535

/-- Checks a port from its digits on. -/
def checkPort (n : Nat) : List Char → Except Fault Unit
  | [] => .ok ()
  | c :: cs =>
    if c.isDigit then
      let n := n * 10 + (c.toNat - '0'.toNat)
      if maxPort < n then .error .invalidPort else checkPort n cs
    else if c = '\\' then .ok ()
    else .error .invalidPort

/-- The host of an address, if it is not empty, with the port checked. -/
def hostOf (kind : SchemeKind) (hasUser : Bool) (cs : List Char) : Except Fault (Option Host) := do
  let (name, port) := splitPort false cs
  if kind = .web && name.isEmpty then throw .emptyHost
  let host ← if kind = .web then Host.parse name else Host.parseAny name
  if name.isEmpty && !port.isEmpty then throw .emptyHost
  checkPort 0 port.tail
  if name.isEmpty && hasUser then throw .emptyHost
  return if name.isEmpty then none else some host

/-! ### Paths -/

/-- Whether a segment means the directory that it is in. -/
def isDot (segment : List Char) : Bool :=
  (["."].map String.toList ++ ["%2e", "%2E"].map String.toList).contains segment

/-- Whether a segment means the directory above. -/
def isDoubleDot (segment : List Char) : Bool :=
  (["..", "%2e%2e", "%2e%2E", "%2E%2e", "%2E%2E", "%2e.", "%2E.", ".%2e", ".%2E"].map
    String.toList).contains segment

/-- Whether a segment is the name of a drive, which is not left upwards. -/
def isDrive (segment : List Char) : Bool :=
  match segment with
  | [c, d] => c.isAlpha && (d == ':' || d == '|')
  | _ => false

/-- The segments above the last one, whose names are given backwards. -/
def up (above : List (List Char)) : List (List Char) :=
  match above with
  | [] => []
  | s :: rest => if isDrive s then s :: rest else rest

/-- Follows the dots of segments. The segments above are given backwards. Behind dots at the
    end there is an empty segment. -/
def resolveDots (above : List (List Char)) : List (List Char) → List (List Char)
  | [] => above.reverse
  | s :: rest =>
    let above' :=
      if isDoubleDot s then up above
      else if isDot s then above
      else s :: above
    if rest.isEmpty && (isDoubleDot s || isDot s) then (([] : List Char) :: above').reverse
    else resolveDots above' rest

/-- The segments of the path that a text starts with. -/
def segmentsOf (kind : SchemeKind) (cs : List Char) : List (List Char) :=
  let path := cs.takeWhile fun c => !(c == '?' || c == '#')
  let path := match path with
    | c :: rest => if isSlash kind c then rest else path
    | [] => path
  resolveDots [] (Text.piecesBy (isSlash kind) path)

/-- An address whose host is named behind the slashes. -/
def withAuthority (scheme : String) (kind : SchemeKind) (cs : List Char) :
    Except Fault Address := do
  let authority := cs.takeWhile (!endsAuthority kind ·)
  let rest := cs.dropWhile (!endsAuthority kind ·)
  let (hasUser, host) ← splitUser authority (!rest.isEmpty)
  let host ← hostOf kind hasUser host
  return ⟨scheme, host, some (segmentsOf kind rest)⟩

/-- The address of a file. Its host may be a drive, which is none. -/
def ofFile (cs : List Char) : Except Fault Address :=
  match cs with
  | a :: b :: rest =>
    if isSlash .file a && isSlash .file b then
      let name := rest.takeWhile (!endsAuthority .file ·)
      let path := rest.dropWhile (!endsAuthority .file ·)
      if name.isEmpty then .ok ⟨"file", none, some (segmentsOf .file path)⟩
      else if isDrive name then .ok ⟨"file", none, some (segmentsOf .file rest)⟩
      else
        match Host.parse name with
        | .error fault => .error fault
        | .ok host => .ok ⟨"file", some host, some (segmentsOf .file path)⟩
    else .ok ⟨"file", none, some (segmentsOf .file cs)⟩
  | cs => .ok ⟨"file", none, some (segmentsOf .file cs)⟩

/-- The address that a text is. -/
def parse (text : List Char) : Except Fault Address :=
  match splitScheme (significant text) with
  | none => .error .relative
  | some (scheme, rest) =>
    let name := String.ofList scheme
    match kindOfScheme scheme with
    | .web => withAuthority name .web (rest.dropWhile (isSlash .web))
    | .file => ofFile rest
    | .other =>
      match rest with
      | '/' :: '/' :: rest => withAuthority name .other rest
      | '/' :: rest => .ok ⟨name, none, some (segmentsOf .other rest)⟩
      | _ => .ok ⟨name, none, none⟩

/-- A path without dots is kept. -/
theorem resolveDots_of_plain {segments : List (List Char)}
    (h : ∀ s ∈ segments, isDot s = false ∧ isDoubleDot s = false) (above : List (List Char)) :
    resolveDots above segments = above.reverse ++ segments := by
  induction segments generalizing above with
  | nil => simp [resolveDots]
  | cons s rest ih =>
    obtain ⟨h₁, h₂⟩ := h s List.mem_cons_self
    rw [resolveDots]
    simp [h₁, h₂, ih fun t ht => h t (List.mem_cons_of_mem _ ht)]

end Address

end TestBench.Web
