import TestBench.Failure

/-!
# Checks of values

The values of a project description are checked one by one, each by the rule of its field. A
value that is refused is named in the failure together with its field and the complaint.

* `fileName_eq_ok_iff`: what a bare file name with an extension is.
-/

namespace TestBench

/-- Why a value is refused. -/
inductive Complaint where
  | blank
  | emptyPath
  | zeroInPath
  | notFileName
  | otherExtension (wanted : String)
  | notDirectoryName
  | below (least : Nat)
deriving Repr, DecidableEq

/-- The wording of a complaint. -/
def Complaint.message : Complaint → String
  | .blank => "Value cannot be empty or whitespace-only"
  | .emptyPath => "Path cannot be empty"
  | .zeroInPath => "Path contains null bytes"
  | .notFileName => "Expected a bare file name"
  | .otherExtension wanted => s!"File must have the .{wanted} extension"
  | .notDirectoryName => "Expected a directory name inside the workspace"
  | .below least => s!"Value must be at least {least}"

namespace Check

/-- The refusal of the value of a field. -/
def refuse (field value : String) (complaint : Complaint) : Except Failure Unit :=
  .error (.invalidValue field value complaint.message)

/-- The value of a field that has to be given. -/
def required {α : Type} (field : String) : Option α → Except Failure α
  | some value => .ok value
  | none => .error (.missingKey field)

/-- A text that says something. -/
def nonBlank (field value : String) : Except Failure Unit :=
  if value.toList.all Text.isBlank then refuse field value .blank else .ok ()

/-- A text that can be a path. -/
def path (field value : String) : Except Failure Unit :=
  if value.isEmpty then refuse field value .emptyPath
  else if value.toList.contains (Char.ofNat 0) then refuse field value .zeroInPath
  else .ok ()

/-- A number that is large enough. -/
def atLeast (field : String) (value least : Nat) : Except Failure Unit :=
  if value < least then refuse field (toString value) (.below least) else .ok ()

/-- Whether a character may not stand in a bare file name. -/
def separates (c : Char) : Bool :=
  c == '/' || c == '\\' || c == Char.ofNat 0

/-- A bare file name with the given extension. -/
def fileName (field value extension : String) : Except Failure Unit :=
  if value.toList.all Text.isBlank then refuse field value .blank
  else if value.toList.any separates then refuse field value .notFileName
  else if (Path.ofText value).extension? ≠ some (.ofText extension) then
    refuse field value (.otherExtension extension)
  else .ok ()

/-- The name of a directory that lies in another one. -/
def directoryName (field value : String) : Except Failure Unit :=
  if value.toList.all Text.isBlank then refuse field value .blank
  else if value.toList.any (fun c => c == '/' || c == '\\') || value == "." || value == ".." then
    refuse field value .notDirectoryName
  else .ok ()

/-- A bare file name is not blank, is in no directory and has the extension that is asked for. -/
theorem fileName_eq_ok_iff {field value extension : String} :
    fileName field value extension = .ok () ↔
      ¬value.toList.all Text.isBlank ∧ ¬value.toList.any separates ∧
        (Path.ofText value).extension? = some (.ofText extension) := by
  unfold fileName refuse
  grind

end Check

end TestBench
