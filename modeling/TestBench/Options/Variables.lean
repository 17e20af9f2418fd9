/-!
# Variables in a description

Before a description of a project is read, the names of variables in it, in braces behind a
dollar sign, are replaced by their values. Names that are not set stay as they are written, and
what is put in is not looked at again.

* `substitute_of_no_dollar`: without a dollar sign, nothing is replaced.
-/

namespace TestBench

/-- The variables that are set, and their values. -/
abbrev Variables := List (String × String)

/-- The value of a variable. -/
def Variables.value? : Variables → String → Option String
  | [], _ => none
  | (k, v) :: vs, name => if k = name then some v else value? vs name

namespace Variables

/-- The name that stands at the start of a text and ends before a closing brace, and what
    follows the brace. -/
def splitName (cs : List Char) : Option (List Char × List Char) :=
  match cs.dropWhile (· != '\x7d') with
  | [] => none
  | _ :: rest =>
    match cs.takeWhile (· != '\x7d') with
    | [] => none
    | name => some (name, rest)

theorem length_splitName_lt {cs : List Char} {r : List Char × List Char}
    (h : splitName cs = some r) : r.2.length < cs.length := by
  have hs := (List.dropWhile_suffix (· != '\x7d') (l := cs)).length_le
  unfold splitName at h
  split at h
  · simp at h
  · next hd =>
    rw [hd] at hs
    split at h
    · simp at h
    · obtain rfl := Option.some.inj h
      exact hs

/-- The names of the variables that a text refers to. -/
def references (cs : List Char) : List String :=
  match cs with
  | [] => []
  | '$' :: '\x7b' :: cs =>
    match _h : splitName cs with
    | some (name, rest) => String.ofList name :: references rest
    | none => references ('\x7b' :: cs)
  | _ :: cs => references cs
termination_by cs.length
decreasing_by
  · have : rest.length < cs.length := length_splitName_lt _h
    simp only [List.length_cons]
    omega
  all_goals simp

/-- What a reference to a variable becomes. -/
def valueOrReference (vs : Variables) (name : List Char) : List Char :=
  match vs.value? (String.ofList name) with
  | some value => value.toList
  | none => '$' :: '\x7b' :: name ++ ['\x7d']

/-- A text with the variables in it replaced. -/
def substitute (vs : Variables) (cs : List Char) : List Char :=
  match cs with
  | [] => []
  | '$' :: '\x7b' :: cs =>
    match _h : splitName cs with
    | some (name, rest) => vs.valueOrReference name ++ substitute vs rest
    | none => '$' :: substitute vs ('\x7b' :: cs)
  | c :: cs => c :: substitute vs cs
termination_by cs.length
decreasing_by
  · have : rest.length < cs.length := length_splitName_lt _h
    simp only [List.length_cons]
    omega
  all_goals simp

/-- Without a dollar sign, nothing is replaced. -/
theorem substitute_of_no_dollar (vs : Variables) {cs : List Char} (h : '$' ∉ cs) :
    vs.substitute cs = cs := by
  fun_induction substitute vs cs with
  | case1 => rfl
  | case2 => simp at h
  | case3 => simp at h
  | case4 c cs _ ih => rw [ih fun hm => h (List.mem_cons_of_mem _ hm)]

end Variables

end TestBench
