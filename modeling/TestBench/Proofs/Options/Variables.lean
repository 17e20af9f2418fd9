import Mathlib.Data.List.TakeWhile
import TestBench.Options.Variables

/-!
# What becomes of a reference

The name in a reference ends at the first closing brace, whatever else is in it. So a reference is
replaced by the value of its variable, and what is on either side of it by itself, if the text
before it is `Closed`: there is a closing brace behind each opening of a reference. If it is not,
then the first opening that is left open swallows the reference: its name goes on up to the closing
brace of the reference, and names no variable that could be set.

* `splitName_eq_some_iff`: what a name is;
* `parts_append`: a text is taken apart in two, if the first half is closed;
* `substitute_reference`: what becomes of a reference in a text;
* `substitute_of_references`: what becomes of a text with one reference.
-/

namespace TestBench.Variables

variable {vs : Variables} {a b p q cs name rest : List Char} {value : String}

/-- A reference to a variable as it is written. -/
def reference (name : List Char) : List Char :=
  '$' :: '\x7b' :: (name ++ ['\x7d'])

/-- Whether behind each opening of a reference in a text there is a closing brace. -/
def Closed (a : List Char) : Prop :=
  ∀ p q, a = p ++ '$' :: '\x7b' :: q → '\x7d' ∈ q

/-! ### Names -/

/-- A name is not empty, and ends before the first closing brace. -/
theorem splitName_eq_some_iff :
    splitName cs = some (name, rest) ↔
      cs = name ++ '\x7d' :: rest ∧ name ≠ [] ∧ '\x7d' ∉ name := by
  constructor
  · intro h
    rw [splitName] at h
    split at h
    · cases h
    next c behind hbehind =>
      have hc : c = '\x7d' := by
        have := List.head?_dropWhile_not (· != '\x7d') cs
        rw [hbehind] at this
        simpa using this
      split at h
      · cases h
      next hne =>
        obtain ⟨rfl, rfl⟩ := Prod.mk.inj (Option.some.inj h)
        refine ⟨?_, hne, fun hmem => ?_⟩
        · rw [hc] at hbehind
          rw [← hbehind, List.takeWhile_append_dropWhile]
        · simpa using List.mem_takeWhile_imp hmem
  · rintro ⟨rfl, hne, hbrace⟩
    have hall : ∀ c ∈ name, (c != '\x7d') = true := by
      intro c hc
      rw [bne_iff_ne]
      rintro rfl
      exact hbrace hc
    rw [splitName, List.dropWhile_append_of_pos hall, List.takeWhile_append_of_pos hall]
    simp

/-- Where there is a closing brace and no name, the brace comes first. -/
theorem head?_of_splitName (h : splitName cs = none) (hbrace : '\x7d' ∈ cs) :
    cs.head? = some '\x7d' := by
  obtain ⟨name, rest, rfl, hname⟩ := List.eq_append_cons_of_mem hbrace
  by_cases hne : name = []
  · rw [hne]
    rfl
  · rw [splitName_eq_some_iff.2 ⟨rfl, hne, hname⟩] at h
    cases h

/-- There is no name where a closing brace comes first. -/
theorem splitName_of_head? (h : cs.head? = some '\x7d') : splitName cs = none := by
  cases hsplit : splitName cs with
  | none => rfl
  | some found =>
    obtain ⟨rfl, hne, hbrace⟩ := splitName_eq_some_iff.1 hsplit
    obtain ⟨c, name, hname⟩ := List.exists_cons_of_ne_nil hne
    rw [hname] at h hbrace
    obtain rfl := Option.some.inj h
    exact absurd List.mem_cons_self hbrace

/-! ### Parts -/

/-- A part of a text: a character that stays, or the name in a reference. -/
inductive Part where
  | char (c : Char)
  | name (name : List Char)

/-- What a part becomes. -/
def Part.replaced (vs : Variables) : Part → List Char
  | .char c => [c]
  | .name name => vs.valueOrReference name

/-- The name in a part that is a reference. -/
def Part.name? : Part → Option String
  | .char _ => none
  | .name name => some (String.ofList name)

/-- The parts of a text. -/
def parts (cs : List Char) : List Part :=
  match cs with
  | [] => []
  | '$' :: '\x7b' :: cs =>
    match _h : splitName cs with
    | some (name, rest) => .name name :: parts rest
    | none => .char '$' :: parts ('\x7b' :: cs)
  | c :: cs => .char c :: parts cs
termination_by cs.length
decreasing_by
  · have : rest.length < cs.length := length_splitName_lt _h
    simp only [List.length_cons]
    omega
  all_goals simp

/-- To substitute is to replace each part. -/
theorem substitute_eq_flatMap (vs : Variables) (cs : List Char) :
    vs.substitute cs = (parts cs).flatMap (Part.replaced vs) := by
  fun_induction parts cs with
  | case1 => rw [substitute, List.flatMap_nil]
  | case2 cs name rest hsplit ih =>
    rw [substitute, List.flatMap_cons, ← ih]
    split <;> simp_all [Part.replaced]
  | case3 cs hsplit ih =>
    rw [substitute, List.flatMap_cons, ← ih]
    split <;> simp_all [Part.replaced]
  | case4 c cs hc ih =>
    rw [substitute.eq_3 _ _ _ hc, List.flatMap_cons, ← ih]
    rfl

/-- The names of the variables are those in the parts. -/
theorem references_eq_filterMap (cs : List Char) :
    references cs = (parts cs).filterMap Part.name? := by
  fun_induction parts cs with
  | case1 => rw [references, List.filterMap_nil]
  | case2 cs name rest hsplit ih =>
    rw [references, List.filterMap_cons, ← ih]
    split <;> simp_all [Part.name?]
  | case3 cs hsplit ih =>
    rw [references, List.filterMap_cons, ← ih]
    split <;> simp_all [Part.name?]
  | case4 c cs hc ih =>
    rw [references.eq_3 _ _ hc, List.filterMap_cons, ← ih]
    rfl

/-- What is at the front and opens no reference is a character. -/
theorem parts_cons {c : Char} (h : c = '$' → cs.head? ≠ some '\x7b') :
    parts (c :: cs) = .char c :: parts cs := by
  rw [parts.eq_3]
  rintro cs' rfl rfl
  exact h rfl rfl

/-- A reference at the front is a part. -/
theorem parts_reference_append (hne : name ≠ []) (hbrace : '\x7d' ∉ name) (b : List Char) :
    parts (reference name ++ b) = .name name :: parts b := by
  have hsplit : splitName (name ++ '\x7d' :: b) = some (name, b) :=
    splitName_eq_some_iff.2 ⟨rfl, hne, hbrace⟩
  have htext : reference name ++ b = '$' :: '\x7b' :: (name ++ '\x7d' :: b) := by
    simp [reference]
  rw [htext, parts]
  split
  next found rest hfound =>
    obtain ⟨rfl, rfl⟩ := Prod.mk.inj (Option.some.inj (hfound.symm.trans hsplit))
    rfl
  next hnone =>
    rw [hsplit] at hnone
    cases hnone

/-- An opening at the front without a name is two characters. -/
theorem parts_of_splitName (h : splitName cs = none) :
    parts ('$' :: '\x7b' :: cs) = .char '$' :: parts ('\x7b' :: cs) := by
  rw [parts]
  split
  next hfound =>
    rw [h] at hfound
    cases hfound
  next => rfl

/-! ### Closed texts -/

theorem closed_nil : Closed [] := by
  rintro (_ | ⟨c, p⟩) q h <;> cases h

theorem Closed.of_append (h : Closed (a ++ b)) : Closed b := by
  rintro p q rfl
  exact h (a ++ p) q (by simp)

/-- A text is closed if an opening at its front is, and the rest. -/
theorem Closed.cons {c : Char} (h : Closed a)
    (hc : ∀ q, c = '$' → a = '\x7b' :: q → '\x7d' ∈ q) : Closed (c :: a) := by
  rintro (_ | ⟨d, p⟩) q heq
  · obtain ⟨rfl, rfl⟩ := List.cons.inj heq
    exact hc q rfl rfl
  · exact h p q (List.cons.inj heq).2

/-- A text that is not closed has a first opening that is left open. -/
theorem exists_of_not_closed (h : ¬Closed a) :
    ∃ p q, a = p ++ '$' :: '\x7b' :: q ∧ Closed p ∧ '\x7d' ∉ q := by
  induction a with
  | nil => exact absurd closed_nil h
  | cons c a ih =>
    by_cases hfirst : ∃ q, c = '$' ∧ a = '\x7b' :: q ∧ '\x7d' ∉ q
    · obtain ⟨q, rfl, rfl, hq⟩ := hfirst
      exact ⟨[], q, rfl, closed_nil, hq⟩
    · have hc : ∀ q, c = '$' → a = '\x7b' :: q → '\x7d' ∈ q := fun q hc ha =>
        Classical.not_not.1 fun hq => hfirst ⟨q, hc, ha, hq⟩
      obtain ⟨p, q, rfl, hp, hq⟩ := ih fun ha => h (ha.cons hc)
      refine ⟨c :: p, q, rfl, hp.cons ?_, hq⟩
      -- What closes the opening at the front is not behind the one that is left open.
      rintro q' rfl rfl
      have := hc (q' ++ '$' :: '\x7b' :: q) rfl rfl
      simpa [hq] using this

/-- A text is taken apart in two, if the first half is closed and the cut is not within an opening.
    The induction is on the first half, as it is taken apart. -/
theorem parts_append (ha : Closed a) (hcut : a.getLast? = some '$' → b.head? ≠ some '\x7b') :
    parts (a ++ b) = parts a ++ parts b := by
  fun_induction parts a with
  | case1 => rfl
  | case2 cs name rest hsplit ih =>
    obtain ⟨rfl, hne, hbrace⟩ := splitName_eq_some_iff.1 hsplit
    have htext : '$' :: '\x7b' :: (name ++ '\x7d' :: rest) = reference name ++ rest := by
      simp [reference]
    rw [htext] at ha hcut ⊢
    rw [List.append_assoc, parts_reference_append hne hbrace, List.cons_append, ih]
    · exact ha.of_append
    · intro hlast
      refine hcut ?_
      rw [List.getLast?_append, hlast]
      rfl
  | case3 cs hsplit ih =>
    have hhead := head?_of_splitName hsplit (ha [] cs rfl)
    have hhead' : (cs ++ b).head? = some '\x7d' := by
      rw [List.head?_append, hhead]
      rfl
    rw [List.cons_append, List.cons_append, parts_of_splitName (splitName_of_head? hhead'),
      ← List.cons_append, ih]
    · rfl
    · exact Closed.of_append (a := ['$']) ha
    · intro hlast
      exact hcut (by simpa using hlast)
  | case4 c cs hc ih =>
    rw [List.cons_append, parts_cons, ih, List.cons_append]
    · exact Closed.of_append (a := [c]) ha
    · intro hlast
      refine hcut ?_
      cases cs with
      | nil => cases hlast
      | cons d cs => simpa using hlast
    · rintro rfl
      cases cs with
      | nil => exact hcut rfl
      | cons d cs =>
        rintro hd
        obtain rfl := Option.some.inj hd
        exact hc cs rfl rfl

/-- A text is taken apart around a reference, if what is in front is closed. -/
theorem parts_around (ha : Closed a) (hne : name ≠ []) (hbrace : '\x7d' ∉ name) (b : List Char) :
    parts (a ++ reference name ++ b) = parts a ++ .name name :: parts b := by
  rw [List.append_assoc, parts_append ha fun _ => by simp [reference],
    parts_reference_append hne hbrace]

/-- So it is replaced around the reference. -/
theorem substitute_around (ha : Closed a) (hne : name ≠ []) (hbrace : '\x7d' ∉ name)
    (b : List Char) : vs.substitute (a ++ reference name ++ b) =
      vs.substitute a ++ vs.valueOrReference name ++ vs.substitute b := by
  rw [substitute_eq_flatMap, parts_around ha hne hbrace, List.flatMap_append, List.flatMap_cons,
    ← substitute_eq_flatMap, ← substitute_eq_flatMap, List.append_assoc]
  rfl

/-- And its variable is named between those on either side. -/
theorem references_around (ha : Closed a) (hne : name ≠ []) (hbrace : '\x7d' ∉ name)
    (b : List Char) : references (a ++ reference name ++ b) =
      references a ++ String.ofList name :: references b := by
  rw [references_eq_filterMap, parts_around ha hne hbrace, List.filterMap_append,
    ← references_eq_filterMap, references_eq_filterMap b]
  rfl

theorem valueOrReference_of_set (h : vs.value? (String.ofList name) = some value) :
    vs.valueOrReference name = value.toList := by
  rw [valueOrReference, h]

/-- Where an opening is left open, the reference that follows ends what it opens. -/
theorem append_reference (p q name b : List Char) :
    p ++ '$' :: '\x7b' :: q ++ reference name ++ b =
      p ++ reference (q ++ '$' :: '\x7b' :: name) ++ b := by
  simp [reference]

/-- A variable that is set is replaced by its value, and what is on either side of the reference by
    itself, if the text before it is closed. If it is not, the first opening in it that is left
    open starts a reference that ends with this one, and all in between is taken for its name. -/
theorem substitute_reference (hset : vs.value? (String.ofList name) = some value)
    (hne : name ≠ []) (hbrace : '\x7d' ∉ name) (a b : List Char) :
    (Closed a ∨ ∃ p q, a = p ++ '$' :: '\x7b' :: q ∧ Closed p ∧ '\x7d' ∉ q) ∧
    (Closed a → vs.substitute (a ++ reference name ++ b) =
      vs.substitute a ++ value.toList ++ vs.substitute b) ∧
    ∀ p q, a = p ++ '$' :: '\x7b' :: q → Closed p → '\x7d' ∉ q →
      vs.substitute (a ++ reference name ++ b) = vs.substitute p ++
        vs.valueOrReference (q ++ '$' :: '\x7b' :: name) ++ vs.substitute b := by
  refine ⟨Classical.or_iff_not_imp_left.2 exists_of_not_closed, fun ha => ?_, ?_⟩
  · rw [substitute_around ha hne hbrace, valueOrReference_of_set hset]
  · rintro p q rfl hp hq
    rw [append_reference, substitute_around hp (by simp) (by simp [hq, hbrace])]

theorem substitute_of_references_eq_nil (h : references cs = []) : vs.substitute cs = cs := by
  fun_induction references cs with
  | case1 => rw [substitute]
  | case2 => cases h
  | case3 cs hsplit ih =>
    rw [substitute]
    split
    next hfound =>
      rw [hsplit] at hfound
      cases hfound
    next => rw [ih h]
  | case4 c cs hc ih => rw [substitute.eq_3 _ _ _ hc, ih h]

/-- If a text refers to one variable only, nothing else in it is replaced. The text before the
    reference is closed, or else the name in the only reference would be a longer one. -/
theorem substitute_of_references (hne : name ≠ []) (hbrace : '\x7d' ∉ name)
    (hset : vs.value? (String.ofList name) = some value)
    (hone : references (a ++ reference name ++ b) = [String.ofList name]) :
    vs.substitute (a ++ reference name ++ b) = a ++ value.toList ++ b := by
  by_cases ha : Closed a
  · rw [references_around ha hne hbrace] at hone
    obtain ⟨hanone, hbnone⟩ : references a = [] ∧ references b = [] := by
      have hlength := congrArg List.length hone
      simp only [List.length_append, List.length_cons, List.length_nil] at hlength
      exact ⟨List.length_eq_zero_iff.1 (by omega), List.length_eq_zero_iff.1 (by omega)⟩
    rw [substitute_around ha hne hbrace, valueOrReference_of_set hset,
      substitute_of_references_eq_nil hanone, substitute_of_references_eq_nil hbnone]
  · obtain ⟨p, q, rfl, hp, hq⟩ := exists_of_not_closed ha
    rw [append_reference, references_around hp (by simp) (by simp [hq, hbrace])] at hone
    have hmem : String.ofList (q ++ '$' :: '\x7b' :: name) ∈ [String.ofList name] := by
      rw [← hone]
      simp
    have hlength := congrArg List.length (String.ofList_injective (List.mem_singleton.1 hmem))
    simp only [List.length_append, List.length_cons] at hlength
    omega

/-- A text without a dollar sign refers to no variable. -/
theorem references_of_no_dollar (h : '$' ∉ cs) : references cs = [] := by
  fun_induction references cs with
  | case1 => rfl
  | case2 => simp at h
  | case3 => simp at h
  | case4 c cs _ ih => exact ih fun hmem => h (List.mem_cons_of_mem _ hmem)

/-- A text without a dollar sign is closed. -/
theorem closed_of_no_dollar (h : '$' ∉ a) : Closed a := by
  rintro p q rfl
  exact absurd (by simp) h

/-- A value with a reference in it is not looked at again; and behind a comment with an opening that
    is left open, the same reference stays as it is written. -/
theorem substitute_reference_swallowed :
    value? [("V", "$\x7bV\x7d")] (String.ofList ['V']) = some "$\x7bV\x7d" ∧ ['V'] ≠ [] ∧
    '\x7d' ∉ ['V'] ∧ Closed "url = ".toList ∧
    substitute [("V", "$\x7bV\x7d")] ("url = ".toList ++ reference ['V'] ++ "/x".toList) =
      "url = $\x7bV\x7d/x".toList ∧
    Closed "# ".toList ∧
    substitute [("V", "x")] ("# $\x7b\nurl = ".toList ++ reference ['V'] ++ "/x".toList) =
      "# $\x7b\nurl = $\x7bV\x7d/x".toList := by
  have hne : ['V'] ≠ [] := by decide
  have hbrace : '\x7d' ∉ ['V'] := by decide
  have hurl : Closed "url = ".toList := closed_of_no_dollar (by decide)
  have hcomment : Closed "# ".toList := closed_of_no_dollar (by decide)
  have hset : value? [("V", "$\x7bV\x7d")] (String.ofList ['V']) = some "$\x7bV\x7d" := by decide
  have hset' : value? [("V", "x")] (String.ofList ['V']) = some "x" := by decide
  refine ⟨hset, hne, hbrace, hurl, ?_, hcomment, ?_⟩
  · have hvalue := (substitute_reference hset hne hbrace "url = ".toList "/x".toList).2.1 hurl
    rw [hvalue, substitute_of_no_dollar _ (by decide), substitute_of_no_dollar _ (by decide)]
    decide
  · have hname := (substitute_reference hset' hne hbrace "# $\x7b\nurl = ".toList
      "/x".toList).2.2 "# ".toList "\nurl = ".toList (by decide) hcomment (by decide)
    rw [hname, substitute_of_no_dollar _ (by decide), substitute_of_no_dollar _ (by decide)]
    decide

end TestBench.Variables
