import Mathlib.Data.List.TakeWhile
import TestBench.Proofs.Path

/-!
# Names behind a path

Names are joined to a path one behind the other. The components of what comes of it are those of
the path and the names (`components_foldl_join`), so that such paths are in the order in which
their names are, the first that differ deciding (`le_foldl_join_iff`). The extension of a path is
that of its last name (`extension?_eq_some_iff`), which is what is behind the last dot, if there is
a stem in front.

* `le_trans`, `le_total`: paths are in a linear order;
* `le_foldl_join_iff`: the order of paths with names behind them;
* `splitExtension_eq_some_iff`, `extension?_eq_some_iff`: what an extension is.
-/

namespace TestBench

/-- Whether a name has an extension: it ends in a dot and the extension, in which there is no dot,
    and something is in front. -/
def HasExtension (name extension : ByteString) : Prop :=
  ∃ stem, stem ≠ "" ∧ name = stem ++ "." ++ extension ∧ '.' ∉ extension.toList

/-- An extension is what is behind the last dot, if something is in front of that dot. -/
theorem splitExtension_eq_some_iff {name extension : List Char} :
    (splitExtension name).2 = some extension ↔
      ∃ stem, stem ≠ [] ∧ name = stem ++ '.' :: extension ∧ '.' ∉ extension := by
  constructor
  · intro h
    have hname := fileName?_eq_stem_extension (Prod.ext rfl h)
    refine ⟨_, fun hempty => ?_, hname, fun hdot => ?_⟩
    · rw [splitExtension] at h hempty
      split at h
      · cases h
      · split at h
        · cases h
        next hrest hstem =>
          simp only [hrest, if_neg hstem, List.reverse_eq_nil_iff] at hempty
          exact hstem (List.isEmpty_iff.2 hempty)
    · rw [splitExtension] at h
      split at h
      · cases h
      · split at h
        · cases h
        · obtain rfl := Option.some.inj h
          simpa using List.mem_takeWhile_imp (List.mem_reverse.1 hdot)
  · rintro ⟨stem, hstem, rfl, hdot⟩
    have hfront : ∀ c ∈ extension.reverse, (c != '.') = true := by
      intro c hc
      rw [bne_iff_ne]
      rintro rfl
      exact hdot (List.mem_reverse.1 hc)
    have hreverse : (stem ++ '.' :: extension).reverse =
        extension.reverse ++ '.' :: stem.reverse := by simp
    rw [splitExtension, hreverse, List.dropWhile_append_of_pos hfront,
      List.takeWhile_append_of_pos hfront]
    simp [hstem]

/-- A name that ends in a dot and an extension is cut at that dot, if something is in front. -/
theorem splitExtension_append {stem extension : List Char} (hstem : stem ≠ [])
    (hdot : '.' ∉ extension) :
    splitExtension (stem ++ '.' :: extension) = (stem, some extension) := by
  have hext := splitExtension_eq_some_iff.2 ⟨stem, hstem, rfl, hdot⟩
  have hname := fileName?_eq_stem_extension (Prod.ext rfl hext)
  exact Prod.ext (List.append_cancel_right hname).symm hext

/-- A name without a dot is not cut. -/
theorem splitExtension_of_dot_notMem {name : List Char} (hdot : '.' ∉ name) :
    splitExtension name = (name, none) := by
  have hnone : name.reverse.dropWhile (· != '.') = [] := by
    rw [List.dropWhile_eq_nil_iff]
    intro c hc
    rw [bne_iff_ne]
    rintro rfl
    exact hdot (List.mem_reverse.1 hc)
  rw [splitExtension, hnone]

/-- So it is if its only dot is at the start. -/
theorem splitExtension_dot {name : List Char} (hdot : '.' ∉ name) :
    splitExtension ('.' :: name) = ('.' :: name, none) := by
  have hfront : ∀ c ∈ name.reverse, (c != '.') = true := by
    intro c hc
    rw [bne_iff_ne]
    rintro rfl
    exact hdot (List.mem_reverse.1 hc)
  rw [splitExtension, List.reverse_cons, List.dropWhile_append_of_pos hfront]
  rfl

/-- The byte string of a name is cut where the name is cut. -/
theorem splitExtension_spelled (name : List Char) :
    splitExtension (ByteString.spelled name) =
      (ByteString.spelled (splitExtension name).1,
        (splitExtension name).2.map ByteString.spelled) := by
  have hascii : '.'.toNat < 0x80 := by decide
  by_cases hdot : '.' ∈ name
  · -- The name is cut at the last of its dots, unless there is nothing in front of that.
    obtain ⟨back, front, hname, hback⟩ := List.eq_append_cons_of_mem (List.mem_reverse.2 hdot)
    obtain rfl : name = front.reverse ++ '.' :: back.reverse := by
      rw [← List.reverse_reverse name, hname]
      simp
    have hback : '.' ∉ back.reverse := fun hmem => hback (List.mem_reverse.1 hmem)
    have hspelled := mt (ByteString.mem_spelled_iff hascii).1 hback
    rw [ByteString.spelled_append, ByteString.spelled_cons hascii]
    cases hfront : front.reverse with
    | nil =>
      rw [List.nil_append, splitExtension_dot hback]
      exact (splitExtension_dot hspelled).trans
        (by rw [← ByteString.spelled_cons hascii]; rfl)
    | cons c cs =>
      have hne : ByteString.spelled (c :: cs) ≠ [] := ByteString.spelled_ne_nil (by simp)
      rw [splitExtension_append (by simp) hback, splitExtension_append hne hspelled]
      rfl
  · rw [splitExtension_of_dot_notMem hdot,
      splitExtension_of_dot_notMem (mt (ByteString.mem_spelled_iff hascii).1 hdot)]
    rfl

theorem hasExtension_iff {name extension : ByteString} :
    HasExtension name extension ↔ (splitExtension name.toList).2 = some extension.toList := by
  have htext : ∀ stem : ByteString, (stem ++ "." ++ extension).toList =
      stem.toList ++ '.' :: extension.toList := by
    simp [String.toList_append]
  rw [splitExtension_eq_some_iff]
  constructor
  · rintro ⟨stem, hstem, rfl, hdot⟩
    exact ⟨stem.toList, by simpa using hstem, htext stem, hdot⟩
  · rintro ⟨stem, hstem, hname, hdot⟩
    refine ⟨String.ofList stem, by simpa using hstem, String.toList_inj.1 ?_, hdot⟩
    rw [htext, String.toList_ofList, hname]

/-- A text has an extension if its byte string has that of the extension. -/
theorem hasExtension_ofText_iff {name extension : String} :
    HasExtension (.ofText name) (.ofText extension) ↔ HasExtension name extension := by
  rw [hasExtension_iff, hasExtension_iff, ByteString.toList_ofText, ByteString.toList_ofText,
    splitExtension_spelled, ← Option.map_some,
    (Option.map_injective ByteString.spelled_injective).eq_iff]

namespace Component

theorem le_total (a b : Component) : a.le b ∨ b.le a := by
  cases a <;> cases b <;> simp [le, String.le_total]

theorem le_trans {a b c : Component} (h : a.le b) (h' : b.le c) : a.le c := by
  cases a <;> cases b <;> simp [le] at h <;> cases c <;> simp [le] at h' ⊢
  exact String.le_trans h h'

theorem le_antisymm {a b : Component} (h : a.le b) (h' : b.le a) : a = b := by
  cases a <;> cases b <;> simp [le] at h h' ⊢
  exact String.le_antisymm h h'

end Component

namespace Path

variable {names names' : List ByteString} {name extension : ByteString}

/-! ### Extensions -/

/-- The extension of a path is that of its last name. -/
theorem extension?_eq_some_iff {p : Path} :
    p.extension? = some extension ↔
      ∃ name, p.fileName? = some name ∧ HasExtension name extension := by
  rw [extension?, Option.bind_eq_some_iff]
  refine exists_congr fun name => and_congr_right fun _ => ?_
  rw [Option.map_eq_some_iff, hasExtension_iff]
  constructor
  · rintro ⟨e, he, rfl⟩
    rw [he, String.toList_ofList]
  · intro he
    exact ⟨_, he, String.ofList_toList⟩

/-- The extension of a joined name. -/
theorem extension?_join_iff (p : Path) (h : IsName name) :
    (p.join name).extension? = some extension ↔ HasExtension name extension := by
  rw [extension?_eq_some_iff, fileName?_join p h]
  simp

/-! ### The order -/

theorem le_total (p q : Path) : p.le q ∨ q.le p := by
  rw [le, le]
  generalize p.components = as
  generalize q.components = bs
  induction as generalizing bs with
  | nil => exact .inl rfl
  | cons a as ih =>
    cases bs with
    | nil => exact .inr rfl
    | cons b bs =>
      rw [le.go, le.go]
      by_cases hab : a = b
      · rw [if_pos hab, if_pos hab.symm]
        exact ih bs
      · rw [if_neg hab, if_neg (Ne.symm hab)]
        exact a.le_total b

theorem go_trans {as bs cs : List Component} (h : le.go as bs) (h' : le.go bs cs) :
    le.go as cs := by
  induction as generalizing bs cs with
  | nil => rfl
  | cons a as ih =>
    cases bs with
    | nil => cases h
    | cons b bs =>
      cases cs with
      | nil => cases h'
      | cons c cs =>
        rw [le.go] at h h' ⊢
        by_cases hab : a = b
        · subst hab
          rw [if_pos rfl] at h
          split at h'
          next hac =>
            rw [if_pos hac]
            exact ih h h'
          next hac => rwa [if_neg hac]
        · rw [if_neg hab] at h
          by_cases hbc : b = c
          · subst hbc
            rwa [if_neg hab]
          · rw [if_neg hbc] at h'
            have hac : a ≠ c := by
              rintro rfl
              exact hab (Component.le_antisymm h h')
            rw [if_neg hac]
            exact Component.le_trans h h'

theorem le_trans {p q r : Path} (h : p.le q) (h' : q.le r) : p.le r :=
  go_trans h h'

/-- Names behind a path are components behind its own. -/
theorem components_foldl_join (hnames : ∀ name ∈ names, IsName name) (p : Path) :
    (names.foldl join p).components = p.components ++ names.map .normal := by
  induction names generalizing p with
  | nil => simp
  | cons name names ih =>
    rw [List.forall_mem_cons] at hnames
    rw [List.foldl_cons, ih hnames.2, components_join p hnames.1, List.append_assoc]
    rfl

theorem go_append (cs as bs : List Component) : le.go (cs ++ as) (cs ++ bs) = le.go as bs := by
  induction cs with
  | nil => rfl
  | cons c cs ih => rw [List.cons_append, List.cons_append, le.go, if_pos rfl, ih]

theorem go_map_normal_iff :
    le.go (names.map .normal) (names'.map .normal) ↔
      names = names' ∨ List.Lex (· < ·) names names' := by
  induction names generalizing names' with
  | nil => cases names' <;> simp [le.go]
  | cons name names ih =>
    cases names' with
    | nil => simp [le.go]
    | cons name' names' =>
      rw [List.map_cons, List.map_cons, le.go, List.cons_lex_cons_iff]
      by_cases hn : name = name'
      · subst hn
        rw [if_pos rfl, ih]
        simp
      · have hlt : name ≤ name' ↔ name < name' := by
          refine ⟨fun h => ?_, fun h => fun h' => String.lt_asymm h h'⟩
          rw [← String.not_le]
          exact fun h' => hn (String.le_antisymm h h')
        simp [hn, Component.le, hlt]

/-- Paths with names behind them are in the order of their names, where the first names that differ
    decide. -/
theorem le_foldl_join_iff (hnames : ∀ name ∈ names, IsName name)
    (hnames' : ∀ name ∈ names', IsName name) (p : Path) :
    (names.foldl join p).le (names'.foldl join p) ↔
      names = names' ∨ List.Lex (· < ·) names names' := by
  rw [le, components_foldl_join hnames, components_foldl_join hnames', go_append]
  exact go_map_normal_iff

/-- The last of some names is the file name. -/
theorem fileName?_foldl_join (hnames : ∀ name ∈ names, IsName name) (hne : names ≠ []) (p : Path) :
    (names.foldl join p).fileName? = names.getLast? := by
  obtain ⟨front, name, rfl⟩ := (List.eq_nil_or_concat names).resolve_left hne
  rw [List.concat_eq_append] at hnames ⊢
  rw [List.foldl_append, List.foldl_cons, List.foldl_nil, fileName?_join _ (hnames _ (by simp)),
    List.getLast?_concat]

end Path

end TestBench
