import TestBench.Toml.Value

/-!
# Tables that differ in one value

Two tables may be the same but for a value that they have at a path (`Table.DifferAt`). Whatever is
then added to both of them is added in the same way, and leaves the difference as it is: nothing
that is added depends on the values that are there, unless they are tables. Such tables come from
adding two values to the same table.

* `keeps_assign`, `keeps_assignBelow`, `keeps_openTable`, `keeps_openNext`: what is added leaves the
  difference as it is;
* `differAt_assign`, `differAt_assignBelow`: two values in place of each other make one.
-/

namespace TestBench.Toml

/-- Whether a value is a table or some. -/
def Value.isTable : Value → Bool
  | .table _ _ => true
  | .tables _ => true
  | _ => false

mutual

/-- Whether two values are the same but for the values `a` and `b` in them at a path. -/
inductive Value.DifferAt (a b : Value) : List String → Value → Value → Prop
  | here : Value.DifferAt a b [] a b
  | table {path : List String} {t t' : Table} (origin : Origin) (h : Table.DifferAt a b path t t') :
      Value.DifferAt a b path (.table origin t) (.table origin t')
  | tables {path : List String} {t t' : Table} (before after : List Table)
      (h : Table.DifferAt a b path t t') :
      Value.DifferAt a b path (.tables (before ++ t :: after)) (.tables (before ++ t' :: after))

/-- Whether two tables are the same but for the values `a` and `b` in them at a path. -/
inductive Table.DifferAt (a b : Value) : List String → Table → Table → Prop
  | entry {k : String} {path : List String} {t t' : Table} {v v' : Value}
      (hother : ∀ key ≠ k, t.find? key = t'.find? key) (hv : t.find? k = some v)
      (hv' : t'.find? k = some v') (h : Value.DifferAt a b path v v') :
      Table.DifferAt a b (k :: path) t t'

end

namespace Table

variable {a b : Value} {t t' u u' : Table} {k key : String} {path inner : List String}
  {made : Origin} {enters : Origin → Bool} {here : Option Origin}
  {f f' : Option Origin → Table → Option Table}

/-- Values that differ in one place make tables that do. -/
theorem differAt_put {v v' : Value} (hother : ∀ key ≠ k, t.find? key = t'.find? key)
    (h : Value.DifferAt a b path v v') :
    Table.DifferAt a b (k :: path) (t.put k v) (t'.put k v') := by
  refine .entry (fun key hkey => ?_) ?_ ?_ h
  · rw [find?_put, find?_put, if_neg hkey, if_neg hkey, hother key hkey]
  · rw [find?_put, if_pos rfl]
  · rw [find?_put, if_pos rfl]

/-! ### Adding to both -/

/-- Whether a change of tables leaves a difference in one value as it is. -/
def Keeps (a b : Value) (f : Table → Option Table) : Prop :=
  ∀ ⦃path t t' u u'⦄, Table.DifferAt a b path t t' → f t = some u → f t' = some u' →
    Table.DifferAt a b path u u'

/-- Whether a change of the values of a key leaves such a difference as it is. -/
def KeepsEntry (a b : Value) (g : Option Value → Option Value) : Prop :=
  ∀ ⦃path v v' w w'⦄, Value.DifferAt a b path v v' → g (some v) = some w → g (some v') = some w' →
    Value.DifferAt a b path w w'

/-- It is enough to look at the key whose value is changed. -/
theorem KeepsEntry.keeps {g : Option Value → Option Value} (hg : KeepsEntry a b g) (key : String)
    {f : Table → Option Table} (hf : ∀ t, f t = (g (t.find? key)).map (t.put key)) :
    Keeps a b f := by
  intro path t t' u u' h hu hu'
  rw [hf] at hu hu'
  obtain ⟨w, hw, rfl⟩ := Option.map_eq_some_iff.1 hu
  obtain ⟨w', hw', rfl⟩ := Option.map_eq_some_iff.1 hu'
  obtain ⟨hother, hv, hv', hentry⟩ := h
  rename_i k path v v'
  by_cases hkey : key = k
  · subst hkey
    rw [hv] at hw
    rw [hv'] at hw'
    exact differAt_put hother (hg hentry hw hw')
  · rw [hother key hkey] at hw
    obtain rfl := Option.some.inj (hw.symm.trans hw')
    refine .entry (fun key' hkey' => ?_) ?_ ?_ hentry
    · rw [find?_put, find?_put, hother key' hkey']
    · rw [find?_put, if_neg (Ne.symm hkey), hv]
    · rw [find?_put, if_neg (Ne.symm hkey), hv']

/-- What becomes of the value of a key when the rest of a path leads through it. -/
def changeEntry (made : Origin) (enters : Origin → Bool) (path : List String)
    (f : Option Origin → Table → Option Table) : Option Value → Option Value
  | none => (change made enters (some made) path f []).map (.table made)
  | some (.table origin t) =>
    if enters origin then (change made enters (some origin) path f t).map (.table origin) else none
  | some (.tables each) =>
    match each.getLast? with
    | some last =>
      (change made enters (some .header) path f last).map fun t => .tables (each.dropLast ++ [t])
    | none => none
  | some _ => none

theorem change_cons : change made enters here (key :: path) f t =
    (changeEntry made enters path f (t.find? key)).map (t.put key) := by
  rw [change]
  cases t.find? key with
  | none => simp [changeEntry, Function.comp_def]
  | some v =>
    cases v with
    | table origin t' => by_cases h : enters origin <;> simp [changeEntry, Function.comp_def, h]
    | tables each => cases h : each.getLast? <;> simp [changeEntry, Function.comp_def, h]
    | _ => rfl

/-- What becomes of the value of a key that a header names. -/
def openEntry : Option Value → Option Value
  | none => some (.table .header [])
  | some (.table .onTheWay t) => some (.table .header t)
  | some _ => none

/-- What becomes of the value of a key that a header in double brackets names. -/
def nextEntry : Option Value → Option Value
  | none => some (.tables [[]])
  | some (.tables each) => some (.tables (each ++ [[]]))
  | some _ => none

theorem openEntry_of_isTable {v : Value} (hv : v.isTable = false) : openEntry (some v) = none := by
  cases v <;> first | rfl | cases hv

theorem nextEntry_of_isTable {v : Value} (hv : v.isTable = false) : nextEntry (some v) = none := by
  cases v <;> first | rfl | cases hv

theorem changeEntry_of_isTable {v : Value} (hv : v.isTable = false) :
    changeEntry made enters path f (some v) = none := by
  cases v <;> first | rfl | cases hv

variable (ha : a.isTable = false)

include ha

theorem keepsEntry_changeEntry
    (hf : ∀ here, Keeps a b (change made enters here path f)) :
    KeepsEntry a b (changeEntry made enters path f) := by
  intro path' v v' w w' h hw hw'
  cases h with
  | here =>
    rw [changeEntry_of_isTable ha] at hw
    cases hw
  | table origin h =>
    rw [changeEntry] at hw hw'
    split at hw
    next henters =>
      rw [if_pos henters] at hw'
      obtain ⟨u, hu, rfl⟩ := Option.map_eq_some_iff.1 hw
      obtain ⟨u', hu', rfl⟩ := Option.map_eq_some_iff.1 hw'
      exact .table origin (hf _ h hu hu')
    next => cases hw
  | @tables _ t t' before after h =>
    rw [changeEntry] at hw hw'
    rcases List.eq_nil_or_concat after with rfl | ⟨after, last, rfl⟩
    · simp only [List.getLast?_append, List.getLast?_singleton, Option.some_or,
        List.dropLast_concat] at hw hw'
      obtain ⟨u, hu, rfl⟩ := Option.map_eq_some_iff.1 hw
      obtain ⟨u', hu', rfl⟩ := Option.map_eq_some_iff.1 hw'
      exact .tables before [] (hf _ h hu hu')
    · -- The last table is none of those that differ.
      have hlast : ∀ t : Table,
          before ++ t :: (after.concat last) = before ++ t :: after ++ [last] :=
        fun t => by simp
      simp only [hlast, List.getLast?_append, List.getLast?_singleton, Option.some_or,
        List.dropLast_concat] at hw hw'
      obtain ⟨u, hu, rfl⟩ := Option.map_eq_some_iff.1 hw
      obtain ⟨u', hu', rfl⟩ := Option.map_eq_some_iff.1 hw'
      obtain rfl := Option.some.inj (hu.symm.trans hu')
      simpa using Value.DifferAt.tables before (after ++ [u]) h

/-- A change at the end of a path leaves a difference as it is, if what is done there does. -/
theorem keeps_change (hf : ∀ here, Keeps a b (f here)) :
    Keeps a b (change made enters here path f) := by
  induction path generalizing here with
  | nil => exact hf here
  | cons key path ih =>
    exact (keepsEntry_changeEntry ha fun _ => ih).keeps key fun _ => change_cons

theorem keeps_assign {value : Value} : Keeps a b (assign path key value) := by
  refine keeps_change ha fun here => ?_
  have hentry : KeepsEntry a b fun v =>
      if here = some .dotted && v.isNone then some value else none := by
    intro path v v' w w' h hw
    simp at hw
  exact hentry.keeps key fun t => by split <;> rfl

theorem keeps_assignBelow {current : List String} {value : Value} :
    Keeps a b (assignBelow current path key value) :=
  keeps_change ha fun _ => keeps_assign ha

theorem keeps_openTable : Keeps a b (openTable path key) := by
  have hentry : KeepsEntry a b openEntry := by
    intro path v v' w w' h hw hw'
    cases h with
    | here =>
      rw [openEntry_of_isTable ha] at hw
      cases hw
    | table origin h =>
      cases origin with
      | onTheWay =>
        cases hw
        cases hw'
        exact .table .header h
      | _ => cases hw
    | tables => cases hw
  exact keeps_change ha fun _ => hentry.keeps key fun t => by
    cases t.find? key with
    | none => rfl
    | some v =>
      cases v with
      | table origin => cases origin <;> rfl
      | _ => rfl

theorem keeps_openNext : Keeps a b (openNext path key) := by
  have hentry : KeepsEntry a b nextEntry := by
    intro path v v' w w' h hw hw'
    cases h with
    | here =>
      rw [nextEntry_of_isTable ha] at hw
      cases hw
    | table => cases hw
    | tables before after h =>
      cases hw
      cases hw'
      simpa using Value.DifferAt.tables before (after ++ [[]]) h
  exact keeps_change ha fun _ => hentry.keeps key fun t => by
    cases t.find? key with
    | none => rfl
    | some v => cases v <;> rfl

omit ha

/-! ### Adding one or the other -/

/-- Two changes at the end of a path make tables that differ there, if what they do does. -/
theorem differAt_change
    (hf : ∀ {here t u u'}, f here t = some u → f' here t = some u' → Table.DifferAt a b inner u u')
    (hu : change made enters here path f t = some u)
    (hu' : change made enters here path f' t = some u') :
    Table.DifferAt a b (path ++ inner) u u' := by
  induction path generalizing here t u u' with
  | nil => exact hf hu hu'
  | cons key path ih =>
    rw [change_cons] at hu hu'
    obtain ⟨v, hv, rfl⟩ := Option.map_eq_some_iff.1 hu
    obtain ⟨v', hv', rfl⟩ := Option.map_eq_some_iff.1 hu'
    refine differAt_put (fun _ _ => rfl) ?_
    cases hfind : t.find? key with
    | none =>
      rw [hfind, changeEntry] at hv hv'
      obtain ⟨w, hw, rfl⟩ := Option.map_eq_some_iff.1 hv
      obtain ⟨w', hw', rfl⟩ := Option.map_eq_some_iff.1 hv'
      exact .table made (ih hw hw')
    | some entry =>
      rw [hfind] at hv hv'
      cases entry with
      | table origin t =>
        rw [changeEntry] at hv hv'
        split at hv
        next henters =>
          rw [if_pos henters] at hv'
          obtain ⟨w, hw, rfl⟩ := Option.map_eq_some_iff.1 hv
          obtain ⟨w', hw', rfl⟩ := Option.map_eq_some_iff.1 hv'
          exact .table origin (ih hw hw')
        next => cases hv
      | tables each =>
        rw [changeEntry] at hv hv'
        cases hlast : each.getLast? with
        | none =>
          rw [hlast] at hv
          cases hv
        | some last =>
          rw [hlast] at hv hv'
          obtain ⟨w, hw, rfl⟩ := Option.map_eq_some_iff.1 hv
          obtain ⟨w', hw', rfl⟩ := Option.map_eq_some_iff.1 hv'
          exact .tables each.dropLast [] (ih hw hw')
      | _ => cases hv

variable {v v' : Value}

theorem differAt_assign (h : Value.DifferAt a b inner v v') (hu : assign path key v t = some u)
    (hu' : assign path key v' t = some u') : Table.DifferAt a b (path ++ key :: inner) u u' := by
  refine differAt_change (fun {here t u u'} hu hu' => ?_) hu hu'
  split at hu
  next hnew =>
    rw [if_pos hnew] at hu'
    cases hu
    cases hu'
    exact differAt_put (fun _ _ => rfl) h
  next => cases hu

theorem differAt_assignBelow {current : List String} (h : Value.DifferAt a b inner v v')
    (hu : assignBelow current path key v t = some u)
    (hu' : assignBelow current path key v' t = some u') :
    Table.DifferAt a b (current ++ (path ++ key :: inner)) u u' :=
  differAt_change (fun hu hu' => differAt_assign h hu hu') hu hu'

/-! ### Adding all pairs of a list -/

/-- The table with the values of all pairs, one after the other. -/
def assignAll (pairs : List (List String × String × Value)) (t : Table) : Option Table :=
  pairs.foldlM (fun t (path, key, value) => assign path key value t) t

theorem assignAll_append (ps qs : List (List String × String × Value)) (t : Table) :
    assignAll (ps ++ qs) t = (assignAll ps t).bind (assignAll qs) := by
  rw [assignAll, List.foldlM_append]
  rfl

theorem assignAll_cons (path : List String) (key : String) (value : Value)
    (pairs : List (List String × String × Value)) (t : Table) :
    assignAll ((path, key, value) :: pairs) t =
      (assign path key value t).bind (assignAll pairs) := by
  rw [assignAll, List.foldlM_cons]
  rfl

theorem keeps_assignAll (ha : a.isTable = false) {pairs : List (List String × String × Value)} :
    Keeps a b (assignAll pairs) := by
  induction pairs with
  | nil =>
    intro path t t' u u' h hu hu'
    cases hu
    cases hu'
    exact h
  | cons pair pairs ih =>
    obtain ⟨path, key, value⟩ := pair
    intro path' t t' u u' h hu hu'
    rw [assignAll_cons] at hu hu'
    obtain ⟨s, hs, hu⟩ := Option.bind_eq_some_iff.1 hu
    obtain ⟨s', hs', hu'⟩ := Option.bind_eq_some_iff.1 hu'
    exact ih (keeps_assign ha h hs hs') hu hu'

theorem differAt_assignAll (ha : a.isTable = false)
    {ps qs : List (List String × String × Value)} (h : Value.DifferAt a b inner v v')
    (hu : assignAll (ps ++ (path, key, v) :: qs) t = some u)
    (hu' : assignAll (ps ++ (path, key, v') :: qs) t = some u') :
    Table.DifferAt a b (path ++ key :: inner) u u' := by
  rw [assignAll_append] at hu hu'
  obtain ⟨s, hs, hu⟩ := Option.bind_eq_some_iff.1 hu
  obtain ⟨s', hs', hu'⟩ := Option.bind_eq_some_iff.1 hu'
  obtain rfl := Option.some.inj (hs.symm.trans hs')
  rw [assignAll_cons] at hu hu'
  obtain ⟨w, hw, hu⟩ := Option.bind_eq_some_iff.1 hu
  obtain ⟨w', hw', hu'⟩ := Option.bind_eq_some_iff.1 hu'
  exact keeps_assignAll ha (differAt_assign h hw hw') hu hu'

end Table

end TestBench.Toml
