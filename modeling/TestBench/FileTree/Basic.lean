import TestBench.Fault
import TestBench.Path

/-!
# File trees

The files that a run sees and changes. A tree is a map from *locations*, lists of names from
the root on, to entries; relative paths start at its working directory. `lookup` is the view
through which every change is described: what it adds, and that it leaves the rest.

* `lookup_insert`, `lookup_erase`, `lookup_eraseBelow`: the changes seen through the view.
-/

namespace TestBench

/-- A place in a tree: the names from the root on. -/
abbrev Location := List ByteString

/-- What may stand at a location. -/
inductive Entry where
  | file (content : List UInt8) (executable : Bool)
  | directory
  | link (target : ByteString)
deriving Repr, DecidableEq

/-- The entries of a tree, and the directory where relative paths start. -/
structure FileTree where
  entries : List (Location × Entry)
  here : Location
deriving Repr, DecidableEq

namespace FileTree

/-- A tree with nothing in it. -/
def empty : FileTree := ⟨[], []⟩

/-- What a list of entries has at a location. -/
def entryAt : List (Location × Entry) → Location → Option Entry
  | [], _ => none
  | (k, e) :: es, l => if k = l then some e else entryAt es l

/-- A list of entries with one put at a location, in place of one that may stand there. -/
def putEntry (l : Location) (e : Entry) : List (Location × Entry) → List (Location × Entry)
  | [] => [(l, e)]
  | (k, e') :: es => if k = l then (l, e) :: es else (k, e') :: putEntry l e es

/-- What stands at a location. The root always is a directory. -/
def lookup (t : FileTree) (l : Location) : Option Entry :=
  if l = [] then some .directory else entryAt t.entries l

/-- The tree with an entry at a location, in place of one that may stand there. -/
def insert (t : FileTree) (l : Location) (e : Entry) : FileTree :=
  { t with entries := putEntry l e t.entries }

/-- The tree without what stands at a location. -/
def erase (t : FileTree) (l : Location) : FileTree :=
  { t with entries := t.entries.filter (·.1 ≠ l) }

/-- Whether a location lies below another. -/
def isBelow (l : Location) (top : Location) : Bool :=
  top.isPrefixOf l && l ≠ top

/-- The tree without everything below a location. -/
def eraseBelow (t : FileTree) (top : Location) : FileTree :=
  { t with entries := t.entries.filter fun p => !isBelow p.1 top }

/-- The entries directly in a directory, by name. -/
def children (t : FileTree) (l : Location) : List (ByteString × Entry) :=
  t.entries.filterMap fun p =>
    if l.isPrefixOf p.1 then
      match p.1.drop l.length with
      | [name] => some (name, p.2)
      | _ => none
    else none

/-- The entries anywhere below a directory, by the names that lead to them. -/
def descendants (t : FileTree) (l : Location) : List (List ByteString × Entry) :=
  t.entries.filterMap fun p =>
    if isBelow p.1 l then some (p.1.drop l.length, p.2) else none

/-! ### The changes seen through the view -/

theorem entryAt_filter (es : List (Location × Entry)) (keep : Location → Bool) (l : Location) :
    entryAt (es.filter fun p => keep p.1) l = if keep l then entryAt es l else none := by
  induction es with
  | nil => simp [entryAt]
  | cons p es ih =>
    obtain ⟨k, e⟩ := p
    by_cases hk : keep k <;> by_cases hl : k = l
    · subst hl; simp [entryAt, hk]
    · simp [entryAt, hk, hl, ih]
    · subst hl; simp [hk, ih]
    · simp [entryAt, hk, hl, ih]

theorem entryAt_putEntry (es : List (Location × Entry)) (l : Location) (e : Entry)
    (l' : Location) : entryAt (putEntry l e es) l' = if l' = l then some e else entryAt es l' := by
  induction es with
  | nil => simp [putEntry, entryAt, eq_comm]
  | cons p es ih =>
    obtain ⟨k, e'⟩ := p
    by_cases hk : k = l
    · subst hk
      by_cases hl : k = l'
      · simp [putEntry, entryAt, hl]
      · simp [putEntry, entryAt, hl, Ne.symm hl]
    · by_cases hl : k = l'
      · subst hl; simp [putEntry, entryAt, hk]
      · simp [putEntry, entryAt, hk, hl, ih]

/-- An inserted entry stands where it was put, and the rest stays. -/
theorem lookup_insert (t : FileTree) {l : Location} (e : Entry) (l' : Location) (h : l ≠ []) :
    (t.insert l e).lookup l' = if l' = l then some e else t.lookup l' := by
  by_cases hr : l' = []
  · have : l' ≠ l := fun hc => h (hc ▸ hr)
    simp [lookup, hr, h.symm]
  · simp [lookup, insert, hr, entryAt_putEntry]

/-- Nothing stands where an entry was erased, and the rest stays. -/
theorem lookup_erase (t : FileTree) {l : Location} (l' : Location) (h : l ≠ []) :
    (t.erase l).lookup l' = if l' = l then none else t.lookup l' := by
  have hf := entryAt_filter t.entries (fun k => decide (k ≠ l)) l'
  by_cases hr : l' = []
  · simp [lookup, hr, h.symm]
  · by_cases hl : l' = l <;> simp_all [lookup, erase]

/-- Nothing stands below a location that was emptied, and the rest stays. -/
theorem lookup_eraseBelow (t : FileTree) (top l : Location) :
    (t.eraseBelow top).lookup l = if isBelow l top then none else t.lookup l := by
  have hf := entryAt_filter t.entries (fun k => !isBelow k top) l
  by_cases hr : l = []
  · have : isBelow l top = false := by cases top <;> simp [isBelow, hr]
    simp_all [lookup]
  · by_cases hb : isBelow l top <;> simp_all [lookup, eraseBelow]

end FileTree

end TestBench
