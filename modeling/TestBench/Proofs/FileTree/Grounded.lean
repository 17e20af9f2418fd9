import Mathlib.Data.List.Induction
import TestBench.Proofs.FileTree.Put
import TestBench.Proofs.Workspace.Root

/-!
# Grounded file trees

In the trees of a real system, everything stands in a directory. Such a tree is *grounded*, and so
is a part of a tree in which only what is put in place stands. In a grounded tree the names of a
place lead there (`find_pathOf`).

* `Grounded.makeDirectories`, `Grounded.createFile`: what is made at the end of a way is grounded;
* `GroundedFrom.putAll`: so is what is put in place.
-/

namespace TestBench.FileTree

variable {t t' : FileTree} {top base d l : Location} {name : ByteString}
  {names way : List ByteString}
  {links : Nat} {last : Bool} {target : Target} {e : Entry} {p : Path} {content : List UInt8}
  {executable : Bool}

/-- Whether what stands below a place, or below one that is below it, stands in a directory. -/
def GroundedFrom (top : Location) (t : FileTree) : Prop :=
  ∀ l name e, top <+: l → t.lookup (l ++ [name]) = some e → t.lookup l = some .directory

/-- Whether everything stands in a directory, and paths start in one. -/
structure Grounded (t : FileTree) : Prop where
  everywhere : GroundedFrom [] t
  here : t.lookup t.here = some .directory

/-- What leads up to an entry are directories. -/
theorem GroundedFrom.lookup_prefix (h : GroundedFrom top t) {k : Location} (hk : top <+: k)
    (hl : k <+: l) (hne : k ≠ l) (he : t.lookup l = some e) : t.lookup k = some .directory := by
  obtain ⟨rest, rfl⟩ := hl
  induction rest using List.reverseRecOn generalizing e with
  | nil => exact absurd (List.append_nil k).symm hne
  | append_singleton rest name ih =>
    rw [← List.append_assoc] at he
    have hdir := h _ name e (hk.trans (List.prefix_append k rest)) he
    cases rest with
    | nil => rwa [List.append_nil] at hdir
    | cons name' rest => exact ih (by simp) hdir

/-- A tree is grounded if each of its entries stands in a directory. -/
theorem groundedFrom_of_entries (h : ∀ q ∈ t.entries, t.lookup q.1.dropLast = some .directory) :
    GroundedFrom [] t := by
  intro l name e _ he
  rw [lookup, if_neg (by simp)] at he
  have hdir := h _ (mem_of_entryAt he)
  rwa [List.dropLast_concat] at hdir

/-! ### What is put in place -/

/-- An entry that is put into a directory where nothing or a file stands. -/
theorem GroundedFrom.insert (h : GroundedFrom top t)
    (hbase : top <+: base → t.lookup base = some .directory)
    (hl : t.lookup (base ++ [name]) ≠ some .directory) :
    GroundedFrom top (t.insert (base ++ [name]) e) := by
  intro l name' e' htop he'
  have hne : base ++ [name] ≠ [] := by simp
  rw [lookup_insert _ _ _ hne] at he' ⊢
  split at he'
  next heq =>
    obtain ⟨rfl, -⟩ := List.append_inj' heq rfl
    rw [if_neg (by simp), hbase htop]
  next =>
    have hdir := h l name' e' htop he'
    rw [if_neg, hdir]
    rintro rfl
    exact hl hdir

theorem GroundedFrom.place (h : GroundedFrom top t)
    (hbase : top <+: base → t.lookup base = some .directory)
    (hplace : t.place (base ++ [name]) e = some t') : GroundedFrom top t' := by
  rcases eq_of_place hplace with ⟨hl, rfl⟩ | ⟨-, -, rfl⟩ | ⟨_, _, _, _, hl, -, rfl⟩
  · exact h.insert hbase (by simp [hl])
  · exact h
  · exact h.insert hbase (by simp [hl])

/-- A directory that is placed is there. -/
theorem lookup_of_place (hl : l ≠ []) (h : t.place l .directory = some t') :
    t'.lookup l = some .directory := by
  rcases eq_of_place h with ⟨-, rfl⟩ | ⟨hdir, -, rfl⟩ | ⟨_, _, _, _, -, he, -⟩
  · rw [lookup_insert _ _ _ hl, if_pos rfl]
  · exact hdir
  · cases he

theorem GroundedFrom.putFrom (h : GroundedFrom top t)
    (hbase : top <+: base → t.lookup base = some .directory) :
    GroundedFrom top (t.putFrom e base names) := by
  induction names generalizing t base with
  | nil => exact h
  | cons name names ih =>
    rw [FileTree.putFrom]
    split
    · cases hplace : t.place (base ++ [name]) e with
      | none => exact h
      | some t' => exact h.place hbase hplace
    · split
      next => exact h
      next t' hplace => exact ih (h.place hbase hplace) fun _ => lookup_of_place (by simp) hplace

/-- Files that are put in place stand in directories. -/
theorem GroundedFrom.putAll (h : GroundedFrom top t) (fs : List FixedFile) :
    GroundedFrom top (t.putAll fs) :=
  putAll_keeps (fun _ _ _ ht => ht.putFrom fun _ => rfl) h

/-! ### What is made at the end of a way -/

/-- A way to a directory, or to a free name in it, ends in a directory. -/
theorem Leads.lookup_directory (ht : GroundedFrom [] t) (hbase : t.lookup base = some .directory)
    (h : Leads t last links base way target)
    (hd : target = .found d .directory ∨ ∃ name, target = .vacant d name) :
    t.lookup d = some .directory := by
  induction h with
  | here =>
    obtain ⟨rfl, -⟩ := Target.found.inj (hd.resolve_right (by simp))
    exact hbase
  | @pass _ base _ _ _ _ hp _ ih =>
    refine ih ?_ hd
    cases hp with
    | stay => exact hbase
    | up =>
      by_cases hroot : base.dropLast = base
      · rwa [hroot]
      · exact ht.lookup_prefix List.nil_prefix (List.dropLast_prefix base) hroot hbase
    | down _ hl => exact hl
  | through _ _ _ _ ih =>
    refine ih ?_ hd
    rw [origin]
    split
    · rfl
    · exact hbase
  | free =>
    obtain ⟨name, hd⟩ := hd.resolve_left (by simp)
    obtain ⟨rfl, -⟩ := Target.vacant.inj hd
    exact hbase
  | stop _ _ hfile => exact absurd (Target.found.inj (hd.resolve_right (by simp))).2 hfile

namespace Grounded

variable (ht : t.Grounded)
include ht

theorem lookup_origin (text : ByteString) : t.lookup (origin text t.here) = some .directory := by
  rw [origin]
  split
  · rfl
  · exact ht.here

/-- What is made at a free name stands in a directory. -/
theorem insert (hr : t.resolve p last = .ok (.vacant d name)) (e : Entry) :
    (t.insert (d ++ [name]) e).Grounded := by
  have hway := (resolve_eq_ok_iff.1 hr).2
  have hfree := hway.lookup_vacant
  have hdir := hway.lookup_directory ht.everywhere (ht.lookup_origin p.text) (.inr ⟨name, rfl⟩)
  refine ⟨ht.everywhere.insert (fun _ => hdir) (by simp [hfree]), ?_⟩
  change (t.insert (d ++ [name]) e).lookup t.here = _
  rw [lookup_insert _ _ _ (by simp), if_neg, ht.here]
  intro hhere
  rw [← hhere, ht.here] at hfree
  cases hfree

theorem makeDirectory (h : t.makeDirectory p = .ok t') : t'.Grounded := by
  obtain ⟨d, name, hr, rfl⟩ := exists_of_makeDirectory h
  exact ht.insert hr .directory

theorem makeDirectories (p : Path) : (t.makeDirectories p).2.Grounded :=
  makeDirectories_keeps p (fun _ _ _ _ ht h => ht.makeDirectory h) ht

theorem createFile (h : t.createFile p = .ok t') : t'.Grounded := by
  obtain ⟨d, name, hr, rfl⟩ := exists_of_createFile h
  exact ht.insert hr _

end Grounded

/-! ### Names that lead down -/

/-- Where nothing but directories is on the way down to a file, its names lead there. -/
theorem Leads.down (hnames : ∀ name ∈ names, IsEntryName name) (hne : names ≠ [])
    (hdirs : ∀ k, k <+: names → k ≠ [] → k ≠ names → t.lookup (base ++ k) = some .directory)
    (hfile : t.lookup (base ++ names) = some (.file content executable)) :
    Leads t last links base names (.found (base ++ names) (.file content executable)) := by
  induction names generalizing base with
  | nil => exact absurd rfl hne
  | cons name names ih =>
    rw [List.forall_mem_cons] at hnames
    cases names with
    | nil => exact .stop hnames.1 hfile (by simp) (by simp)
    | cons next rest =>
      rw [List.append_cons] at hfile ⊢
      refine .pass (.down hnames.1 (hdirs [name] ⟨_, rfl⟩ (by simp) (by simp))) ?_
      refine ih hnames.2 (by simp) (fun k hk hne hne' => ?_) hfile
      rw [← List.append_cons]
      exact hdirs (name :: k) ((List.cons_prefix_cons).2 ⟨rfl, hk⟩) (by simp) (by simpa using hne')

/-- Directories lead down to a directory. -/
theorem Leads.downDirectories (hnames : ∀ name ∈ names, IsEntryName name)
    (hdirs : ∀ k, k <+: names → k ≠ [] → t.lookup (base ++ k) = some .directory) :
    Leads t last links base names (.found (base ++ names) .directory) := by
  induction names generalizing base with
  | nil =>
    rw [List.append_nil]
    exact .here
  | cons name names ih =>
    rw [List.forall_mem_cons] at hnames
    rw [List.append_cons]
    refine .pass (.down hnames.1 (hdirs [name] ⟨_, rfl⟩ (by simp))) ?_
    refine ih hnames.2 fun k hk hne => ?_
    rw [← List.append_cons]
    exact hdirs (name :: k) ((List.cons_prefix_cons).2 ⟨rfl, hk⟩) (by simp)

theorem namesOf_intercalate (h : ∀ name ∈ l, Path.IsName name) :
    namesOf ("/".intercalate l) = l := by
  induction l with
  | nil => rfl
  | cons name l ih =>
    rw [List.forall_mem_cons] at h
    cases l with
    | nil => rw [String.intercalate_singleton, Workspace.namesOf_name h.1]
    | cons next l =>
      rw [String.intercalate_cons_cons, namesOf_append_slash, Workspace.namesOf_name h.1, ih h.2]
      rfl

theorem intercalate_ne_nil (h : ∀ name ∈ l, Path.IsName name) (hne : l ≠ []) :
    ("/".intercalate l).toList ≠ [] := by
  intro hempty
  have hnames := namesOf_intercalate h
  rw [String.toList_inj.1 (hempty.trans String.toList_empty.symm), namesOf_empty] at hnames
  exact hne hnames.symm

/-- No slash is at the end of names with slashes between them. -/
theorem getLast_intercalate (h : ∀ name ∈ l, Path.IsName name) :
    ("/".intercalate l).toList.getLast? ≠ some '/' := by
  induction l with
  | nil => decide
  | cons name l ih =>
    rw [List.forall_mem_cons] at h
    cases l with
    | nil =>
      rw [String.intercalate_singleton]
      exact fun hlast => h.1.1 (List.mem_of_getLast? hlast)
    | cons next l =>
      rw [String.intercalate_cons_cons, String.toList_append,
        List.getLast?_append_of_ne_nil _ (intercalate_ne_nil h.2 (by simp))]
      exact ih h.2

/-- The absolute path of a file leads to it. -/
theorem eq_of_find_pathOf (hnames : ∀ name ∈ l, IsProperName name)
    (hdirs : ∀ k, k <+: l → k ≠ l → t.lookup k = some .directory)
    (hfile : t.lookup l = some (.file content executable)) {l' : Location}
    (h : t.find (pathOf l) last = .ok (l', e)) : l' = l := by
  have hne : l ≠ [] := by
    rintro rfl
    cases hfile
  have hname : ∀ name ∈ l, Path.IsName name := fun name hn => (hnames name hn).isName
  have htext : (pathOf l).text = "" ++ "/" ++ "/".intercalate l := by
    rw [pathOf, String.empty_append]
  have horigin : origin (pathOf l).text t.here = [] := by
    rw [origin, if_pos]
    simp [pathOf, String.toList_append]
  have hsteps : steps (pathOf l).text = l := by
    have hlast : (pathOf l).text.toList.getLast? ≠ some '/' := by
      rw [htext, String.toList_append,
        List.getLast?_append_of_ne_nil _ (intercalate_ne_nil hname hne)]
      exact getLast_intercalate hname
    rw [steps_eq, lastStep, if_neg hlast, List.append_nil, htext, namesOf_append_slash,
      namesOf_intercalate hname]
    rfl
  have hway := (resolve_eq_ok_iff.1 (find_eq_ok_iff.1 h)).2
  rw [horigin, hsteps] at hway
  have hdown : Leads t last maxLinks [] l (.found ([] ++ l) (.file content executable)) :=
    .down (fun name hn => (hnames name hn).isEntryName) hne (fun k hk _ hk' => hdirs k hk hk') hfile
  exact (Target.found.inj (Leads.unique hway hdown)).1

end TestBench.FileTree
