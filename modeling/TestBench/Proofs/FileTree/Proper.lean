import Mathlib.Data.List.Nodup
import TestBench.Proofs.FileTree.Part

/-!
# Proper file trees

The trees of a real system are *proper*: what stands in them has names that the system lets have,
no place is taken twice, and no link holds a zero byte. Whatever is put into a proper tree where a
path leads has a proper name as well, since its steps are what stands between the slashes of a
text (`Leads.proper`). So every request leaves a proper tree proper.

* `Proper.lookup_iff`: in a proper tree, what is found at a place is what is listed for it;
* `Proper.makeDirectories`, `Proper.writeFile`, `Proper.removeTree` and the like: requests keep
  trees proper.
-/

namespace TestBench.FileTree

variable {t t' : FileTree} {p : Path} {last : Bool} {links : Nat} {base d l top : Location}
  {name : ByteString} {way : List ByteString} {e : Entry} {target : Target}

/-- Whether a name is one that an entry of a directory may have. -/
structure IsProperName (name : ByteString) : Prop where
  isName : Path.IsName name
  zero : Char.ofNat 0 ∉ name.toList
  size : name.length ≤ maxNameBytes

instance (name : ByteString) : Decidable (IsProperName name) :=
  decidable_of_iff (Path.IsName name ∧ Char.ofNat 0 ∉ name.toList ∧
      name.length ≤ maxNameBytes)
    ⟨fun h => ⟨h.1, h.2.1, h.2.2⟩, fun h => ⟨h.isName, h.zero, h.size⟩⟩

theorem IsProperName.isEntryName (h : IsProperName name) : IsEntryName name :=
  ⟨h.isName.2.2.1, h.isName.2.2.2, h.size⟩

/-- Whether a tree is one that a real system may have. -/
structure Proper (t : FileTree) : Prop where
  here : ∀ name ∈ t.here, IsProperName name
  names : ∀ p ∈ t.entries, ∀ name ∈ p.1, IsProperName name
  keys : (t.entries.map Prod.fst).Nodup
  links : ∀ p ∈ t.entries, ∀ text, p.2 = .link text → Char.ofNat 0 ∉ text.toList

/-! ### What is found and what is listed -/

theorem mem_of_entryAt {es : List (Location × Entry)} (h : entryAt es l = some e) :
    (l, e) ∈ es := by
  induction es with
  | nil => cases h
  | cons p es ih =>
    obtain ⟨k, e'⟩ := p
    rw [entryAt] at h
    split at h
    next hk =>
      obtain rfl := Option.some.inj h
      exact hk ▸ List.mem_cons_self
    next => exact List.mem_cons_of_mem _ (ih h)

theorem entryAt_of_mem {es : List (Location × Entry)} (hk : (es.map Prod.fst).Nodup)
    (h : (l, e) ∈ es) : entryAt es l = some e := by
  induction es with
  | nil => cases h
  | cons p es ih =>
    obtain ⟨k, e'⟩ := p
    rw [List.map_cons, List.nodup_cons] at hk
    rw [entryAt]
    rcases List.mem_cons.1 h with h | h
    · obtain ⟨rfl, rfl⟩ := Prod.mk.inj h
      exact if_pos rfl
    · have hne : k ≠ l := by
        rintro rfl
        exact hk.1 (List.mem_map.2 ⟨_, h, rfl⟩)
      rw [if_neg hne, ih hk.2 h]

theorem mem_of_lookup (hl : l ≠ []) (h : t.lookup l = some e) : (l, e) ∈ t.entries := by
  rw [lookup, if_neg hl] at h
  exact mem_of_entryAt h

/-- In a proper tree, what is found at a place is what is listed for it. -/
theorem Proper.lookup_iff (ht : t.Proper) (hl : l ≠ []) :
    t.lookup l = some e ↔ (l, e) ∈ t.entries := by
  refine ⟨mem_of_lookup hl, fun h => ?_⟩
  rw [lookup, if_neg hl]
  exact entryAt_of_mem ht.keys h

/-- The order in which the entries of a proper tree are listed does not matter. -/
theorem Proper.of_perm (ht : t.Proper) (hhere : t'.here = t.here)
    (hperm : t'.entries.Perm t.entries) : t'.Proper where
  here := hhere ▸ ht.here
  names p hp := ht.names p (hperm.mem_iff.1 hp)
  keys := (hperm.map Prod.fst).nodup_iff.2 ht.keys
  links p hp := ht.links p (hperm.mem_iff.1 hp)

theorem Proper.lookup_of_perm (ht : t.Proper) (hhere : t'.here = t.here)
    (hperm : t'.entries.Perm t.entries) : t'.lookup = t.lookup := by
  funext l
  by_cases hl : l = []
  · rw [lookup, lookup, if_pos hl, if_pos hl]
  · refine Option.ext fun e => ?_
    rw [ht.lookup_iff hl, (ht.of_perm hhere hperm).lookup_iff hl, hperm.mem_iff]

/-! ### Where ways lead in proper trees -/

/-- Whether a step may stand between the slashes of a path. -/
structure IsStep (name : ByteString) : Prop where
  slash : '/' ∉ name.toList
  zero : Char.ofNat 0 ∉ name.toList
  nonempty : name ≠ ""

theorem IsStep.isProperName (h : IsStep name) (hn : IsEntryName name) : IsProperName name :=
  ⟨⟨h.slash, h.nonempty, hn.1, hn.2.1⟩, h.zero, hn.2.2⟩

theorem isStep_of_mem_steps {text : ByteString} (hz : Char.ofNat 0 ∉ text.toList)
    (h : name ∈ steps text) : IsStep name := by
  rw [steps_eq, List.mem_append] at h
  rcases h with h | h
  · obtain ⟨piece, hp, rfl⟩ := List.mem_map.1 h
    obtain ⟨hp, hne⟩ := List.mem_filter.1 hp
    constructor
    · rw [String.toList_ofList]
      intro hs
      exact absurd (Text.forall_mem_piecesBy hp '/' hs) (by decide)
    · rw [String.toList_ofList]
      exact fun hs => hz (Text.mem_of_mem_piecesBy hp hs)
    · rintro h
      have := congrArg String.toList h
      simp_all
  · rw [lastStep] at h
    split at h
    · rw [List.mem_singleton.1 h]
      exact ⟨by decide, by decide, by decide⟩
    · exact absurd h List.not_mem_nil

theorem Proper.of_lookup (ht : t.Proper) (h : t.lookup l = some e) :
    ∀ name ∈ l, IsProperName name := by
  by_cases hl : l = []
  · rw [hl]
    exact fun name h => absurd h List.not_mem_nil
  · exact ht.names _ (mem_of_lookup hl h)

/-- A way in a proper tree leads to a place with proper names. -/
theorem Leads.proper (ht : t.Proper) (h : Leads t last links base way target)
    (hbase : ∀ name ∈ base, IsProperName name) (hway : ∀ name ∈ way, IsStep name) :
    ∀ name ∈ target.place, IsProperName name := by
  induction h with
  | here => exact hbase
  | pass hp _ ih =>
    rw [List.forall_mem_cons] at hway
    refine ih ?_ hway.2
    cases hp with
    | stay => exact hbase
    | up => exact fun name h => hbase name (List.dropLast_subset _ h)
    | down _ hl => exact ht.of_lookup hl
  | @through _ base name text rest _ hn hl _ _ ih =>
    rw [List.forall_mem_cons] at hway
    have htext := ht.links _ (mem_of_lookup (by simp) hl) text rfl
    refine ih ?_ fun name h => ?_
    · rw [origin]
      split
      · exact fun name h => absurd h List.not_mem_nil
      · exact hbase
    · rcases List.mem_append.1 h with h | h
      · exact isStep_of_mem_steps htext h
      · exact hway.2 name h
  | free hn _ =>
    rw [List.forall_mem_cons] at hway
    rw [Target.place, List.forall_mem_append]
    exact ⟨hbase, by simpa using hway.1.isProperName hn⟩
  | stop _ hl => exact ht.of_lookup hl

theorem Proper.of_resolve (ht : t.Proper) (h : t.resolve p last = .ok target) :
    ∀ name ∈ target.place, IsProperName name := by
  obtain ⟨htext, h⟩ := resolve_eq_ok_iff.1 h
  refine h.proper ht ?_ fun name hn => isStep_of_mem_steps htext.1 hn
  rw [origin]
  split
  · exact fun name h => absurd h List.not_mem_nil
  · exact ht.here

/-! ### Changes -/

theorem mem_putEntry {es : List (Location × Entry)} {q : Location × Entry}
    (h : q ∈ putEntry l e es) : q = (l, e) ∨ q ∈ es := by
  induction es with
  | nil => exact .inl (List.mem_singleton.1 h)
  | cons p es ih =>
    rw [putEntry] at h
    split at h <;> rcases List.mem_cons.1 h with rfl | h
    · exact .inl rfl
    · exact .inr (List.mem_cons_of_mem _ h)
    · exact .inr List.mem_cons_self
    · exact (ih h).imp_right (List.mem_cons_of_mem _)

/-- A place that is not taken is added at the end. -/
theorem keys_putEntry (es : List (Location × Entry)) (l : Location) (e : Entry) :
    (putEntry l e es).map Prod.fst =
      if l ∈ es.map Prod.fst then es.map Prod.fst else es.map Prod.fst ++ [l] := by
  induction es with
  | nil => rfl
  | cons p es ih =>
    obtain ⟨k, e'⟩ := p
    rw [putEntry]
    by_cases hk : k = l
    · simp [hk]
    · simp only [if_neg hk, List.map_cons, ih, List.mem_cons, Ne.symm hk, false_or]
      split <;> rfl

theorem Proper.insert (ht : t.Proper) (hl : ∀ name ∈ l, IsProperName name)
    (he : ∀ text, e = .link text → Char.ofNat 0 ∉ text.toList) : (t.insert l e).Proper where
  here := ht.here
  names p hp := by
    rcases mem_putEntry hp with rfl | hp
    · exact hl
    · exact ht.names p hp
  keys := by
    rw [FileTree.insert, keys_putEntry]
    split
    next => exact ht.keys
    next hnew =>
      refine List.nodup_append.2 ⟨ht.keys, List.nodup_singleton l, ?_⟩
      rintro k hk _ hl rfl
      exact hnew (List.mem_singleton.1 hl ▸ hk)
  links p hp := by
    rcases mem_putEntry hp with rfl | hp
    · exact he
    · exact ht.links p hp

theorem Proper.filter (ht : t.Proper) (keep : Location × Entry → Bool) :
    Proper { t with entries := t.entries.filter keep } where
  here := ht.here
  names p hp := ht.names p (List.mem_filter.1 hp).1
  keys := (List.Sublist.map _ List.filter_sublist).nodup ht.keys
  links p hp := ht.links p (List.mem_filter.1 hp).1

theorem Proper.erase (ht : t.Proper) (l : Location) : (t.erase l).Proper :=
  ht.filter _

theorem Proper.eraseBelow (ht : t.Proper) (top : Location) : (t.eraseBelow top).Proper :=
  ht.filter _

/-! ### Requests -/

namespace Proper

theorem makeDirectory (ht : t.Proper) (h : t.makeDirectory p = .ok t') : t'.Proper := by
  obtain ⟨d, name, hr, rfl⟩ := exists_of_makeDirectory h
  exact ht.insert (ht.of_resolve hr) (by simp)

theorem makeDirectories (ht : t.Proper) (p : Path) : (t.makeDirectories p).2.Proper :=
  makeDirectories_keeps p (fun _ _ _ _ ht h => ht.makeDirectory h) ht

theorem createFile (ht : t.Proper) (h : t.createFile p = .ok t') : t'.Proper := by
  obtain ⟨d, name, hr, rfl⟩ := exists_of_createFile h
  exact ht.insert (ht.of_resolve hr) (by simp)

theorem writeFile (ht : t.Proper) {content : List UInt8} (h : t.writeFile p content = .ok t') :
    t'.Proper := by
  obtain ⟨target, executable, hr, rfl, -⟩ := exists_of_writeFile h
  exact ht.insert (ht.of_resolve hr) (by simp)

theorem removeFile (ht : t.Proper) (h : t.removeFile p = .ok t') : t'.Proper := by
  rw [FileTree.removeFile] at h
  split at h
  · cases h
  · cases h
  · exact Except.ok.inj h ▸ ht.erase _

theorem removeTree (ht : t.Proper) (p : Path) : (t.removeTree p).2.Proper := by
  rcases exists_of_removeTree t p with h | ⟨l, e, -, -, h | h | h⟩
  · rwa [h]
  · rw [h]
    exact ht.erase l
  · rw [h]
    exact ht.eraseBelow l
  · rw [h]
    exact (ht.eraseBelow l).erase l

end Proper

end TestBench.FileTree
