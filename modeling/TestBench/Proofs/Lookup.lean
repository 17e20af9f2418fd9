import TestBench.Lookup
import TestBench.Proofs.FileTree.Part

/-!
# What looking up a file gives

Looking up a file only reads and reports, so that what it gives is a function of the files
(`outcome`). What is found are the files below the directory whose names have the extension, as far
as the directories on the way to them are listed.

* `run_locate`: looking up a file gives its outcome;
* `mem_found`: what is found;
* `exists_file`: what is looked up is a file below the directory, with the extension.
-/

namespace TestBench.Lookup

variable {σ : Type} {t : FileTree} {l : Location} {root p : Path} {name extension : String}
  {ps : List Path}

/-- What looking up a source file gives, which is a matter of the files alone. -/
def outcome (t : FileTree) (root : Path) (name extension : String) : Except Halt Path :=
  match t.directory root with
  | .error fault => .error (.failure (.io fault))
  | .ok l =>
    match choose (.ofText name) (found t l root (.ofText extension)) with
    | none => .error (.failure (.noSuchFile root extension))
    | some p => .ok p

theorem run_locate (root : Path) (name extension : String) (w : World σ) :
    ∃ events, (locate root name extension).run w =
      (outcome w.files root name extension, { w with events }) := by
  simp only [locate, outcome, Action.run_bind, Action.ask, Action.files, Action.report,
    Action.reportAll, Action.run_ofFunction]
  cases w.files.directory root with
  | error fault => exact ⟨_, rfl⟩
  | ok l =>
    simp only
    cases choose (.ofText name) (found w.files l root (.ofText extension)) with
    | none => exact ⟨_, rfl⟩
    | some p =>
      simp only
      split
      · exact ⟨_, rfl⟩
      · exact ⟨_, rfl⟩

theorem fst_run_locate (root : Path) (name extension : String) (w : World σ) :
    ((locate root name extension).run w).1 = outcome w.files root name extension := by
  obtain ⟨events, h⟩ := run_locate root name extension w
  rw [h]

/-- What is chosen, by its name or as the first, is one of those that were found. -/
theorem mem_of_choose {name : ByteString} (h : choose name ps = some p) : p ∈ ps := by
  unfold choose at h
  split at h
  next q hq => exact Option.some.inj h ▸ List.mem_of_find?_eq_some hq
  next => exact List.mem_of_mem_head? h

/-- What is found are the files with the extension in directories that are listed. -/
theorem mem_found {extension : ByteString} :
    p ∈ found t l root extension ↔ ∃ names content executable, names ≠ [] ∧
      (l ++ names, .file content executable) ∈ t.entries ∧ isReached root names ∧
      p = names.foldl Path.join root ∧ p.extension? = some extension := by
  rw [found, List.mem_mergeSort]
  constructor
  · intro h
    obtain ⟨⟨names, e⟩, hd, hp⟩ := List.mem_filterMap.1 h
    obtain ⟨⟨k, e'⟩, hk, hkd⟩ := List.mem_filterMap.1 hd
    split at hkd
    next hbelow =>
      obtain ⟨⟨rest, rfl⟩, hne⟩ := FileTree.isBelow_iff.1 hbelow
      obtain ⟨rfl, rfl⟩ := Prod.mk.inj (Option.some.inj hkd)
      rw [List.drop_left] at hp
      dsimp only at hp
      split at hp
      next hreached =>
        -- Only files with the extension are looked at.
        cases e' with
        | file content executable =>
          simp only [pathWith?] at hp
          split at hp
          next hext =>
            obtain rfl := Option.some.inj hp
            exact ⟨rest, content, executable, by simpa using hne, hk, hreached, rfl, hext⟩
          next => cases hp
        | directory | link text => cases hp
      next => cases hp
    next => cases hkd
  · rintro ⟨names, content, executable, hne, hmem, hreached, rfl, hext⟩
    refine List.mem_filterMap.2 ⟨(names, .file content executable), ?_, ?_⟩
    · refine List.mem_filterMap.2 ⟨_, hmem, ?_⟩
      rw [if_pos (FileTree.isBelow_iff.2 ⟨List.prefix_append _ _, by simpa using hne⟩),
        List.drop_left]
    · dsimp only
      rw [if_pos hreached, pathWith?]
      exact if_pos hext

/-- What is looked up is a file below the directory, with the extension. -/
theorem exists_file (h : outcome t root name extension = .ok p) :
    ∃ l names content executable, t.directory root = .ok l ∧ names ≠ [] ∧
      p = names.foldl Path.join root ∧ p.extension? = some (.ofText extension) ∧
      (l ++ names, .file content executable) ∈ t.entries := by
  unfold outcome at h
  split at h
  · cases h
  next l hl =>
  split at h
  · cases h
  next q hq =>
  obtain rfl := Except.ok.inj h
  obtain ⟨names, content, executable, hne, hmem, -, hp, hext⟩ := mem_found.1 (mem_of_choose hq)
  exact ⟨l, names, content, executable, hl, hne, hp, hext, hmem⟩

end TestBench.Lookup
