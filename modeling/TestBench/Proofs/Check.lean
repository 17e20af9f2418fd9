import TestBench.Check
import TestBench.Proofs.FileTree.Proper
import TestBench.Proofs.Path.Names

/-!
# Names that are accepted

The names in a description of a project are checked as texts. What is accepted for the name of a
directory leads one directory down; and of the names that a file may have, those are accepted that
have the extension, as far as they say something and have no backslash.

* `isName_of_directoryName`: which names of directories are accepted;
* `fileName_iff`: which names of files are accepted.
-/

namespace TestBench.Check

open FileTree

variable {field name value extension : String}

theorem isName_of_directoryName {field value : String}
    (h : directoryName field value = .ok ()) : Path.IsName (.ofText value) := by
  rw [Path.isName_ofText_iff]
  unfold directoryName refuse at h
  split at h
  · simp at h
  next hblank =>
    split at h
    · simp at h
    next hname =>
      simp only [Bool.or_eq_true, List.any_eq_true, beq_iff_eq, not_or, not_exists,
        not_and] at hname
      refine ⟨fun hs => (hname.1.1 _ hs).1 rfl, ?_, hname.1.2, hname.2⟩
      rintro rfl
      exact hblank rfl

/-- A name that a file may have is accepted if it has the extension, is not blank and has no
    backslash. -/
theorem fileName_iff (hname : IsProperName (.ofText name)) :
    fileName field name extension = .ok () ↔
      ¬name.toList.all Text.isBlank ∧ '\\' ∉ name.toList ∧
        HasExtension (.ofText name) (.ofText extension) := by
  have hfileName : (Path.ofText name).fileName? = some (.ofText name) := by
    rw [Path.ofText, Path.fileName?, Path.components_name hname.isName]
    rfl
  have hseparates : ¬name.toList.any separates ↔ '\\' ∉ name.toList := by
    simp only [List.any_eq_true, not_exists, not_and, separates, Bool.or_eq_true,
      beq_iff_eq, not_or]
    constructor
    · exact fun h hmem => (h _ hmem).1.2 rfl
    · rintro h c hmem
      refine ⟨⟨?_, ?_⟩, ?_⟩ <;> rintro rfl
      · exact (Path.isName_ofText_iff.1 hname.isName).1 hmem
      · exact h hmem
      · exact hname.zero ((ByteString.mem_ofText_iff (by decide)).2 hmem)
  rw [fileName_eq_ok_iff, hseparates, Path.extension?_eq_some_iff, hfileName]
  simp

end TestBench.Check
