import TestBench.Proofs.Check
import TestBench.Proofs.Lookup.Choice

/-!
# Names that are accepted, and names that are found

A description of a project names the files that are looked up, and a name is accepted by what it
says of itself, before there are any files. That does not lead astray: a file with an accepted name
has the extension of the files that are looked up, so that it is given whenever it is there, and
the name of a file that is given would be accepted.

* `exists_fileName`: what is given has a name with the extension;
* `locate_accepted`: what is accepted is found, and what is found is accepted.
-/

namespace TestBench.Lookup

open FileTree

variable {σ : Type} {t : FileTree} {l : Location} {root p : Path} {field name extension : String}
  {names : List ByteString}

/-- What is given has a name that a file may have, with the extension. -/
theorem exists_fileName (ht : t.Proper) (hg : t.Grounded)
    (h : outcome t root name extension = .ok p) :
    ∃ given, p.fileName? = some given ∧ IsProperName given ∧
      HasExtension given (.ofText extension) := by
  obtain ⟨l, -, -, -, hroot, -⟩ := exists_file h
  rcases outcome_of_directory ht hg hroot name extension with ⟨-, h'⟩ | ⟨names, hchosen, h'⟩
  · rw [h] at h'
    cases h'
  · rw [h] at h'
    obtain rfl := Except.ok.inj h'
    have hnames := hchosen.candidate
    obtain ⟨given, hlast, hext⟩ := hnames.extension
    refine ⟨given, ?_, hnames.isProperName ht given (List.mem_of_getLast? hlast), hext⟩
    rw [Path.fileName?_foldl_join (hnames.isName ht) hnames.ne_nil, hlast]

/-- A candidate with the name makes what is given have the name. -/
theorem fileName?_of_candidate (ht : t.Proper) (hg : t.Grounded) (hroot : t.directory root = .ok l)
    (h : Candidate t l root (.ofText extension) names)
    (hlast : names.getLast? = some (.ofText name)) :
    ∃ p, outcome t root name extension = .ok p ∧ p.fileName? = some (.ofText name) := by
  rcases outcome_of_directory ht hg hroot name extension with ⟨hnone, -⟩ | ⟨given, hchosen, h'⟩
  · exact absurd ⟨names, h⟩ hnone
  · have hnamed := hchosen.resolve_right fun hnot => hnot.1 ⟨names, h, hlast⟩
    refine ⟨_, h', ?_⟩
    rw [Path.fileName?_foldl_join (hchosen.candidate.isName ht) hchosen.candidate.ne_nil,
      hnamed.1.2]

/-- If a name is accepted and there is a file with it below a directory that can be listed, in
    directories that can be listed, looking it up gives a file with that name. And if a file is
    given, its name is accepted if it is a text, unless it has a backslash or is blank. -/
theorem locate_accepted (field : String) (root : Path) (extension : String) (world : World σ)
    (ht : world.files.Proper) (hg : world.files.Grounded) :
    (∀ name l names, Check.fileName field name extension = .ok () →
      world.files.directory root = .ok l → names.getLast? = some (.ofText name) →
      (∃ content executable,
        world.files.lookup (l ++ names) = some (.file content executable)) →
      (∀ front, front <+: names → front ≠ names →
        ∃ d, world.files.directory (front.foldl Path.join root) = .ok d) →
      ∃ p, ((locate root name extension).run world).1 = .ok p ∧
        p.fileName? = some (.ofText name)) ∧
    ∀ hint p, ((locate root hint extension).run world).1 = .ok p →
      ∃ given, p.fileName? = some given ∧ ∀ name, given = .ofText name →
        '\\' ∉ name.toList → ¬name.toList.all Text.isBlank →
          Check.fileName field name extension = .ok () := by
  simp only [fst_run_locate]
  constructor
  · intro name l names hcheck hroot hlast hfile hlisted
    have hname : IsProperName (.ofText name) := by
      obtain ⟨content, executable, hfile⟩ := hfile
      exact ht.of_lookup hfile _ (List.mem_append_right l (List.mem_of_getLast? hlast))
    have hext := ((Check.fileName_iff hname).1 hcheck).2.2
    exact fileName?_of_candidate ht hg hroot ⟨hfile, ⟨_, hlast, hext⟩, hlisted⟩ hlast
  · intro hint p hp
    obtain ⟨given, hgiven, hproper, hext⟩ := exists_fileName ht hg hp
    refine ⟨given, hgiven, ?_⟩
    rintro name rfl hslash hblank
    exact (Check.fileName_iff hproper).2 ⟨hblank, hslash, hext⟩

theorem accepted_nested : Check.fileName "unittest_c_file" "v.c" "c" = .ok () := by
  decide +kernel

/-- A file in a directory below is found by its name, which is accepted. -/
theorem locate_accepted_nested :
    nested.files.Proper ∧ nested.files.Grounded ∧
    Check.fileName "unittest_c_file" "v.c" "c" = .ok () ∧
    nested.files.directory ⟨"."⟩ = .ok [] ∧
    nested.files.lookup ["sub", "v.c"] = some (.file [] false) ∧
    (∀ front, front <+: ["sub", "v.c"] → front ≠ ["sub", "v.c"] →
      ∃ d, nested.files.directory (front.foldl Path.join ⟨"."⟩) = .ok d) ∧
    ∃ p name, ((locate ⟨"."⟩ "v.c" "c").run nested).1 = .ok p ∧ p.fileName? = some "v.c" ∧
      p.fileName? = some name ∧ '\\' ∉ name.toList ∧ ¬name.toList.all Text.isBlank ∧
      Check.fileName "unittest_c_file" name "c" = .ok () := by
  obtain ⟨hfound, haccepted⟩ :=
    locate_accepted "unittest_c_file" ⟨"."⟩ "c" nested proper_nested grounded_nested
  have hfile : nested.files.lookup ["sub", "v.c"] = some (.file [] false) := rfl
  have hlisted := fun front => @listed_nested front
  obtain ⟨p, hp, hname⟩ := hfound "v.c" [] ["sub", "v.c"] accepted_nested directory_nested rfl
    ⟨[], false, hfile⟩ hlisted
  have hslash : '\\' ∉ ("v.c" : String).toList := by decide
  have hblank : ¬("v.c" : String).toList.all Text.isBlank := by decide
  obtain ⟨name, hname', hcheck⟩ := haccepted "v.c" p hp
  obtain rfl := Option.some.inj (hname.symm.trans hname')
  exact ⟨proper_nested, grounded_nested, accepted_nested, directory_nested, hfile, hlisted,
    p, "v.c", hp, hname, hname, hslash, hblank, hcheck "v.c" rfl hslash hblank⟩

/-- A file with an accepted name is not found, though it is there, if the directory that it is in
    cannot be listed by its path. -/
theorem not_found_dotSlashes :
    nested.files.Proper ∧ nested.files.Grounded ∧
    Check.fileName "unittest_c_file" "v.c" "c" = .ok () ∧
    nested.files.directory (dotSlashes 4094) = .ok [] ∧
    nested.files.lookup ["sub", "v.c"] = some (.file [] false) ∧
    ∃ p, ((locate (dotSlashes 4094) "v.c" "c").run nested).1 = .ok p ∧
      p.fileName? = some "other.c" := by
  have hroot : nested.files.directory (dotSlashes 4094) = .ok [] :=
    directory_dotSlashes (by decide)
  refine ⟨proper_nested, grounded_nested, accepted_nested, hroot, rfl, _, ?_,
    Path.fileName?_join (dotSlashes 4094) (by decide)⟩
  rw [fst_run_locate, outcome_dotSlashes (by decide) (by decide)]

end TestBench.Lookup
