import TestBench.Proofs.Lookup.Choice
import TestBench.Proofs.Project.Keeping
import TestBench.Proofs.Project.Sources
import TestBench.Proofs.Template
import TestBench.Proofs.Text.Decoding

/-!
# What generating writes

Generating a test module changes nothing until the module is composed, and then it writes one file.
So it either leaves all files as they were, or it changes one (`IsWritten`), and then the module is
composed of the two files that are looked up and of the template (`Composes`). The file that is read
is the one that was looked up, although it is read under its absolute path: everything on the way
down from a directory to a file that is found in it is a directory, so no link leads astray. The
module is named after the implementation, and tells its name, as far as that name is a text.

* `eq_of_find_foldl_join`: the path of a file that was found leads to it;
* `composes_of_composed`: what a test module is composed of;
* `generate_writes`: what generating changes;
* `named_otherwise`: a name that is no text.
-/

namespace TestBench

open FileTree

variable {σ : Type} {s : Settings} {t t' : FileTree} {l l' : Location} {root clone p : Path}
  {name extension : String} {given : ByteString} {names : List ByteString} {e : Entry}
  {bytes : List UInt8} {executable : Bool}

/-! ### Reading a file that was looked up -/

namespace Lookup

/-- The path of a file that was found below a directory leads to it. -/
theorem eq_of_find_foldl_join (ht : t.Proper) (hg : t.Grounded) (hroot : t.directory root = .ok l)
    (hne : names ≠ []) (hfile : t.lookup (l ++ names) = some (.file bytes executable))
    (hfind : t.find (names.foldl Path.join root) true = .ok (l', e)) : l' = l ++ names := by
  have hnames : ∀ name ∈ names, IsProperName name := fun name hname =>
    ht.of_lookup hfile name (List.mem_append_right l hname)
  obtain ⟨hsteps, horigin⟩ :=
    Workspace.steps_foldl_join (fun name hname => (hnames name hname).isName) hne root
  have hway := (resolve_eq_ok_iff.1 (find_eq_ok_iff.1 hfind)).2
  rw [hsteps, horigin] at hway
  obtain ⟨d, links, hfront, hdown⟩ := hway.exists_of_append hne
  have hrootAt := ((Workspace.directory_root_iff (w := ⟨root, "", ""⟩)).1 hroot).2
  obtain rfl : d = l := (Target.found.inj (Leads.unique hfront hrootAt)).1
  have hstraight : Leads t true links d names (.found (d ++ names) (.file bytes executable)) := by
    refine .down (fun name hname => (hnames name hname).isEntryName) hne ?_ hfile
    intro k hk _ hk'
    refine hg.everywhere.lookup_prefix List.nil_prefix ((List.prefix_append_right_inj d).2 hk) ?_
      hfile
    rwa [Ne, List.append_cancel_left_eq]
  exact (Target.found.inj (Leads.unique hdown hstraight)).1

/-- Whether a file is the one that is given when a name is looked up below a directory: what its
    own name is, and what is in it. -/
def IsGiven (t : FileTree) (root : Path) (name extension : String) (given : ByteString)
    (bytes : List UInt8) : Prop :=
  ∃ l names executable, t.directory root = .ok l ∧
    IsChosen t l root (.ofText name) (.ofText extension) names ∧
    names.getLast? = some given ∧ t.lookup (l ++ names) = some (.file bytes executable)

end Lookup

/-- The components of an absolute path are the names that lead to the place. -/
theorem FileTree.components_pathOf (hnames : ∀ name ∈ l, Path.IsName name) :
    (pathOf l).components = .root :: l.map .normal := by
  have hbody : Path.bodyComponents ("/".intercalate l).toList = l.map .normal := by
    induction l with
    | nil => rfl
    | cons name l ih =>
      rw [List.forall_mem_cons] at hnames
      cases l with
      | nil => rw [String.intercalate_singleton, Path.bodyComponents_name hnames.1]; rfl
      | cons next l =>
        have htext : ("/".intercalate (name :: next :: l)).toList =
            name.toList ++ '/' :: ("/".intercalate (next :: l)).toList := by
          simp [String.intercalate_cons_cons, String.toList_append]
        rw [htext, Path.bodyComponents_append, Path.bodyComponents_name hnames.1, ih hnames.2]
        rfl
  have htext : (pathOf l).text.toList = '/' :: ("/".intercalate l).toList := by
    simp [pathOf, String.toList_append]
  rw [Path.components_eq, htext, Path.bodyComponents_slash, hbody]
  rfl

/-- Bytes that are read are what is in a file. -/
theorem FileTree.exists_of_readBytes (h : t.readBytes p = .ok bytes) :
    ∃ l executable, t.find p true = .ok (l, .file bytes executable) ∧
      t.lookup l = some (.file bytes executable) := by
  rw [readBytes] at h
  split at h
  · cases h
  next l content executable hfind =>
    obtain rfl := Except.ok.inj h
    exact ⟨l, executable, hfind, (resolve_eq_ok_iff.1 (find_eq_ok_iff.1 hfind)).2.lookup_file.2⟩
  · cases h

/-- What is read where a file was found below a directory is that file, and its stem is that of the
    last name. -/
theorem SourceFile.of_outcome {kind : SourceKind} {f : SourceFile} (ht : t.Proper) (hg : t.Grounded)
    (hroot : t.directory root = .ok l) (hlast : names.getLast? = some given)
    (hfile : t.lookup (l ++ names) = some (.file bytes executable))
    (hread : outcome t (names.foldl Path.join root) kind = .ok f) :
    f.stem = (ByteString.text? (String.ofList (splitExtension given.toList).1)).getD "module" ∧
      ∃ replaced, decode kind bytes = .ok (f.content, replaced) := by
  have hne : names ≠ [] := by
    rintro rfl
    cases hlast
  have hproper := ht.of_lookup hfile
  rw [outcome] at hread
  cases hfull : t.canonical (names.foldl Path.join root) with
  | error fault =>
    rw [hfull] at hread
    cases hread
  | ok full =>
  obtain rfl : full = pathOf (l ++ names) := by
    rw [canonical] at hfull
    cases hfind : t.find (names.foldl Path.join root) true with
    | error fault =>
      rw [hfind] at hfull
      cases hfull
    | ok found =>
      rw [hfind] at hfull
      rw [← Lookup.eq_of_find_foldl_join ht hg hroot hne hfile hfind]
      exact (Except.ok.inj hfull).symm
  rw [hfull] at hread
  dsimp only at hread
  cases hbytes : t.readBytes (pathOf (l ++ names)) with
  | error fault =>
    rw [hbytes] at hread
    cases hread
  | ok read =>
  -- The absolute path leads to the same file.
  obtain rfl : read = bytes := by
    obtain ⟨l', executable', hfind, hfile'⟩ := exists_of_readBytes hbytes
    have hdirs : ∀ k, k <+: l ++ names → k ≠ l ++ names → t.lookup k = some .directory :=
      fun k hk hk' => hg.everywhere.lookup_prefix List.nil_prefix hk hk' hfile
    obtain rfl := eq_of_find_pathOf hproper hdirs hfile hfind
    exact (Entry.file.inj (Option.some.inj (hfile'.symm.trans hfile))).1
  rw [hbytes] at hread
  dsimp only at hread
  cases hdecode : decode kind read with
  | error fault =>
    rw [hdecode] at hread
    cases hread
  | ok decoded =>
  obtain ⟨content, replaced⟩ := decoded
  rw [hdecode] at hread
  obtain rfl := Except.ok.inj hread
  have hname : (pathOf (l ++ names)).fileName? = some given := by
    obtain ⟨front, rfl⟩ := List.getLast?_eq_some_iff.1 hlast
    rw [Path.fileName?, components_pathOf fun name hn => (hproper name hn).isName,
      ← List.append_assoc, List.map_append, ← List.cons_append, List.getLast?_append_of_ne_nil]
    · rfl
    · exact List.cons_ne_nil _ _
  refine ⟨?_, replaced, rfl⟩
  rw [stem, Path.stem?, hname]
  rfl

/-- The stem of a name with an extension is what is in front of the dot. -/
theorem stem_of_hasExtension {extension : ByteString} (h : HasExtension given extension) :
    given = String.ofList (splitExtension given.toList).1 ++ "." ++ extension := by
  obtain ⟨stem, hstem, hname, hdot⟩ := h
  have hext : (splitExtension given.toList).2 = some extension.toList :=
    splitExtension_eq_some_iff.2 ⟨stem.toList, by simpa using hstem,
      by simp [hname, String.toList_append], hdot⟩
  apply String.toList_injective
  simpa [String.toList_append] using fileName?_eq_stem_extension (Prod.ext rfl hext)

/-- The text of a header is what the lenient reading makes of it. -/
theorem SourceFile.eq_of_decode_header {content : String} {replaced : Bool}
    (h : decode .header bytes = .ok (content, replaced)) : content = Utf8.lossy bytes := by
  unfold decode at h
  cases hread : Utf8.decode bytes with
  | ok text =>
    rw [hread] at h
    rw [Utf8.lossy_of_decode hread]
    exact (Prod.mk.inj (Except.ok.inj h)).1.symm
  | error fault =>
    rw [hread] at h
    exact (Prod.mk.inj (Except.ok.inj h)).1.symm

/-- The text of an implementation is what its bytes spell. -/
theorem SourceFile.decode_of_decode_implementation {content : String} {replaced : Bool}
    (h : decode .implementation bytes = .ok (content, replaced)) :
    Utf8.decode bytes = .ok content := by
  unfold decode at h
  cases hread : Utf8.decode bytes with
  | ok text =>
    rw [hread] at h
    exact congrArg Except.ok (Prod.mk.inj (Except.ok.inj h)).1
  | error fault =>
    rw [hread] at h
    cases h

/-! ### What a test module is composed of -/

namespace Project

/-- Whether a text is that of the template of a project, and an extension that of its test
    modules. -/
inductive HasTemplate (s : Settings) (t : FileTree) : String → String → Prop
  /-- The project names no template. -/
  | bundled (h : s.template = none) : HasTemplate s t Template.bundledText ".py"
  /-- The name of the template has an extension. -/
  | extended {p : Path} {text extension : String} (h : s.template = some p)
    (hread : t.readText p = .ok text) (hext : p.extension? = some (.ofText extension)) :
    HasTemplate s t text ("." ++ extension)
  /-- The name of the template has no extension, or none that is a text. -/
  | bare {p : Path} {text : String} (h : s.template = some p) (hread : t.readText p = .ok text)
    (hext : ∀ extension, p.extension? ≠ some (.ofText extension)) : HasTemplate s t text ""

/-- Whether a test module is composed of the implementation and the header that are looked up below
    a directory, and of the template. It is named after the implementation, unless the stem of that
    is no text, and has all of its bytes in it. -/
inductive Composes (s : Settings) (clone : Path) (t : FileTree) : TestModule → Prop
  | mk {stem headerName : ByteString} {implementation template extension content : String}
    {bytes headerBytes : List UInt8}
    (hsource : Lookup.IsGiven t clone s.implementation "c" (stem ++ ".c") bytes)
    (hheader : Lookup.IsGiven t clone s.header "h" headerName headerBytes)
    (hspells : Utf8.decode bytes = .ok implementation)
    (htemplate : HasTemplate s t template extension)
    (hjoins : synthesize template (Source.extract (Utf8.lossy headerBytes)).declarations
      implementation = .ok content)
    (hholds : bytes <:+: Utf8.encode content) :
    Composes s clone t
      ⟨"test_" ++ stem.text?.getD "module" ++ extension, content,
        ByteString.display (stem ++ ".c")⟩

theorem hasTemplate_of_template {found : String × String} (h : template s t = .ok found) :
    HasTemplate s t found.1 found.2 := by
  rw [template] at h
  split at h
  next hnone =>
    obtain rfl := Except.ok.inj h
    exact .bundled hnone
  next p hp =>
    split at h
    · cases h
    next text hread =>
      split at h
      next extension hext =>
        obtain rfl := Except.ok.inj h
        obtain ⟨found, hfound, htext⟩ := Option.bind_eq_some_iff.1 hext
        rw [ByteString.text?_eq_some_iff.1 htext] at hfound
        exact .extended hp hread hfound
      next hext =>
        obtain rfl := Except.ok.inj h
        refine .bare hp hread fun extension hfound => ?_
        rw [hfound, Option.bind_some, ByteString.text?_ofText] at hext
        cases hext

/-- The bytes of an implementation are in what is made of a template with it. -/
theorem infix_of_synthesize {template implementation content : String}
    {declarations : List Declaration}
    (h : synthesize template declarations implementation = .ok content) :
    Utf8.encode implementation <:+: Utf8.encode content := by
  have hinfix : ∀ a b : List Char, Utf8.encode implementation <:+:
      Utf8.encode (String.ofList (a ++ (implementation.toList ++ b))) := by
    intro a b
    rw [Utf8.encode_ofList, Utf8.encodeChars_append, Utf8.encodeChars_append,
      Utf8.encodeChars_toList]
    exact ⟨_, _, List.append_assoc _ _ _⟩
  have hcases := synthesis_synthesize template declarations implementation
  rw [h] at hcases
  generalize occurrences headerToken template.toList = hs at hcases
  generalize occurrences implementationToken template.toList = ks at hcases
  cases hcases with
  | headerFirst a b c _ => simpa only [List.append_assoc] using hinfix (a ++ (_ ++ b)) c
  | implementationFirst a b c _ => exact hinfix a (b ++ (_ ++ c))

/-- What is looked up below a directory is the file that is given. -/
theorem exists_isGiven {kind : SourceKind} {f : SourceFile} (ht : t.Proper) (hg : t.Grounded)
    (hp : Lookup.outcome t root name kind.extension = .ok p)
    (hread : SourceFile.outcome t p kind = .ok f) :
    ∃ stem : ByteString, f.stem = stem.text?.getD "module" ∧
      p.fileName? = some (stem ++ "." ++ .ofText kind.extension) ∧
      ∃ bytes, Lookup.IsGiven t root name kind.extension (stem ++ "." ++ .ofText kind.extension)
          bytes ∧
        ∃ replaced, SourceFile.decode kind bytes = .ok (f.content, replaced) := by
  cases hroot : t.directory root with
  | error fault =>
    rw [Lookup.outcome_of_noDirectory hroot] at hp
    cases hp
  | ok l =>
  rcases Lookup.outcome_of_directory ht hg hroot name kind.extension with
    ⟨-, hnone⟩ | ⟨names, hchosen, hsome⟩
  · rw [hnone] at hp
    cases hp
  rw [hsome] at hp
  obtain rfl := Except.ok.inj hp
  have hcandidate := hchosen.candidate
  obtain ⟨bytes, executable, hfile⟩ := hcandidate.file
  obtain ⟨given, hlast, hext⟩ := hcandidate.extension
  obtain ⟨hstem, hdecode⟩ := SourceFile.of_outcome ht hg hroot hlast hfile hread
  refine ⟨_, hstem, ?_, bytes, ?_, hdecode⟩
  · rw [← stem_of_hasExtension hext,
      Path.fileName?_foldl_join (hcandidate.isName ht) hcandidate.ne_nil, hlast]
  · rw [← stem_of_hasExtension hext]
    exact ⟨l, names, executable, hroot, hchosen, hlast, hfile⟩

theorem composes_of_composed (ht : t.Proper) (hg : t.Grounded) {made : TestModule × Nat}
    (h : composed s clone t = .ok made) : Composes s clone t made.1 := by
  rw [composed] at h
  obtain ⟨source, hsource, h⟩ := exists_of_bind_eq_ok h
  obtain ⟨headerSource, hheaderSource, h⟩ := exists_of_bind_eq_ok h
  obtain ⟨implementation, himplementation, h⟩ := exists_of_bind_eq_ok h
  obtain ⟨header, hheader, h⟩ := exists_of_bind_eq_ok h
  obtain ⟨found, hfound, h⟩ := exists_of_bind_eq_ok h
  obtain ⟨m, hm, h⟩ := exists_of_bind_eq_ok h
  obtain rfl := Except.ok.inj h
  obtain ⟨stem, hstem, hname, bytes, hgiven, replaced, hdecode⟩ :=
    exists_isGiven ht hg hsource himplementation
  obtain ⟨headerStem, -, -, headerBytes, hheaderGiven, headerReplaced, hheaderDecode⟩ :=
    exists_isGiven ht hg hheaderSource hheader
  have hspells := SourceFile.decode_of_decode_implementation hdecode
  have htemplate : HasTemplate s t found.1 found.2 := by
    cases hread : template s t with
    | error fault =>
      rw [hread] at hfound
      cases hfound
    | ok found' =>
      rw [hread] at hfound
      obtain rfl := Except.ok.inj hfound
      exact hasTemplate_of_template hread
  rw [moduleOf] at hm
  split at hm
  · cases hm
  next content hcontent =>
    obtain rfl := Except.ok.inj hm
    rw [SourceFile.eq_of_decode_header hheaderDecode] at hcontent
    have hholds := infix_of_synthesize hcontent
    rw [Utf8.encode_of_decode hspells] at hholds
    have hextension : stem ++ "." ++ .ofText SourceKind.implementation.extension =
        stem ++ ".c" := by
      have hc : ByteString.ofText SourceKind.implementation.extension = "c" :=
        ByteString.ofText_of_ascii (by decide)
      rw [hc, String.append_assoc]
      rfl
    rw [hextension] at hname hgiven
    rw [hname, hstem]
    exact .mk hgiven hheaderGiven hspells htemplate hcontent hholds

end Project

/-! ### What is written -/

/-- Whether a tree is another one in which the file that a path leads to was written, or made if
    there is none: nothing else has changed. -/
def FileTree.IsWritten (t : FileTree) (p : Path) (bytes : List UInt8) (t' : FileTree) : Prop :=
  ∃ target executable, t.resolve p true = .ok target ∧
    t'.find p true = .ok (target.place, .file bytes executable) ∧
    (∀ e, t.lookup target.place = some e → ∃ old, e = .file old executable) ∧
    (∀ l, l ≠ target.place → t'.lookup l = t.lookup l) ∧ t'.here = t.here

theorem FileTree.isWritten_of_writeFile (h : t.writeFile p bytes = .ok t') :
    t.IsWritten p bytes t' := by
  have hextends := Extends.writeFile h
  rw [writeFile] at h
  split at h
  · cases h
  next l old executable hresolve =>
    obtain rfl := Except.ok.inj h
    obtain ⟨hne, hl⟩ := (resolve_eq_ok_iff.1 hresolve).2.lookup_file
    have hsame : ∀ l', (t.insert l (.file bytes executable)).lookup l' =
        if l' = l then some (.file bytes executable) else t.lookup l' :=
      fun l' => lookup_insert t _ l' hne
    obtain ⟨e', hfind, halike⟩ := hextends.find (find_eq_ok_iff.2 hresolve)
    obtain ⟨new, rfl⟩ := halike.exists_file
    have hnew := (resolve_eq_ok_iff.1 (find_eq_ok_iff.1 hfind)).2.lookup_file.2
    rw [hsame, if_pos rfl] at hnew
    obtain ⟨rfl, -⟩ := Entry.file.inj (Option.some.inj hnew)
    refine ⟨_, executable, hresolve, hfind, fun e he => ⟨old, ?_⟩, fun l' hl' => ?_, rfl⟩
    · exact Option.some.inj (he.symm.trans hl)
    · rw [hsame]
      exact if_neg hl'
  · cases h
  next d name hresolve =>
    obtain rfl := Except.ok.inj h
    obtain ⟨htext, hleads⟩ := resolve_eq_ok_iff.1 hresolve
    have hput := hleads.insert (e := .file bytes false) (by simp)
    refine ⟨_, false, hresolve, find_eq_ok_iff.2 (resolve_eq_ok_iff.2 ⟨htext, hput⟩),
      fun e he => ?_, fun l' hl' => ?_, rfl⟩
    · have hnone := hleads.lookup_vacant
      exact absurd (he.symm.trans hnone) (by simp)
    · rw [lookup_insert _ _ _ (by simp)]
      exact if_neg hl'

namespace Project

/-- Generating a test module either fails, and leaves all files as they were, or it gives a module
    that is composed of the files that were there, and has written it, and nothing else, under its
    name in the root of the workspace. -/
theorem generate_writes (s : Settings) (w : Workspace) (clone : Path) (world : World σ)
    (hproper : world.files.Proper) (hgrounded : world.files.Grounded) :
    match (generate s w clone).run world with
    | (.error _, left) => left.files = world.files
    | (.ok m, left) => Composes s clone world.files m ∧
      world.files.IsWritten (w.modulePath m.fileName) (Utf8.encode m.content) left.files := by
  obtain ⟨events, hrun⟩ := @gives_composing σ s clone world
  rw [generate_eq, Action.run_bind, hrun]
  cases hmade : composed s clone world.files with
  | error halt => rfl
  | ok made =>
    have hcomposes := composes_of_composed hproper hgrounded hmade
    simp only [writing, Action.run_bind, Action.request, Action.run_ofFunction, World.after,
      Deed.perform]
    cases hwrite : world.files.writeFile (w.modulePath made.1.fileName)
        (Utf8.encode made.1.content) with
    | error fault => rfl
    | ok t' => exact ⟨hcomposes, isWritten_of_writeFile hwrite⟩

/-- A world with the clone of a small project and its template. -/
def smallCloned : World Unit :=
  ⟨(smallFiles "git").foldl (fun t q => t.insert q.1 (smallEntry q.2)) smallWorld.files, [], (), []⟩

theorem proper_smallCloned : smallCloned.files.Proper :=
  List.foldlRecOn _ _ proper_smallWorld fun _ ht q hq =>
    proper_insert_smallEntry ht (smallFiles_names "git" q hq).1 q.2

theorem grounded_smallCloned : smallCloned.files.Grounded :=
  ⟨groundedFrom_of_entries (by decide +kernel), rfl⟩

/-- The test module of a small project is written; with a template that is not there, nothing is. -/
theorem generate_writes_small :
    smallCloned.files.Proper ∧ smallCloned.files.Grounded ∧
    (∃ m left, (generate smallOptions.settings smallOptions.workspace ⟨"./cloned_repo"⟩).run
        smallCloned = (.ok m, left) ∧
      m = ⟨"test_math.py", "int f(void);\nint f(void) { return 1; }\n\n", "math.c"⟩ ∧
      Composes smallOptions.settings ⟨"./cloned_repo"⟩ smallCloned.files m ∧
      smallCloned.files.IsWritten ⟨"./test_math.py"⟩ (Utf8.encode m.content) left.files) ∧
    ∃ halt left,
      (generate { smallOptions.settings with template := some ⟨"u.py"⟩ } smallOptions.workspace
        ⟨"./cloned_repo"⟩).run smallCloned = (.error halt, left) ∧
      left.files = smallCloned.files := by
  refine ⟨proper_smallCloned, grounded_smallCloned, ?_, ?_⟩
  · have h := generate_writes smallOptions.settings smallOptions.workspace ⟨"./cloned_repo"⟩
      smallCloned proper_smallCloned grounded_smallCloned
    have hvalue : ((generate smallOptions.settings smallOptions.workspace ⟨"./cloned_repo"⟩).run
        smallCloned).1 =
        .ok ⟨"test_math.py", "int f(void);\nint f(void) { return 1; }\n\n", "math.c"⟩ := by
      decide +kernel
    have hpath : smallOptions.workspace.modulePath "test_math.py" = ⟨"./test_math.py"⟩ := by
      decide +kernel
    generalize (generate smallOptions.settings smallOptions.workspace ⟨"./cloned_repo"⟩).run
      smallCloned = done at h hvalue ⊢
    obtain ⟨result, left⟩ := done
    obtain rfl : result = _ := hvalue
    exact ⟨_, left, rfl, rfl, h.1, hpath ▸ h.2⟩
  · have h := generate_writes { smallOptions.settings with template := some ⟨"u.py"⟩ }
      smallOptions.workspace ⟨"./cloned_repo"⟩ smallCloned proper_smallCloned grounded_smallCloned
    have hfails : ((generate { smallOptions.settings with template := some ⟨"u.py"⟩ }
        smallOptions.workspace ⟨"./cloned_repo"⟩).run smallCloned).1.isOk = false := by
      decide +kernel
    generalize (generate { smallOptions.settings with template := some ⟨"u.py"⟩ }
      smallOptions.workspace ⟨"./cloned_repo"⟩).run smallCloned = done at h hfails ⊢
    obtain ⟨halt | m, left⟩ := done
    · exact ⟨halt, left, rfl, h⟩
    · cases hfails

/-- A world with a clone in which the only implementation has a stem that is no text. -/
def strayWorld : World Unit :=
  { smallWorld with
    files := ((smallWorld.files.insert ["cloned_repo"] .directory).insert
      ["cloned_repo", "math.h"] (smallEntry (some "int f(void);\n"))).insert
      ["cloned_repo", "\u00ff.c"] (smallEntry (some "int f(void) { return 1; }\n")) }

theorem proper_strayWorld : strayWorld.files.Proper := by
  refine proper_insert_smallEntry (proper_insert_smallEntry (proper_smallWorld.insert ?_ ?_) ?_ _)
    ?_ _
  · decide
  · simp
  · decide
  · decide

/-- There the test module is not named after the implementation, and does not tell its name. -/
theorem named_otherwise :
    strayWorld.files.Proper ∧ strayWorld.files.Grounded ∧
    ∃ p stem m, ((Lookup.locate ⟨"./cloned_repo"⟩ "math.c" "c").run strayWorld).1 = .ok p ∧
      p.fileName? = some (stem ++ ".c") ∧ p.stem? = some stem ∧
      ((generate smallOptions.settings smallOptions.workspace ⟨"./cloned_repo"⟩).run
        strayWorld).1 = .ok m ∧
      ByteString.ofText m.fileName ≠ "test_" ++ stem ++ ".py" ∧
      ByteString.ofText m.sourceName ≠ stem ++ ".c" := by
  refine ⟨proper_strayWorld, ⟨groundedFrom_of_entries (by decide +kernel), rfl⟩,
    ⟨"./cloned_repo/\u00ff.c"⟩, "\u00ff",
    ⟨"test_module.py", "int f(void);\nint f(void) { return 1; }\n\n", "\ufffd.c"⟩, ?_⟩
  decide +kernel

end Project

end TestBench
