import Mathlib.Data.List.Basic
import TestBench.Project
import TestBench.Proofs.Path
import TestBench.Proofs.Tool.Quiet

/-!
# The generation of a test module

A test module is composed of what is found below the clone, without any change, and then it is
written (`generate_eq`). Its name is made of the stem of a file and of the extension of the
template, so that it is a name in the root of the workspace (`yields_composing`).

* `generate_eq`: composing and writing;
* `yields_composing`: what is composed has the name of a test module.
-/

namespace TestBench

variable {σ : Type} {s : Settings} {w : Workspace}

/-! ### What only reads -/

theorem Lookup.reads_locate (root : Path) (name extension : String) :
    Reads Halt.IsOwn (Lookup.locate root name extension : Action σ Path) := by
  refine .bind (.ask fun _ => trivial) fun l => .bind .files fun t => ?_
  refine .bind (.reportAll _) fun _ => .bind .report fun _ => ?_
  split
  · exact .fail trivial
  · split
    · exact .bind .report fun _ => .pure _
    · exact .pure _

namespace SourceFile

theorem reads_askAbout {α : Type} (p : Path) (f : FileTree → Except Fault α) :
    Reads Halt.IsOwn (askAbout p f : Action σ α) := by
  refine .bind .files fun t => ?_
  split
  · exact .pure _
  · exact .fail trivial

theorem reads_read (p : Path) (kind : SourceKind) :
    Reads Halt.IsOwn (read p kind : Action σ SourceFile) := by
  refine .bind (reads_askAbout p _) fun path => .bind (reads_askAbout path _) fun bytes => ?_
  split
  · exact .fail trivial
  · split
    · exact .bind .report fun _ => .pure _
    · exact .pure _

end SourceFile

theorem Project.reads_headerDirectory {Q : Halt → Prop} (s : Settings) (w : Workspace) :
    Reads Q (headerDirectory s w : Action σ Path) := by
  refine .bind (.attempt (Lookup.reads_locate _ _ _)) fun r => ?_
  split
  · exact .pure _
  · exact .pure _

/-! ### The name of the test module -/

theorem TestModule.toList_fileNameFor (stem extension : String) :
    (fileNameFor stem extension).toList =
      't' :: ("est_".toList ++ stem.toList ++ extension.toList) := by
  have htest : "test_".toList = 't' :: "est_".toList := by decide
  change ("test_" ++ stem ++ extension).toList = _
  rw [String.toList_append, String.toList_append, htest]
  rfl

/-- Whether a name may be that of a test module: it is not that of the lock file. -/
def IsModuleName (name : ByteString) : Prop :=
  Path.IsName name ∧ name ≠ Workspace.lockName

theorem TestModule.isModuleName_fileNameFor {stem extension : String} (hs : '/' ∉ stem.toList)
    (he : '/' ∉ extension.toList) : IsModuleName (.ofText (fileNameFor stem extension)) := by
  have htext := toList_fileNameFor stem extension
  have hne : ∀ text : String, text.toList.head? ≠ some 't' → fileNameFor stem extension ≠ text := by
    rintro text ht rfl
    exact ht (by rw [htext]; rfl)
  refine ⟨Path.isName_ofText_iff.2 ⟨?_, hne "" (by decide), hne "." (by decide),
    hne ".." (by decide)⟩, fun hlock => ?_⟩
  · have hstart : '/' ∉ 't' :: "est_".toList := by decide
    rw [htext, ← List.cons_append, ← List.cons_append]
    simp only [List.mem_append, not_or]
    exact ⟨⟨hstart, hs⟩, he⟩
  · have hlock' : Workspace.lockName = .ofText ".cscaffold.lock" := by decide
    exact hne ".cscaffold.lock" (by decide) (ByteString.ofText_inj.1 (hlock.trans hlock'))

namespace Project

theorem yields_template (s : Settings) :
    Yields (fun found => '/' ∉ found.2.toList) (Action.ask (template s) : Action σ _) := by
  refine .ask fun t found h => ?_
  rw [template] at h
  split at h
  · obtain rfl := Except.ok.inj h
    decide
  · split at h
    · cases h
    · split at h
      next extension hext =>
        obtain rfl := Except.ok.inj h
        have hdot : '/' ∉ ".".toList := by decide
        change '/' ∉ ("." ++ extension).toList
        rw [String.toList_append, List.mem_append, not_or]
        obtain ⟨extension', hext, htext⟩ := Option.bind_eq_some_iff.1 hext
        obtain rfl := ByteString.text?_eq_some_iff.1 htext
        exact ⟨hdot, mt (ByteString.mem_ofText_iff (by decide)).2
          (Path.slash_notMem_extension hext)⟩
      next =>
        obtain rfl := Except.ok.inj h
        exact List.not_mem_nil

theorem slash_notMem_stem (f : SourceFile) : '/' ∉ f.stem.toList := by
  rw [SourceFile.stem]
  cases h : f.path.stem?.bind ByteString.text? with
  | none => decide
  | some stem =>
    obtain ⟨stem', hstem, htext⟩ := Option.bind_eq_some_iff.1 h
    obtain rfl := ByteString.text?_eq_some_iff.1 htext
    exact mt (ByteString.mem_ofText_iff (by decide)).2 (Path.slash_notMem_stem hstem)

theorem isModuleName_of_moduleOf {source : Path} {implementation : SourceFile}
    {extraction : Extraction} {template : String × String} {m : TestModule}
    (htemplate : '/' ∉ template.2.toList)
    (h : moduleOf source implementation extraction template = .ok m) :
    IsModuleName (.ofText m.fileName) := by
  rw [moduleOf] at h
  split at h
  · cases h
  · obtain rfl := Except.ok.inj h
    exact TestModule.isModuleName_fileNameFor (slash_notMem_stem _) htemplate

theorem yields_moduleOf (source : Path) (implementation : SourceFile) (extraction : Extraction)
    {template : String × String} (htemplate : '/' ∉ template.2.toList) :
    Yields (fun m => IsModuleName (.ofText m.fileName))
      (Action.ofResult (moduleOf source implementation extraction template) :
        Action σ TestModule) :=
  .ofResult fun _ hm => isModuleName_of_moduleOf htemplate hm

theorem isOwn_of_moduleOf {source : Path} {implementation : SourceFile} {extraction : Extraction}
    {template : String × String} {halt : Halt}
    (h : moduleOf source implementation extraction template = .error halt) : halt.IsOwn := by
  have hplace : ∀ {text token failure}, Template.place text token = .error failure →
      (Halt.failure failure).IsOwn := by
    intro text token failure h
    rw [Template.place] at h
    split at h
    · cases h
    · exact Except.error.inj h ▸ trivial
  have hparse : ∀ {failure}, Template.parse template.1 = .error failure →
      (Halt.failure failure).IsOwn := by
    intro failure h
    rw [Template.parse] at h
    cases hheader : Template.place template.1.toList headerPlaceholder with
    | error failure' =>
      rw [hheader] at h
      exact Except.error.inj h ▸ hplace hheader
    | ok headerAt =>
      rw [hheader] at h
      cases himplementation : Template.place template.1.toList implementationPlaceholder with
      | error failure' =>
        rw [himplementation] at h
        exact Except.error.inj h ▸ hplace himplementation
      | ok implementationAt =>
        rw [himplementation] at h
        cases h
  rw [moduleOf, synthesize] at h
  split at h
  next halt' hhalt =>
    obtain rfl := Except.error.inj h
    split at hhalt
    next failure hfailure => exact Except.error.inj hhalt ▸ hparse hfailure
    next =>
      split at hhalt
      · cases hhalt
      · exact Except.error.inj hhalt ▸ trivial
  next => cases h

/-! ### Composing and writing -/

/-- Composes the test module from what is below a directory, and tells how many declarations are
    in it. -/
def composing (s : Settings) (clone : Path) : Action σ (TestModule × Nat) := do
  let source ← Lookup.locate clone s.implementation SourceKind.implementation.extension
  let headerSource ← Lookup.locate clone s.header SourceKind.header.extension
  Action.report .info .pipeline s!"Implementation: {source.display}"
  Action.report .info .pipeline s!"Header: {headerSource.display}"
  let implementation ← SourceFile.read source .implementation
  let header ← SourceFile.read headerSource .header
  reportSource implementation
  reportSource header
  let (extraction, reports) := Source.extractWithReports header.content
  Action.reportAll reports
  if extraction.isEmpty then
    Action.report .warn .pipeline s!"No declarations found in {header.path.display}"
  let template ← Action.ask (template s)
  let testModule ← Action.ofResult (moduleOf source implementation extraction template)
  Action.report .debug .synthesis
    (s!"Synthesized test module: {extraction.size} declarations, " ++
      s!"{testModule.content.utf8ByteSize} bytes")
  return (testModule, extraction.size)

/-- Writes a test module with a number of declarations. -/
def writing (w : Workspace) (made : TestModule × Nat) : Action σ TestModule := do
  Action.request (.writeFile (w.modulePath made.1.fileName) (Utf8.encode made.1.content))
  Action.report .info .pipeline
    s!"Wrote {(w.modulePath made.1.fileName).display} ({made.2} declarations)"
  return made.1

/-- To generate is to compose and to write. -/
theorem generate_eq (s : Settings) (w : Workspace) (clone : Path) :
    (generate s w clone : Action σ TestModule) = composing s clone >>= writing w := by
  simp only [generate, composing, bind_assoc]
  refine bind_congr fun source => bind_congr fun headerSource => bind_congr fun _ => ?_
  refine bind_congr fun _ => bind_congr fun implementation => bind_congr fun header => ?_
  refine bind_congr fun _ => bind_congr fun _ => bind_congr fun _ => ?_
  split
  · simp only [bind_assoc, pure_bind, writing]
  · simp only [bind_assoc, pure_bind, writing]

theorem reads_composing (s : Settings) (clone : Path) :
    Reads Halt.IsOwn (composing s clone : Action σ (TestModule × Nat)) := by
  refine .bind (Lookup.reads_locate _ _ _) fun source => ?_
  refine .bind (Lookup.reads_locate _ _ _) fun headerSource => ?_
  refine .bind .report fun _ => .bind .report fun _ => ?_
  refine .bind (SourceFile.reads_read _ _) fun implementation => ?_
  refine .bind (SourceFile.reads_read _ _) fun header => ?_
  refine .bind .report fun _ => .bind .report fun _ => .bind (.reportAll _) fun _ => ?_
  -- Whether or not it is reported that nothing was found, what follows is the same.
  split
  on_goal 1 => refine .bind .report fun _ => ?_
  all_goals
    refine .bind (.ask fun _ => trivial) fun template => ?_
    refine .bind (.ofResult fun halt hhalt => isOwn_of_moduleOf hhalt) fun testModule => ?_
    exact .bind .report fun _ => .pure _

/-- The name of a test module that is composed is a name. -/
theorem yields_composing (clone : Path) :
    Yields (fun made => IsModuleName (.ofText made.1.fileName))
      (composing s clone : Action σ (TestModule × Nat)) := by
  refine .of_bind fun source => .of_bind fun headerSource => .of_bind fun _ => .of_bind fun _ => ?_
  refine .of_bind fun implementation => .of_bind fun header => .of_bind fun _ => ?_
  refine .of_bind fun _ => .of_bind fun _ => ?_
  split
  on_goal 1 => refine .of_bind fun _ => ?_
  all_goals
    refine .bind (yields_template s) fun template htemplate => ?_
    refine .bind (yields_moduleOf _ _ _ htemplate) fun m hm => ?_
    exact .of_bind fun _ => .pure hm

/-- The name of a test module that is generated is a name. -/
theorem yields_generate (clone : Path) :
    Yields (fun m => IsModuleName (.ofText m.fileName))
      (generate s w clone : Action σ TestModule) := by
  rw [generate_eq]
  exact .bind (yields_composing clone) fun made hmade => .of_bind fun _ => .of_bind fun _ =>
    .pure hmade

end Project

end TestBench
