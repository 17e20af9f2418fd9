import TestBench.Coverage
import TestBench.Lookup
import TestBench.Options.Basic
import TestBench.Source.Extract
import TestBench.SourceFile
import TestBench.Stages
import TestBench.Template
import TestBench.Workspace.Cleaning

/-!
# The run of a project

The stages of a run, for a project: its repository is cloned, the header and the implementation
are looked up in the clone and joined to a test module by the template, the module is executed,
and the coverage of the code that it compiles is reported.

* `stages`: what the stages of a run do.
-/

namespace TestBench.Project

variable {σ : Type}

/-- The text of the template of a project, and the extension that its test modules get. -/
def template (s : Settings) (t : FileTree) : Except Fault (String × String) :=
  match s.template with
  | none => .ok (Template.bundledText, ".py")
  | some p =>
    match t.readText p with
    | .error fault => .error fault
    | .ok text =>
      match p.extension?.bind ByteString.text? with
      | some extension => .ok (text, s!".{extension}")
      | none => .ok (text, "")

/-- The source whose coverage is reported. The bundled template compiles the implementation
    into one that is named after the test module. -/
def artifact (s : Settings) (m : TestModule) : String :=
  match s.artifact with
  | some artifact => artifact
  | none => s!"_{((Path.ofText m.fileName).stem?.bind ByteString.text?).getD m.fileName}.c"

/-- The command that clones the repository. -/
def cloneCommand (s : Settings) (w : Workspace) : ToolCommand :=
  ((ToolCommand.ofProgram "git").addArgs
    ["clone", "--depth", "1", s.repository, w.clone.display]).inDirectory w.root

/-- Clones the repository into a clean workspace, and gives the clone. -/
def prepare (s : Settings) (w : Workspace) (runner : Runner σ) : Action σ Path := do
  w.clean
  Action.request (.makeDirectories w.root)
  Action.report .info .pipeline s!"Cloning {s.repository}"
  let output ← Action.call runner (cloneCommand s w)
  let _ ← Action.ofExcept (output.check "git")
  return w.clone

/-- Reports that a source file was read. -/
def reportSource (f : SourceFile) : Action σ Unit :=
  Action.report .debug .pipeline
    s!"Read {f.kind.name} file {f.path.display} ({f.content.utf8ByteSize} bytes)"

/-- The module that binds an implementation, with the declarations of a header. -/
def moduleOf (source : Path) (implementation : SourceFile) (extraction : Extraction)
    (template : String × String) : Except Halt TestModule :=
  match synthesize template.1 extraction.declarations implementation.content with
  | .error halt => .error halt
  | .ok content =>
    .ok {
      fileName := TestModule.fileNameFor implementation.stem template.2
      content
      sourceName := (source.fileName?.map ByteString.display).getD "" }

/-- Generates the test module from what is below a directory, and writes it. -/
def generate (s : Settings) (w : Workspace) (clone : Path) : Action σ TestModule := do
  let source ← Lookup.locate clone s.implementation SourceKind.implementation.extension
  let headerSource ← Lookup.locate clone s.header SourceKind.header.extension
  Action.report .info .pipeline s!"Implementation: {source.display}"
  Action.report .info .pipeline s!"Header: {headerSource.display}"
  let implementation ← SourceFile.read source .implementation
  let header ← SourceFile.read headerSource .header
  reportSource implementation
  reportSource header
  let (extraction, reports) := Source.extractWithReports header.content
  Action.reportAll reports
  if extraction.isEmpty then
    Action.report .warn .pipeline s!"No declarations found in {header.path.display}"
  let template ← Action.ask (template s)
  let testModule ← Action.ofResult (moduleOf source implementation extraction template)
  Action.report .debug .synthesis
    (s!"Synthesized test module: {extraction.size} declarations, " ++
      s!"{testModule.content.utf8ByteSize} bytes")
  let path := w.modulePath testModule.fileName
  Action.request (.writeFile path (Utf8.encode testModule.content))
  Action.report .info .pipeline s!"Wrote {path.display} ({extraction.size} declarations)"
  return testModule

/-- The program that executes test modules, and the arguments before the module. -/
def testProgram (s : Settings) : String × List String :=
  match s.testCommand with
  | program :: args => (program, args)
  | [] => ("python3", [])

/-- The directory of the header, as far as it is found. -/
def headerDirectory (s : Settings) (w : Workspace) : Action σ Path := do
  match ← Action.attempt (Lookup.locate w.clone s.header SourceKind.header.extension) with
  | .ok p => return p.parent?.getD w.clone
  | .error _ => return w.clone

/-- The name of the variable that tells a test module where its header is. -/
def includeVariable : String := "CSCAFFOLD_INCLUDE_DIR"

/-- The command that executes a test module, given the directory of the header. -/
def testCommand (s : Settings) (w : Workspace) (m : TestModule) (directory : Path) :
    ToolCommand :=
  (((ToolCommand.ofProgram (testProgram s).1).addArgs
    ((testProgram s).2 ++ [m.fileName])).withVariable includeVariable directory.display).inDirectory
      w.root

/-- Executes a test module. -/
def execute (s : Settings) (w : Workspace) (runner : Runner σ) (m : TestModule) :
    Action σ ToolOutput := do
  let directory ← headerDirectory s w
  let command := testCommand s w m directory
  Action.report .info .pipeline s!"Running tests for {m.sourceName}: {command.display}"
  let output ← Action.call runner command
  Action.ofExcept (output.check command.program)

/-- The stages of the run of a project. -/
def stages (s : Settings) (w : Workspace) (runner : Runner σ) : Stages σ :=
  { workspace := w
    validate := Action.ofExcept (Repository.check "git_repo_url" s.repository)
    prepare := prepare s w runner
    generate := generate s w
    execute := execute s w runner
    report := fun m => Coverage.report runner w (artifact s m)
    cleanup := w.clean }

end TestBench.Project
