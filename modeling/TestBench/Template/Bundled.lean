/-!
# The bundled template

The test harness that is used when a project names no template of its own. It compiles the
implementation through cffi under the name of the module, with coverage, and runs smoke tests.
-/

namespace TestBench.Template

/-- The text of the bundled template, line by line. -/
def bundledLines : List String := [
    "\"\"\"Unit-test harness binding a C translation unit through cffi.",
    "",
    "The declarations and the implementation below are filled in by cscaffold.",
    "Compiled with --coverage so gcov/lcov can report on the run.",
    "\"\"\"",
    "",
    "import importlib",
    "import os",
    "import re",
    "import sys",
    "import unittest",
    "",
    "import cffi",
    "",
    "MODULE_NAME = \"_\" + os.path.splitext(os.path.basename(__file__))[0]",
    "BUILD_DIR = os.path.dirname(os.path.abspath(__file__))",
    "",
    "CDEF = r\"\"\"",
    "__HEADER_DEFINITIONS__",
    "\"\"\"",
    "",
    "SOURCE = r\"\"\"",
    "__FUNCTIONS_IMPLEMENTATION__",
    "\"\"\"",
    "",
    "_PROTOTYPE = re.compile(r\"([A-Za-z_]\\w*)\\s*\\([^;\x7b\x7d]*\\)\\s*;\")",
    "",
    "",
    "def _is_plain_define(line):",
    "    parts = line.lstrip()[1:].split()",
    "    return len(parts) == 3 and parts[0] == \"define\" and parts[2].lstrip(\"-\").isdigit()",
    "",
    "",
    "def _strip_attributes(text):",
    "    \"\"\"Remove GNU __attribute__((...)) groups, which cffi does not parse.\"\"\"",
    "    out = []",
    "    pos = 0",
    "    while True:",
    "        start = text.find(\"__attribute__\", pos)",
    "        if start < 0:",
    "            out.append(text[pos:])",
    "            return \"\".join(out)",
    "        out.append(text[pos:start])",
    "        i = start + len(\"__attribute__\")",
    "        while i < len(text) and text[i].isspace():",
    "            i += 1",
    "        depth = 0",
    "        while i < len(text):",
    "            if text[i] == \"(\":",
    "                depth += 1",
    "            elif text[i] == \")\":",
    "                depth -= 1",
    "                if depth == 0:",
    "                    i += 1",
    "                    break",
    "            i += 1",
    "        pos = i",
    "",
    "",
    "def cdef_text(text):",
    "    \"\"\"Drop directives and attributes cffi cannot parse; integer #defines are kept.\"\"\"",
    "    kept = []",
    "    continuing = False",
    "    for line in text.splitlines():",
    "        if continuing or line.lstrip().startswith(\"#\"):",
    "            continuing = line.rstrip().endswith(\"\\\\\")",
    "            if not continuing and _is_plain_define(line):",
    "                kept.append(line)",
    "            continue",
    "        kept.append(line)",
    "    return _strip_attributes(\"\\n\".join(kept))",
    "",
    "",
    "def declared_functions(text):",
    "    return [match.group(1) for match in _PROTOTYPE.finditer(cdef_text(text))]",
    "",
    "",
    "def build():",
    "    ffi = cffi.FFI()",
    "    ffi.cdef(cdef_text(CDEF))",
    "    ffi.set_source(",
    "        MODULE_NAME,",
    "        SOURCE,",
    "        include_dirs=[os.environ.get(\"CSCAFFOLD_INCLUDE_DIR\", BUILD_DIR)],",
    "        extra_compile_args=[\"--coverage\", \"-O0\"],",
    "        extra_link_args=[\"--coverage\"],",
    "    )",
    "    ffi.compile(tmpdir=BUILD_DIR, verbose=False)",
    "    if BUILD_DIR not in sys.path:",
    "        sys.path.insert(0, BUILD_DIR)",
    "    module = importlib.import_module(MODULE_NAME)",
    "    return module.ffi, module.lib",
    "",
    "",
    "class GeneratedTests(unittest.TestCase):",
    "    @classmethod",
    "    def setUpClass(cls):",
    "        cls.ffi, cls.lib = build()",
    "",
    "    def test_module_loads(self):",
    "        self.assertIsNotNone(self.lib)",
    "",
    "    def test_declared_functions_are_bound(self):",
    "        for name in declared_functions(CDEF):",
    "            with self.subTest(function=name):",
    "                self.assertTrue(hasattr(self.lib, name), name)",
    "",
    "",
    "if __name__ == \"__main__\":",
    "    unittest.main()",
    ""]

/-- The text of the bundled template. -/
def bundledText : String :=
  "\n".intercalate bundledLines

end TestBench.Template
