import TestBench.Proofs.Text.Encoding
import TestBench.Source.Extract

/-!
# Well-formed headers

A grammar of headers: items on lines of their own, each a directive, a definition, a prototype,
a function with its body, a comment or a blank line. Bodies nest: a body is plain code, comments,
literals and brace groups with a body again. What may stand where is part of the types, so that
every list of items is a header, and it is said without a word about how headers are read.

* `text`: how a header is written;
* `declared`: what it declares, each declaration as written and with its place.
-/

namespace TestBench.Source.Header

/-! ### Characters -/

/-- The blanks between tokens. -/
def isSpace (c : Char) : Bool :=
  c == ' ' || c == '\t' || c == '\n' || c == '\x0c' || c == '\r'

/-- Whether a character is code of its own: it starts no comment, literal, directive or group. -/
def isPlain (c : Char) : Bool :=
  c != '/' && c != '"' && c != '\'' && c != '#' && c != '{' && c != '}'

/-- Plain code in which no statement ends. -/
def isFlat (c : Char) : Bool :=
  isPlain c && c != ';'

/-- Whether a character may start a tag. -/
def isTagStart (c : Char) : Bool :=
  Text.isLetter c || c == '_'

/-- Whether a character may continue a tag. -/
def isTagChar (c : Char) : Bool :=
  Text.isLetter c || Text.isDigit c || c == '_'

/-! ### Bodies -/

/-- A comment: to the end of its line, or up to the first closing mark. -/
inductive Comment where
  | line (text : List Char) (onLine : '\n' ∉ text)
  | block (text : List Char) (open_ : ¬['*', '/'] <:+: text)

/-- What a literal is made of: characters, and escapes of any character. -/
inductive LiteralPart (quote : Char) where
  | char (c : Char) (inside : c ≠ quote ∧ c ≠ '\\' ∧ c ≠ '\n')
  | escape (c : Char)

/-- A closed literal. -/
structure Literal where
  quote : Char
  isQuote : quote = '"' ∨ quote = '\''
  parts : List (LiteralPart quote)

/-- What stands between braces. -/
inductive Body where
  | nil
  | plain (c : Char) (isPlain : isPlain c) (rest : Body)
  | comment (c : Comment) (rest : Body)
  | literal (l : Literal) (rest : Body)
  | group (inner rest : Body)

/-- A comment as written, without the newline that ends a line comment. -/
def Comment.text : Comment → List Char
  | .line text _ => '/' :: '/' :: text
  | .block text _ => '/' :: '*' :: text ++ ['*', '/']

def LiteralPart.text {quote : Char} : LiteralPart quote → List Char
  | .char c _ => [c]
  | .escape c => ['\\', c]

def Literal.text (l : Literal) : List Char :=
  l.quote :: l.parts.flatMap LiteralPart.text ++ [l.quote]

/-- A body as written. Behind a line comment it goes on in the next line. -/
def Body.text : Body → List Char
  | .nil => []
  | .plain c _ rest => c :: rest.text
  | .comment (.line t h) rest => (Comment.line t h).text ++ '\n' :: rest.text
  | .comment (.block t h) rest => (Comment.block t h).text ++ rest.text
  | .literal l rest => l.text ++ rest.text
  | .group inner rest => '{' :: inner.text ++ '}' :: rest.text

/-! ### Items -/

/-- A directive: blanks, a hash, and the rest of the line, which no backslash continues. -/
structure DirectiveLine where
  indent : List Char
  isIndent : ∀ c ∈ indent, isSpace c ∧ c ≠ '\n'
  content : List Char
  onLine : ∀ c ∈ content, c ≠ '\n' ∧ c ≠ '\r'
  notContinued : (Text.dropTail isSpace content).getLast? ≠ some '\\'

/-- A gap between tokens. -/
abbrev Gap := { cs : List Char // ∀ c ∈ cs, isSpace c }

/-- A gap that keeps words apart. -/
abbrev WideGap := { cs : List Char // (∀ c ∈ cs, isSpace c) ∧ cs ≠ [] }

/-- The tag of a struct or an enum. -/
abbrev Tag := { cs : List Char // (∃ c ∈ cs.head?, isTagStart c) ∧ ∀ c ∈ cs, isTagChar c }

/-- The keyword of a definition. -/
inductive Keyword where
  | struct
  | enum

/-- The definition of a struct or an enum. -/
structure DefinitionItem where
  /-- The gap behind the word that makes the definition a type name, if it is one. -/
  typeName : Option WideGap
  keyword : Keyword
  tag : Option (WideGap × Tag)
  gap : Gap
  body : Body
  declarators : List Char
  areFlat : ∀ c ∈ declarators, isFlat c

/-- A prototype, without its semicolon. -/
structure PrototypeItem where
  statement : List Char
  isFlat : ∀ c ∈ statement, isFlat c
  isPrototype : isPrototype (String.ofList (statement ++ [';']))

/-- A function with its body. The head goes up to the parenthesis that closes the parameters. -/
structure FunctionItem where
  head : List Char
  isFlat : ∀ c ∈ head, isFlat c
  gap : Gap
  body : Body

/-- What stands on lines of its own in a header. -/
inductive Item where
  | directive (d : DirectiveLine)
  | definition (d : DefinitionItem)
  | prototype (p : PrototypeItem)
  | function (f : FunctionItem)
  | comment (c : Comment)
  | blank (g : Gap)

def Keyword.text : Keyword → List Char
  | .struct => "struct".toList
  | .enum => "enum".toList

def DirectiveLine.text (d : DirectiveLine) : List Char :=
  d.indent ++ '#' :: d.content

/-- What stands in front of the keyword of a definition. -/
def DefinitionItem.lead (d : DefinitionItem) : List Char :=
  match d.typeName with
  | some gap => "typedef".toList ++ gap.1
  | none => []

/-- What stands between the keyword and the opening brace. -/
def DefinitionItem.middle (d : DefinitionItem) : List Char :=
  match d.tag with
  | some (gap, tag) => gap.1 ++ (tag.1 ++ d.gap.1)
  | none => d.gap.1

def DefinitionItem.text (d : DefinitionItem) : List Char :=
  d.lead ++ (d.keyword.text ++ (d.middle ++ '{' :: d.body.text ++ '}' :: d.declarators ++ [';']))

def PrototypeItem.text (p : PrototypeItem) : List Char :=
  p.statement ++ [';']

def FunctionItem.text (f : FunctionItem) : List Char :=
  f.head ++ ')' :: f.gap.1 ++ '{' :: f.body.text ++ ['}']

/-- An item as written. -/
def Item.text : Item → List Char
  | .directive d => d.text
  | .definition d => d.text
  | .prototype p => p.text
  | .function f => f.text
  | .comment c => c.text
  | .blank g => g.1

/-- What kind of declaration an item is, if it is one. -/
def Item.kind? : Item → Option DeclarationKind
  | .directive _ => some .directive
  | .definition _ => some .structOrEnum
  | .prototype _ => some .prototype
  | .function _ | .comment _ | .blank _ => none

/-! ### Headers -/

/-- A header as written: its items with a newline between any two. -/
def text (items : List Item) : String :=
  String.ofList (['\n'].intercalate (items.map Item.text))

/-- What an item at an offset declares. -/
def Item.declared (offset : Nat) (i : Item) : List Declaration :=
  (i.kind?.map fun kind => ⟨kind, String.ofList i.text, offset⟩).toList

/-- What items declare, the first of which stands at an offset. -/
def declared : Nat → List Item → List Declaration
  | _, [] => []
  | offset, i :: is =>
    i.declared offset ++ declared (offset + (Utf8.encodeChars i.text).length + 1) is

end TestBench.Source.Header
