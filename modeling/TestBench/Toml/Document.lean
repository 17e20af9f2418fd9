import TestBench.Toml.Scalar
import TestBench.Toml.Token

/-!
# Configurations

A configuration is read line by line, where the lines within brackets do not count. A line is
empty, or it is a header, or it gives a key a value.

* `read`: the table that a configuration is.
-/

namespace TestBench.Toml

/-- Why a text is no configuration. -/
inductive Fault where
  | badToken
  | badBrackets
  | badLine (number : Nat)
  | defined (number : Nat)
deriving Repr, DecidableEq

/-- The wording of a fault. -/
def Fault.message : Fault → String
  | .badToken => "a character or a quoted text that may not stand there"
  | .badBrackets => "brackets that do not match"
  | .badLine number => s!"no header, and no key with a value, in statement {number}"
  | .defined number => s!"what statement {number} defines is there already"

/-- A text without the byte order mark at its start. -/
def skipMark : List Char → List Char
  | c :: cs => if c.toNat = 0xFEFF then cs else c :: cs
  | [] => []

/-- An element of a line: a token, or the value of a group. -/
inductive Item where
  | token (token : Token)
  | value (value : Value)
deriving Repr

/-- Whether an item is blank. -/
def Item.isBlank : Item → Bool
  | .token (.blank _) => true
  | _ => false

/-- Whether an item is blank or the end of a line. -/
def Item.isGap : Item → Bool
  | .token (.blank _) => true
  | .token .newline => true
  | _ => false

/-- A list without the elements at both ends that satisfy a condition. -/
def trimBy {α : Type} (p : α → Bool) (as : List α) : List α :=
  ((as.dropWhile p).reverse.dropWhile p).reverse

/-- Whether a character may stand in a key without quotes. -/
def isKeyChar (c : Char) : Bool :=
  c.isAlphanum || c == '_' || c == '-'

/-- One part of a dotted key. -/
def keyPart (items : List Item) : Option String :=
  match trimBy Item.isBlank items with
  | [.token (.word cs)] => if cs.all isKeyChar then some (String.ofList cs) else none
  | [.token (.quoted cs)] => some (String.ofList cs)
  | _ => none

/-- The parts of a key: those on the way, and the last one. -/
def keyOf (items : List Item) : Option (List String × String) :=
  let isDot : Item → Bool
    | .token .dot => true
    | _ => false
  match (Text.piecesBy isDot items).mapM keyPart with
  | some parts => parts.getLast?.map (parts.dropLast, ·)
  | none => none

/-- The text of an item that belongs to a value without quotes and brackets. -/
def Item.scalarText : Item → Option (List Char)
  | .token (.word cs) => some cs
  | .token .dot => some ['.']
  | .token (.blank c) => some [c]
  | _ => none

/-- The value that items are. -/
def valueOf (items : List Item) : Option Value :=
  match trimBy Item.isBlank items with
  | [.value v] => some v
  | [.token (.quoted cs)] => some (.string (String.ofList cs))
  | [.token (.block cs)] => some (.string (String.ofList cs))
  | items => (items.mapM Item.scalarText).bind fun texts => scalar? texts.flatten

/-- A key and its value. -/
def pairOf (items : List Item) : Option (List String × String × Value) :=
  let isEquals : Item → Bool
    | .token .equals => true
    | _ => false
  match items.dropWhile (!isEquals ·) with
  | _ :: after =>
    match keyOf (items.takeWhile (!isEquals ·)), valueOf after with
    | some (path, key), some value => some (path, key, value)
    | _, _ => none
  | [] => none

/-- What stands between the commas of a group. After the last comma there may be nothing. -/
def members (items : List Item) : List (List Item) :=
  let isComma : Item → Bool
    | .token .comma => true
    | _ => false
  let each := (Text.piecesBy isComma items).map (trimBy Item.isGap)
  match each.getLast? with
  | some [] => each.dropLast
  | _ => each

/-- The array of what stands between square brackets. -/
def arrayOf (items : List Item) : Option Value :=
  ((members items).mapM valueOf).map .array

/-- The table of what stands between braces. -/
def tableOf (items : List Item) : Option Value :=
  match (members items).mapM pairOf with
  | some pairs =>
    (pairs.foldlM (fun t (path, key, value) => Table.assign path key value t) []).map
      (.table .braces)
  | none => none

mutual

/-- The item that a token is, or the value of a group. -/
def itemOf : Tree → Option Item
  | .leaf t => some (.token t)
  | .group .square inside => ((itemsOf inside).bind arrayOf).map .value
  | .group .brace inside => ((itemsOf inside).bind tableOf).map .value

/-- The items of gathered tokens. -/
def itemsOf : List Tree → Option (List Item)
  | [] => some []
  | t :: ts =>
    match itemOf t, itemsOf ts with
    | some i, some is => some (i :: is)
    | _, _ => none

end

/-- What a line says. -/
inductive Statement where
  | header (path : List String) (key : String)
  | nextHeader (path : List String) (key : String)
  | pair (path : List String) (key : String) (value : Value)
deriving Repr

/-- Whether gathered tokens are blank. -/
def Tree.isBlank : Tree → Bool
  | .leaf (.blank _) => true
  | _ => false

/-- What a line that is not empty says. -/
def statementOf (line : List Tree) : Option Statement :=
  match line with
  | [.group .square [.group .square inside]] =>
    ((itemsOf inside).bind keyOf).map fun (path, key) => .nextHeader path key
  | [.group .square inside] =>
    ((itemsOf inside).bind keyOf).map fun (path, key) => .header path key
  | line => ((itemsOf line).bind pairOf).map fun (path, key, value) => .pair path key value

/-- A configuration as far as it is read, and the path of the last header. -/
structure Draft where
  table : Table
  current : List String

/-- What a statement adds. -/
def Draft.add (d : Draft) : Statement → Option Draft
  | .header path key => (d.table.openTable path key).map (⟨·, path ++ [key]⟩)
  | .nextHeader path key => (d.table.openNext path key).map (⟨·, path ++ [key]⟩)
  | .pair path key value =>
    if d.current.isEmpty then (d.table.assign path key value).map (⟨·, []⟩)
    else (d.table.assignBelow d.current path key value).map (⟨·, d.current⟩)

/-- Reads lines that are not empty, of which so many came before. -/
def readLines (number : Nat) (d : Draft) : List (List Tree) → Except Fault Table
  | [] => .ok d.table
  | line :: lines =>
    match statementOf line with
    | none => .error (.badLine (number + 1))
    | some statement =>
      match d.add statement with
      | none => .error (.defined (number + 1))
      | some d => readLines (number + 1) d lines

/-- The lines of gathered tokens that are not empty. -/
def linesOf (trees : List Tree) : List (List Tree) :=
  let isEnd : Tree → Bool
    | .leaf .newline => true
    | _ => false
  ((Text.piecesBy isEnd trees).map (trimBy Tree.isBlank)).filter (!·.isEmpty)

/-- The configuration that a text is. -/
def read (text : String) : Except Fault Table :=
  match tokens (skipMark text.toList) with
  | none => .error .badToken
  | some ts =>
    match gather ts with
    | none => .error .badBrackets
    | some trees => readLines 0 ⟨[], []⟩ (linesOf trees)

end TestBench.Toml
