import TestBench.Text.Word

/-!
# Words of a shell

A word of a command is a row of pieces: text, and what a dollar sign or a backquote introduces.
Each piece knows whether it is quoted, since what is quoted is neither split into fields nor
matched against the names of files. The insides of references are kept as text, which is read
when the word is expanded.

* `literal?_plain`: a text without quotes stands for itself.
-/

namespace TestBench.Shell

/-- What is done with the value of a parameter. -/
inductive Use where
  | value
  | length
  /-- A sign, and what stands behind it. -/
  | adapted (sign operand : List Char)
  /-- What stands in the braces has no meaning. -/
  | meaningless
deriving Repr, DecidableEq

/-- A part of a word. -/
inductive Piece where
  | text (quoted : Bool) (cs : List Char)
  | parameter (quoted : Bool) (name : List Char) (use : Use)
  | output (quoted : Bool) (script : List Char)
  | sum (quoted : Bool) (expression : List Char)
deriving Repr, DecidableEq

/-- A word. -/
abbrev Word := List Piece

namespace Word

/-- The text of a word in which nothing is quoted and nothing is to be expanded. -/
def literal? : Word → Option (List Char)
  | [] => some []
  | .text false cs :: w => (literal? w).map (cs ++ ·)
  | _ :: _ => none

/-- A text without quotes stands for itself. -/
theorem literal?_plain (cs : List Char) : literal? (cs.map fun c => .text false [c]) = some cs := by
  induction cs with
  | nil => rfl
  | cons c cs ih => simp [literal?, ih]

/-- Whether a name may go on with a character. -/
def continuesName (c : Char) : Bool :=
  Text.isWordStart c || Text.isDigit c

/-- The name at the start of a text, and what follows it. -/
def splitName (cs : List Char) : List Char × List Char :=
  match cs with
  | c :: _ =>
    if Text.isWordStart c then (cs.takeWhile continuesName, cs.dropWhile continuesName)
    else ([], cs)
  | [] => ([], [])

/-- The parameters whose names are signs. -/
def signs : List Char := "@*#?$!-".toList

/-- A text up to where everything is closed that is open, the sign that does so left out, and
    what follows. The signs that are to come are listed from the innermost on. -/
def enclosed : List Char → List Char → Option (List Char × List Char)
  | [], cs => some ([], cs)
  | _ :: _, [] => none
  | '\'' :: closing, c :: cs =>
    if c = '\'' then keep c (enclosed closing cs) else keep c (enclosed ('\'' :: closing) cs)
  | closing, '\\' :: c :: cs => keep '\\' (keep c (enclosed closing cs))
  | closing, '$' :: '(' :: cs => keep '$' (keep '(' (enclosed (')' :: closing) cs))
  | closing, '$' :: '\x7b' :: cs => keep '$' (keep '\x7b' (enclosed ('\x7d' :: closing) cs))
  | top :: closing, c :: cs =>
    if c = top then
      if closing.isEmpty then some ([], cs) else keep c (enclosed closing cs)
    else keep c (enclosed (opened top c ++ top :: closing) cs)
where
  /-- A character more at the front. -/
  keep (c : Char) : Option (List Char × List Char) → Option (List Char × List Char) :=
    Option.map fun r => (c :: r.1, r.2)
  /-- What a character opens, seen inside of what `top` closes. -/
  opened (top c : Char) : List Char :=
    if c = '"' || c = '\x60' then [c]
    else if c = '\'' && top ≠ '"' then [c]
    else if c = '(' && top = ')' then [')']
    else []

/-- The use that braces ask for, from what follows the name in them. -/
def useOf : List Char → Use
  | [] => .value
  | ':' :: c :: cs => if "-=?+".toList.contains c then .adapted [':', c] cs else .meaningless
  | '%' :: '%' :: cs => .adapted ['%', '%'] cs
  | '#' :: '#' :: cs => .adapted ['#', '#'] cs
  | c :: cs => if "-=?+%#".toList.contains c then .adapted [c] cs else .meaningless

/-- The name of a parameter at the start of what braces hold, and what follows it. -/
def splitParameter (cs : List Char) : List Char × List Char :=
  match cs with
  | [] => ([], [])
  | c :: rest =>
    if signs.contains c then ([c], rest)
    else if Text.isDigit c then (cs.takeWhile Text.isDigit, cs.dropWhile Text.isDigit)
    else splitName cs

/-- The piece that braces stand for. -/
def braces (quoted : Bool) (inside : List Char) : Piece :=
  match inside with
  | '#' :: c :: cs =>
    match splitParameter (c :: cs) with
    | (_ :: _, []) => .parameter quoted (splitParameter (c :: cs)).1 .length
    | _ => .parameter quoted ['#'] (useOf (c :: cs))
  | _ =>
    match splitParameter inside with
    | ([], _) => .parameter quoted [] .meaningless
    | (name, rest) => .parameter quoted name (useOf rest)

/-- The piece that a dollar sign introduces, from what follows it. A dollar sign that introduces
    nothing stands for itself. -/
def reference? (quoted : Bool) (cs : List Char) : Option (Piece × List Char) :=
  match cs with
  | '\x7b' :: cs =>
    (enclosed ['\x7d'] cs).map fun (inside, rest) => (braces quoted inside, rest)
  | '(' :: '(' :: cs =>
    (enclosed [')', ')'] cs).map fun (inside, rest) => (.sum quoted inside.dropLast, rest)
  | '(' :: cs => (enclosed [')'] cs).map fun (inside, rest) => (.output quoted inside, rest)
  | c :: rest =>
    if signs.contains c || Text.isDigit c then some (.parameter quoted [c] .value, rest)
    else
      match splitName cs with
      | ([], _) => some (.text quoted ['$'], cs)
      | (name, rest) => some (.parameter quoted name .value, rest)
  | [] => some (.text quoted ['$'], [])

/-- A script between backquotes, and what follows the second one. Inside, a backslash takes its
    meaning from a dollar sign, a backquote or a backslash. -/
def backquoted? : List Char → Option (List Char × List Char)
  | [] => none
  | '\x60' :: cs => some ([], cs)
  | '\\' :: c :: cs =>
    let plain := c = '$' || c = '\x60' || c = '\\'
    (backquoted? cs).map fun (inside, rest) =>
      (if plain then c :: inside else '\\' :: c :: inside, rest)
  | c :: cs => (backquoted? cs).map fun (inside, rest) => (c :: inside, rest)

/-- The characters that a backslash takes their meaning from between double quotes. -/
def escapable : List Char := "$\x60\"\\".toList

/-- What a double quote does in a text that counts as quoted: it ends the text, it is left out,
    or it is a character like others. -/
inductive Quoting where
  | ended
  | skipped
  | literal
deriving Repr, DecidableEq

/-- The pieces of a text that counts as quoted, up to where it ends, and what follows. The number
    bounds the characters. -/
def quotedWithin (q : Quoting) : Nat → List Char → Option (Word × List Char)
  | 0, _ => none
  | _ + 1, [] => if q = .ended then none else some ([], [])
  | bound + 1, '\\' :: '\n' :: cs => quotedWithin q bound cs
  | bound + 1, '\\' :: c :: cs =>
    let text := if escapable.contains c then [c] else ['\\', c]
    (quotedWithin q bound cs).map fun (w, rest) => (.text true text :: w, rest)
  | bound + 1, c :: cs =>
    if c = '"' && q = .ended then some ([], cs)
    else if c = '"' && q = .skipped then quotedWithin q bound cs
    else
      let first := if c = '$' then reference? true cs
        else if c = '\x60' then (backquoted? cs).map fun (s, rest) => (.output true s, rest)
        else some (.text true [c], cs)
      match first with
      | none => none
      | some (p, cs) => (quotedWithin q bound cs).map fun (w, rest) => (p :: w, rest)

/-- The pieces of a text that counts as quoted. -/
def ofQuoted? (q : Quoting) (cs : List Char) : Option Word :=
  (quotedWithin q (cs.length + 1) cs).map (·.1)

/-- The pieces of a word, up to a character outside of quotes that ends it, and what follows. The
    number bounds the characters. -/
def unquotedWithin (ends : Char → Bool) : Nat → List Char → Option (Word × List Char)
  | 0, _ => none
  | _ + 1, [] => some ([], [])
  | bound + 1, '\\' :: '\n' :: cs => unquotedWithin ends bound cs
  | bound + 1, '\\' :: c :: cs => add (.text true [c]) (unquotedWithin ends bound cs)
  | bound + 1, c :: cs =>
    if ends c then some ([], c :: cs)
    else if c = '\'' then
      match cs.dropWhile (· != '\'') with
      | [] => none
      | _ :: rest => add (.text true (cs.takeWhile (· != '\''))) (unquotedWithin ends bound rest)
    else if c = '"' then
      match quotedWithin .ended bound cs with
      | none => none
      | some ([], rest) => add (.text true []) (unquotedWithin ends bound rest)
      | some (inside, rest) =>
        (unquotedWithin ends bound rest).map fun (w, rest) => (inside ++ w, rest)
    else if c = '$' then
      match reference? false cs with
      | none => none
      | some (p, rest) => add p (unquotedWithin ends bound rest)
    else if c = '\x60' then
      match backquoted? cs with
      | none => none
      | some (s, rest) => add (.output false s) (unquotedWithin ends bound rest)
    else add (.text false [c]) (unquotedWithin ends bound cs)
where
  /-- A piece more at the front. -/
  add (p : Piece) : Option (Word × List Char) → Option (Word × List Char) :=
    Option.map fun r => (p :: r.1, r.2)

/-- The word at the start of a text, up to a character that ends it, and what follows. -/
def split? (ends : Char → Bool) (cs : List Char) : Option (Word × List Char) :=
  unquotedWithin ends (cs.length + 1) cs

/-- The pieces of a text that stands without quotes. -/
def ofUnquoted? (cs : List Char) : Option Word :=
  (split? (fun _ => false) cs).map (·.1)

end Word

end TestBench.Shell
