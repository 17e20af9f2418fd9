import TestBench.Text.Utf8
import TestBench.Web.Domain.Bidi
import TestBench.Web.Domain.Label
import TestBench.Web.Domain.Mapping
import TestBench.Web.Punycode

/-!
# Domain names

A domain name may be written in any script; what counts is its form in ASCII. To get there, its
characters are mapped and composed, and it is cut into labels. A label that starts with `xn--`
spells another text, which has to be what such a label could have come from; a label beyond
ASCII is spelled that way. Labels that break a rule make the whole name invalid.

* `asciiOf_of_plain`: a label within ASCII is its own form.
-/

namespace TestBench.Web.Domain

/-- What a label starts with that spells another text. -/
def spellingMark : List Char := ['x', 'n', '-', '-']

/-- The number of characters in the longest label that is spelled, and in the longest spelling
    that is read. -/
def maxLabel : Nat := 1000
def maxSpelling : Nat := 2000

/-- Whether a character is one of ASCII. -/
def isPlain (c : Char) : Bool := c.toNat < 0x80

/-- A label, and the text that it spells, which mostly is the label itself. -/
structure Label where
  written : List Char
  text : List Char
deriving Repr, DecidableEq

/-- A label with the text that it spells. A spelling has to be needed, and its text has to be in
    the form that mapping and composing lead to. -/
def readLabel (written : List Char) : Option Label :=
  if spellingMark.isPrefixOf written then
    let spelling := written.drop spellingMark.length
    if maxSpelling < spelling.length || !spelling.all isPlain then none
    else
      match Punycode.decode spelling with
      | none => none
      | some text =>
        if text.all isPlain then none
        else if mapAll text = some text && Text.Normal.compose text = text then
          some ⟨written, text⟩
        else none
  else some ⟨written, written⟩

/-- Whether a label keeps the rules for single labels. -/
def Label.isValid (l : Label) : Bool :=
  !l.written.any isForbidden && startsWell l.text && joinersFit l.text

/-- The form of a label in ASCII. -/
def Label.asciiOf (l : Label) : Option (List Char) :=
  if l.written.all isPlain then some l.written
  else if maxLabel < l.written.length then none
  else some (spellingMark ++ Punycode.encode l.written)

/-- The form of a domain name in ASCII, unless it is invalid. -/
def toAscii (name : List Char) : Option (List Char) :=
  match mapAll name with
  | none => none
  | some mapped =>
    match (Text.pieces '.' (Text.Normal.compose mapped)).mapM readLabel with
    | none => none
    | some labels =>
      if labels.all Label.isValid && directionsFit (labels.map Label.text) then
        (labels.mapM Label.asciiOf).map (['.'].intercalate ·)
      else none

/-- A label within ASCII is its own form. -/
theorem asciiOf_of_plain {l : Label} (h : l.written.all isPlain) :
    l.asciiOf = some l.written :=
  if_pos h

end TestBench.Web.Domain
