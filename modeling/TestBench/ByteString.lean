import TestBench.Text.Utf8

/-!
# Byte strings

Names of files, paths and what a shell works on are made of bytes, and need not be a text. They
are kept as strings with one character for each byte, the one with its number. So what is said of
the characters of a byte string, such as slashes and dots, is said of its bytes.

A text becomes a byte string by its UTF-8. Back there are two ways: `text?` is strict, and `display`
puts replacement characters for what is no text.

* `ofText_append`: the byte string of two texts in a row.
-/

namespace TestBench

/-- Bytes, each as the character with its number. -/
abbrev ByteString := String

namespace ByteString

/-- The character that stands for a byte. -/
def char (b : UInt8) : Char :=
  Char.ofNat b.toNat

/-- The byte that a character stands for. -/
def byte (c : Char) : UInt8 :=
  UInt8.ofNat c.toNat

/-- Bytes as a byte string. -/
def ofBytes (bytes : List UInt8) : ByteString :=
  String.ofList (bytes.map char)

/-- The bytes of a byte string. -/
def bytes (b : ByteString) : List UInt8 :=
  b.toList.map byte

/-- A text as a byte string. -/
def ofText (text : String) : ByteString :=
  ofBytes (Utf8.encode text)

/-- Whether all characters stand for bytes. -/
def isBytes (b : ByteString) : Bool :=
  b.toList.all (·.toNat < 256)

/-- The text that a byte string is, if it is one. -/
def text? (b : ByteString) : Option String :=
  if b.isBytes then (Utf8.decode b.bytes).toOption else none

/-- A byte string as it is shown. -/
def display (b : ByteString) : String :=
  Utf8.lossy b.bytes

/-- The byte string of two texts in a row. -/
theorem ofText_append (s t : String) : ofText (s ++ t) = ofText s ++ ofText t := by
  simp [ofText, ofBytes, Utf8.encode, String.toList_append]

end ByteString

end TestBench
