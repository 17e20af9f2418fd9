/-!
# White space

Two kinds of white space are told apart. The *blank bytes* are the five that separate tokens
of C text; the *blank characters* are those with the White_Space property of Unicode. Every
blank byte is a blank character, but a vertical tab, for one, is only the latter.

* `dropTail_prefix`: what is cut off at the end leaves a start.
-/

namespace TestBench.Text

/-- The bytes that separate tokens: space, tab, newline, form feed and carriage return. -/
def isBlankByte (b : UInt8) : Bool :=
  b == 0x20 || b == 0x09 || b == 0x0A || b == 0x0C || b == 0x0D

/-- The characters with the White_Space property. -/
def isBlank (c : Char) : Bool :=
  let n := c.toNat
  (0x09 ≤ n && n ≤ 0x0D) || n == 0x20 || n == 0x85 || n == 0xA0 || n == 0x1680 ||
    (0x2000 ≤ n && n ≤ 0x200A) || n == 0x2028 || n == 0x2029 || n == 0x202F || n == 0x205F ||
    n == 0x3000

/-- A list without its longest tail of elements that satisfy `p`. -/
def dropTail {α : Type} (p : α → Bool) (l : List α) : List α :=
  (l.reverse.dropWhile p).reverse

/-- A text without the blanks at its end. -/
def trimEnd (s : String) : String :=
  String.ofList (dropTail isBlank s.toList)

/-- A text without the blanks at either end. -/
def trim (s : String) : String :=
  String.ofList ((dropTail isBlank s.toList).dropWhile isBlank)

/-- Without its tail, a list is what it starts with. -/
theorem dropTail_prefix {α : Type} (p : α → Bool) (l : List α) : dropTail p l <+: l := by
  rw [dropTail, ← List.reverse_suffix, List.reverse_reverse]
  exact List.dropWhile_suffix p

end TestBench.Text
