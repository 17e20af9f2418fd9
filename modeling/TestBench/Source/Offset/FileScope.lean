import TestBench.Source.FileScope
import TestBench.Source.Offset.Prototype

/-!
# File scope by offsets

The statements at file scope are found by offsets into the text and into its masked copy: that of
the statement, that of the next byte, and those that a search ahead gives. A statement may start
behind the next byte, if only blanks have come so far.

* `scan`: what a text has at file scope.
-/

namespace TestBench.Source.Offset

open Utf8

/-! ### Looking ahead -/

/-- The offset behind the blanks at an offset. -/
def skipBlanks (masked : List UInt8) (start : Nat) : Checked Nat :=
  passWhile Text.isBlankByte masked start

/-- The offset behind the word at an offset. -/
def wordEnd (masked : List UInt8) (start : Nat) : Checked Nat :=
  passWhile isWordByte masked start

/-- The offset of the brace that closes the last of `depth` open ones. -/
def matchingFrom (depth i : Nat) : List UInt8 → Checked (Option Nat)
  | [] => return none
  | b :: bs => do
    if b = openBrace then matchingFrom (depth + 1) (i + 1) bs
    else if b = closeBrace then
      let depth ← minus depth 1
      if depth = 0 then return some i else matchingFrom depth (i + 1) bs
    else matchingFrom depth (i + 1) bs

/-- The offset of the brace that closes the one at an offset. -/
def matchingBrace (masked : List UInt8) (start : Nat) : Checked (Option Nat) := do
  matchingFrom 0 start (← sliceFrom masked start)

/-- The offset of the first semicolon outside brace groups. -/
def terminatorFrom (depth i : Nat) : List UInt8 → Option Nat
  | [] => none
  | b :: bs =>
    if b = openBrace then terminatorFrom (depth + 1) (i + 1) bs
    else if b = closeBrace then terminatorFrom (depth - 1) (i + 1) bs
    else if b = semicolon ∧ depth = 0 then some i
    else terminatorFrom depth (i + 1) bs

/-- The offset of the first semicolon outside brace groups from an offset on. -/
def statementTerminator (masked : List UInt8) (start : Nat) : Checked (Option Nat) := do
  return terminatorFrom 0 start (← sliceFrom masked start)

/-- The offset behind a tag and the blanks after it, if there is a tag at an offset. -/
def skipTag (masked : List UInt8) (start : Nat) : Checked Nat := do
  if (← peek masked start).any isTagStart then skipBlanks masked (← wordEnd masked start)
  else return start

/-- The offset of the brace that opens a definition, given the offset behind its keyword. -/
def openingAt (masked : List UInt8) (start : Nat) : Checked (Option Nat) := do
  let stop ← skipTag masked (← skipBlanks masked start)
  return if (← peek masked stop) = some openBrace then some stop else none

/-- The offset behind a definition, given that of its brace. -/
def definitionEnd (masked : List UInt8) (start : Nat) : Checked (Option Nat) := do
  match ← matchingBrace masked start with
  | none => return none
  | some close => return (← statementTerminator masked (close + 1)).map (· + 1)

/-! ### Rounds -/

/-- How far the scan has come: the offset of the next byte, that of the statement, whether this has
    met a brace group, the number of open blocks of C linkage, and what has been found. -/
structure Scan where
  place : Nat
  start : Nat
  hasBlock : Bool
  blocks : Nat
  found : List Declaration

/-- Whether a text opens a block of C linkage, blanks apart. -/
def opensLinkage (head : String) : Bool :=
  head.toList.filter (fun c => !Text.isBlank c) == "extern\"C\"".toList

namespace Scan

variable (st : Scan) (text masked : List UInt8)

/-- Goes to a new statement at an offset. -/
def next (place : Nat) : Scan :=
  { st with place, start := place, hasBlock := false }

/-- The prototype that the semicolon at the next byte ends, if the statement is one. -/
def prototypes : Checked (List Declaration) := do
  let start ← skipBlanks masked st.start
  if st.hasBlock = false ∧ start < st.place then
    if ← isPrototype (lossy (← slice masked start (st.place + 1))) then
      return [⟨.prototype, lossy (← slice text start (st.place + 1)), start⟩]
    else return []
  else return []

/-- Passes a brace: that of a block of C linkage alone, or else its whole group. -/
def passBrace : Checked (Scan ⊕ Reading) := do
  -- After blanks only, the search for the start of the statement goes behind the brace.
  let start := min (← skipBlanks masked st.start) st.place
  let head ← slice text start st.place
  if opensLinkage (lossy head) then
    return .inl { st.next (st.place + 1) with blocks := st.blocks + 1 }
  else
    match ← matchingBrace masked st.place with
    | none => return .inr ⟨st.found, some (.unbalanced st.place), st.blocks⟩
    | some close =>
      let code ← slice masked start st.place
      if code.reverse.find? (fun b => !Text.isBlankByte b) = some closeParen then
        return .inl (st.next (close + 1))
      else return .inl { st with place := close + 1, hasBlock := true }

/-- Where the definition starts whose keyword is at the next byte: there, or with the statement if
    that makes it a type name. -/
def definitionStart : Checked Nat := do
  let start ← skipBlanks masked st.start
  if start < st.place then
    let lead ← slice masked start st.place
    if (Text.dropTail Text.isBlankByte lead).dropWhile Text.isBlankByte = encode "typedef" then
      return start
    else return st.place
  else return st.place

/-- Notes the definition between two offsets, and goes behind it. -/
def passDefinition (start stop : Nat) : Checked (Scan ⊕ Reading) := do
  let definition ← slice text start stop
  return .inl { st.next stop with found := st.found ++ [⟨.structOrEnum, lossy definition, start⟩] }

/-- Notes all from an offset on as a definition without an end, and stops. -/
def stopUnterminated (word : List UInt8) (start : Nat) : Checked (Scan ⊕ Reading) := do
  let definition ← slice text start masked.length
  return .inr ⟨st.found ++ [⟨.structOrEnum, Text.trimEnd (lossy definition), start⟩],
    some (.unterminated (lossy word) start), st.blocks⟩

/-- Passes a word, or the whole definition that it starts. -/
def passWord : Checked (Scan ⊕ Reading) := do
  let stop ← wordEnd masked st.place
  let word ← slice masked st.place stop
  if word ≠ encode "struct" ∧ word ≠ encode "enum" then return .inl { st with place := stop }
  else
    match ← openingAt masked stop with
    | none => return .inl { st with place := stop }
    | some brace =>
      let start ← st.definitionStart masked
      match ← definitionEnd masked brace with
      | some stop => st.passDefinition text start stop
      | none => st.stopUnterminated text masked word start

/-- Passes what starts with the next byte, or stops. -/
def round : Checked (Scan ⊕ Reading) := do
  if st.place < masked.length then
    let b ← elementAt masked st.place
    if b = semicolon then
      let found ← st.prototypes text masked
      return .inl { st.next (st.place + 1) with found := st.found ++ found }
    else if b = openBrace then st.passBrace text masked
    else if b = closeBrace then
      return .inl { st.next (st.place + 1) with blocks := st.blocks - 1 }
    else if isWordByte b then st.passWord text masked
    else return .inl { st with place := st.place + 1 }
  else return .inr ⟨st.found, none, st.blocks⟩

end Scan

/-- What a text has at file scope, given its masked copy. -/
def scan (text masked : List UInt8) : Checked Reading :=
  loop (masked.length - Scan.place ·) (Scan.round · text masked) ⟨0, 0, false, 0, []⟩

end TestBench.Source.Offset
