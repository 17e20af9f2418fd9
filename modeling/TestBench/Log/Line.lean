import TestBench.Log
import TestBench.Text.Digits

/-!
# Lines of the log

How an event is written: the time, the level and the message as they are, or all of them as an
object of JSON. The time comes from whoever writes the line.

* `newline_not_mem_escaped`: quoting leaves no line end in a message, so in the second format
  every event has one line.
-/

namespace TestBench

/-- How the lines of the log are written. -/
inductive LogFormat where
  | compact
  | json
deriving Repr, DecidableEq

/-- The name of a level. -/
def Level.name : Level → String
  | .error => "ERROR"
  | .warn => "WARN"
  | .info => "INFO"
  | .debug => "DEBUG"
  | .trace => "TRACE"

namespace Log

/-- A digit in base sixteen. -/
def hexDigit (n : Nat) : Char :=
  if n < 10 then Char.ofNat ('0'.toNat + n) else Char.ofNat ('a'.toNat + (n - 10))

/-- How a character is written between double quotes. -/
def escape (c : Char) : List Char :=
  if c = '"' then ['\\', '"']
  else if c = '\\' then ['\\', '\\']
  else if c = '\n' then ['\\', 'n']
  else if c = '\r' then ['\\', 'r']
  else if c = '\t' then ['\\', 't']
  else if c = '\x08' then ['\\', 'b']
  else if c = '\x0c' then ['\\', 'f']
  else if c.toNat < 0x20 then
    ['\\', 'u', '0', '0', hexDigit (c.toNat / 16), hexDigit (c.toNat % 16)]
  else [c]

/-- How a text is written between double quotes. -/
def escaped (cs : List Char) : List Char :=
  cs.flatMap escape

/-- A text between double quotes. -/
def quoted (text : String) : String :=
  "\"" ++ String.ofList (escaped text.toList) ++ "\""

/-- A key of an object and what belongs to it. -/
def member (key value : String) : String :=
  quoted key ++ ":" ++ value

/-- An object. -/
def object (members : List String) : String :=
  "\x7b" ++ ",".intercalate members ++ "\x7d"

/-- The line of an event. -/
def line (format : LogFormat) (time : String) (e : Event) : String :=
  let level := e.level.name
  match format with
  | .compact => time ++ " " ++ "".pushn ' ' (5 - level.length) ++ level ++ " " ++ e.message
  | .json =>
    object [member "timestamp" (quoted time), member "level" (quoted level),
      member "fields" (object [member "message" (quoted e.message)])]

theorem hexDigit_ne_newline {n : Nat} (h : n < 16) : hexDigit n ≠ '\n' := by
  revert n
  decide

theorem newline_not_mem_escape (c : Char) : '\n' ∉ escape c := by
  by_cases hc : c = '\n'
  · subst hc; decide
  · unfold escape
    repeat' split
    all_goals simp only [List.mem_cons, List.not_mem_nil, or_false, not_or, Ne.symm hc,
      not_false_eq_true]
    all_goals try decide
    have hd : ∀ n < 16, '\n' ≠ hexDigit n := fun n h => (hexDigit_ne_newline h).symm
    exact ⟨by decide, by decide, by decide, by decide, hd _ (by omega), hd _ (by omega)⟩

/-- Quoting leaves no line end in a text. -/
theorem newline_not_mem_escaped (cs : List Char) : '\n' ∉ escaped cs := by
  simp only [escaped, List.mem_flatMap, not_exists, not_and]
  exact fun c _ => newline_not_mem_escape c

end Log

end TestBench
