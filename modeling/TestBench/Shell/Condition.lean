import TestBench.FileTree.Request
import TestBench.Shell.Arithmetic

/-!
# Conditions

What `test` is asked: about texts, numbers and files. How many words there are decides how they
are read; only longer conditions are put together by `-a` and `-o`.

* `holds`: whether a condition holds.
-/

namespace TestBench.Shell

/-- Why a condition cannot be judged. -/
inductive ConditionFault where
  | noNumber (text : String)
  | unexpected (text : String)
  | missingArgument (text : String)
deriving Repr, DecidableEq

namespace ConditionFault

/-- The wording of a fault. -/
def message : ConditionFault → String
  | .noNumber text => s!"Illegal number: {text}"
  | .unexpected text => s!"{text}: unexpected operator"
  | .missingArgument text => s!"{text}: argument expected"

end ConditionFault

namespace Condition

/-- The answer to a question about a file, if the sign asks one. -/
def aboutFile? (t : FileTree) (sign path : String) : Option Bool :=
  let found := t.find ⟨path⟩ true
  match sign with
  | "-e" => some found.isOk
  | "-f" => some (found.toOption.any fun e => match e.2 with | .file _ _ => true | _ => false)
  | "-d" => some (t.isDirectory ⟨path⟩)
  | "-r" => some found.isOk
  | "-w" => some found.isOk
  | "-x" =>
    some (found.toOption.any fun e => match e.2 with | .file _ executable => executable | _ => true)
  | "-s" =>
    some (found.toOption.any fun e => match e.2 with | .file bytes _ => !bytes.isEmpty | _ => true)
  | "-L" => some (isLink t path)
  | "-h" => some (isLink t path)
  | _ => none
where
  /-- Whether a link stands where a path leads. -/
  isLink (t : FileTree) (path : ByteString) : Bool :=
    (t.find ⟨path⟩ false).toOption.any fun e => match e.2 with | .link _ => true | _ => false

/-- The answer to a question about one word, if the sign asks one. -/
def aboutOne? (t : FileTree) (sign word : String) : Option Bool :=
  match sign with
  | "-n" => some (!word.isEmpty)
  | "-z" => some word.isEmpty
  | "-t" => some false
  | _ => aboutFile? t sign word

/-- The number that a word is. -/
def number (word : String) : Except ConditionFault Int :=
  let cs := (Sum.skipBlanks word.toList).reverse.dropWhile (· = ' ')
  let cs := cs.reverse
  let digits := match cs with | '+' :: ds => ds | '-' :: ds => ds | ds => ds
  match digits, Text.number? 10 digits with
  | [], _ => .error (.noNumber word)
  | _, some n => .ok (if cs.head? = some '-' then -n else n)
  | _, none => .error (.noNumber word)

/-- The comparison of numbers that a sign stands for. -/
def comparison? (sign : String) : Option (Int → Int → Bool) :=
  match sign with
  | "-eq" => some fun a b => a == b
  | "-ne" => some fun a b => a != b
  | "-lt" => some fun a b => a < b
  | "-le" => some fun a b => a ≤ b
  | "-gt" => some fun a b => a > b
  | "-ge" => some fun a b => a ≥ b
  | _ => none

/-- The answer to a question about two words, if the sign asks one. -/
def aboutTwo? (sign left right : String) : Option (Except ConditionFault Bool) :=
  match sign with
  | "=" => some (.ok (left == right))
  | "!=" => some (.ok (left != right))
  | "<" => some (.ok (left < right))
  | ">" => some (.ok (right < left))
  | _ => (comparison? sign).map fun compare => do return compare (← number left) (← number right)

/-- The first question of several, and what follows it. -/
def question (t : FileTree) : List String → Except ConditionFault (Bool × List String)
  | "!" :: words => (question t words).map fun (b, rest) => (!b, rest)
  | left :: sign :: right :: rest =>
    match aboutTwo? sign left right with
    | some answer => answer.map (·, rest)
    | none => one left (sign :: right :: rest)
  | word :: rest => one word rest
  | [] => .error (.missingArgument "test")
where
  /-- A question about one word, or whether it is empty. -/
  one (sign : String) (rest : List String) : Except ConditionFault (Bool × List String) :=
    match rest with
    | word :: after =>
      match aboutOne? t sign word with
      | some b => .ok (b, after)
      | none => .ok (!sign.isEmpty, rest)
    | [] => .ok (!sign.isEmpty, [])

/-- Questions that all have to hold, and what follows them. The number bounds the questions, as
    it does below. -/
def every (t : FileTree) : Nat → List String → Except ConditionFault (Bool × List String)
  | 0, words => .ok (false, words)
  | bound + 1, words =>
    match question t words with
    | .ok (b, "-a" :: rest) => (every t bound rest).map fun (c, rest) => (b && c, rest)
    | r => r

/-- Questions of which one has to hold. -/
def some? (t : FileTree) : Nat → List String → Except ConditionFault Bool
  | 0, _ => .ok false
  | bound + 1, words =>
    match every t bound words with
    | .error fault => .error fault
    | .ok (b, "-o" :: rest) => (some? t bound rest).map (b || ·)
    | .ok (b, []) => .ok b
    | .ok (_, rest) =>
      .error (.unexpected ((words.take (words.length - rest.length)).getLastD ""))

/-- Whether a condition holds. -/
def holds (t : FileTree) (words : List String) : Except ConditionFault Bool :=
  match words with
  | [] => .ok false
  | [word] => .ok (!word.isEmpty)
  | ["!", word] => .ok word.isEmpty
  | [sign, word] =>
    match aboutOne? t sign word with
    | some b => .ok b
    | none =>
      if (aboutTwo? word "" "").isSome then .error (.missingArgument word)
      else .error (.unexpected sign)
  | words => some? t (words.length + 1) words

end Condition

end TestBench.Shell
