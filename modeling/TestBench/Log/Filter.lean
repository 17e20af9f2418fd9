import TestBench.Log
import TestBench.Text.Blank
import TestBench.Text.Digits
import TestBench.Text.Pieces
import TestBench.Text.Word

/-!
# Which events are shown

A filter is a list of rules, each of which says from which level on the events of some parts of
the program are shown. The parts are meant by the start of their names, and of all rules that
mean a part the one with the longest start holds. No rule, no event.

* `passes`: whether an event is shown.
-/

namespace TestBench

/-- The name by which a rule means a part of the program. -/
def Reporter.name : Reporter → String
  | .program => "cscaffold"
  | .extraction => "cscaffold::core::extractor"
  | .synthesis => "cscaffold::core::synthesizer"
  | .lookup => "cscaffold::core::locator"
  | .reading => "cscaffold::domain::model"
  | .workspace => "cscaffold::adapters::workspace"
  | .coverage => "cscaffold::core::coverage"
  | .pipeline => "cscaffold::core::pipeline"
  | .engine => "cscaffold::core::engine"
  | .process => "cscaffold::adapters::process"

/-- The start of the names that a rule means, and the least grave level that it shows, if it
    shows any. -/
structure Rule where
  start : List Char
  threshold : Option Level
deriving Repr, DecidableEq

/-- The rules by which events are shown. -/
structure Filter where
  rules : List Rule
deriving Repr, DecidableEq

namespace Rule

/-- Whether a rule means a part of the program. -/
def concerns (r : Rule) (reporter : Reporter) : Bool :=
  r.start.isPrefixOf reporter.name.toList

/-- Whether a rule shows events of a level. -/
def shows (r : Rule) (level : Level) : Bool :=
  match r.threshold with
  | some threshold => level.rank ≤ threshold.rank
  | none => false

/-- The thresholds by their numbers. -/
def thresholdOfNumber? : Nat → Option (Option Level)
  | 0 => some none
  | 1 => some (some .error)
  | 2 => some (some .warn)
  | 3 => some (some .info)
  | 4 => some (some .debug)
  | 5 => some (some .trace)
  | _ => none

/-- The digits of a number, which may have a plus sign. -/
def unsigned : List Char → List Char
  | '+' :: cs => cs
  | cs => cs

/-- The threshold that a text gives, by name or by number. -/
def threshold? (cs : List Char) : Option (Option Level) :=
  match String.ofList (cs.map Char.toLower) with
  | "off" => some none
  | "error" => some (some .error)
  | "warn" => some (some .warn)
  | "info" => some (some .info)
  | "debug" => some (some .debug)
  | "trace" => some (some .trace)
  | _ =>
    if (unsigned cs).isEmpty then none
    else (Text.number? 10 (unsigned cs)).bind thresholdOfNumber?

/-- The threshold behind an equals sign, where nothing stands for everything. -/
def thresholdBehindSign? (cs : List Char) : Option (Option Level) :=
  if cs.isEmpty then some (some .trace) else threshold? cs

/-- Whether a text may follow an opening bracket: a scope, perhaps with fields in braces, the
    closing bracket, and perhaps a threshold. -/
def endsScope (cs : List Char) : Bool :=
  match cs.dropWhile fun c => c != ']' && c != '\x7b' with
  | ']' :: rest => endsRule rest
  | _ :: rest =>
    match rest.dropWhile (· != '\x7d') with
    | _ :: ']' :: after => rest.head? != some '\x7d' && endsRule after
    | _ => false
  | [] => false
where
  /-- Whether a text may end a rule. -/
  endsRule : List Char → Bool
    | [] => true
    | '=' :: cs => (thresholdBehindSign? cs).isSome
    | _ => false

/-- Whether a rule may start with a character. -/
def startsRule (c : Char) : Bool :=
  c == '[' || c == '-' || c == ':' || Text.isWord c

/-- The rules that a text gives. A text in which brackets name a scope gives none, since no
    event here is in a scope. -/
def read? (cs : List Char) : Option (List Rule) :=
  let name := cs.takeWhile fun c => c != '=' && c != '['
  if !(cs.head?.any startsRule) then none
  else
    match cs.dropWhile fun c => c != '=' && c != '[' with
    | [] =>
      match threshold? name with
      | some threshold => some [⟨[], threshold⟩]
      | none => some [⟨name, some .trace⟩]
    | '=' :: rest => (thresholdBehindSign? rest).map fun threshold => [⟨name, threshold⟩]
    | _ :: rest => if endsScope rest then some [] else none

end Rule

namespace Filter

/-- The rule that holds for a part of the program. -/
def ruleFor? (f : Filter) (reporter : Reporter) : Option Rule :=
  f.rules.foldl
    (fun best r =>
      if r.concerns reporter && best.all (·.start.length ≤ r.start.length) then some r else best)
    none

/-- Whether an event is shown. -/
def passes (f : Filter) (e : Event) : Bool :=
  (f.ruleFor? e.reporter).any (·.shows e.level)

/-- The filter that a text describes: rules between commas, all of which have to be rules. -/
def read? (text : String) : Option Filter :=
  let parts := (Text.pieces ',' text.toList).filter (!·.isEmpty)
  (parts.mapM fun cs => Rule.read? (Text.trim (String.ofList cs)).toList).map fun rules =>
    ⟨rules.flatten⟩

/-- What is shown where nothing else is asked for. -/
def standard (verbose : Bool) : Filter :=
  if verbose then ⟨[⟨"cscaffold".toList, some .debug⟩, ⟨[], some .info⟩]⟩
  else ⟨[⟨"cscaffold".toList, some .info⟩]⟩

/-- The filter that a text describes, if there is one and it does. -/
def chosen (verbose : Bool) (text : Option String) : Filter :=
  (text.bind read?).getD (standard verbose)

end Filter

end TestBench
