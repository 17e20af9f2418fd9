/-!
# Values of a configuration

A configuration is a table of values, some of which are tables again. A table remembers how it
came to be, since that decides who may still add to it: one in braces is complete, one that a
header names must not be named again, and one that dotted keys lead to grows by dotted keys
only.

* `find?_put`: a put value is found, and the others stay.
-/

namespace TestBench.Toml

/-- How a table came to be. -/
inductive Origin where
  /-- It was written in braces. -/
  | braces
  /-- A header names it. -/
  | header
  /-- The header of a table below names it on the way. -/
  | onTheWay
  /-- A dotted key leads through it. -/
  | dotted
deriving Repr, DecidableEq

/-- A value. Of floating numbers, dates and times only the kind is kept. -/
inductive Value where
  | string (text : String)
  | integer (n : Int)
  | float
  | boolean (b : Bool)
  | moment
  | array (items : List Value)
  | table (origin : Origin) (entries : List (String × Value))
  /-- The tables that repeated headers in double brackets make. -/
  | tables (each : List (List (String × Value)))
deriving Repr

/-- Values by their keys. -/
abbrev Table := List (String × Value)

namespace Table

/-- The value of a key. -/
def find? : Table → String → Option Value
  | [], _ => none
  | (k, v) :: t, key => if k = key then some v else find? t key

/-- The table with a value for a key, in place of one that it may have. -/
def put (key : String) (value : Value) : Table → Table
  | [] => [(key, value)]
  | (k, v) :: t => if k = key then (key, value) :: t else (k, v) :: put key value t

/-- Changes the table that a path leads to. The change is told how that table came to be, if the
    path leads through any. A table that is not there yet is made as `made` says, and only those
    are entered of which `enters` allows it; of the tables of repeated headers, the last one. -/
def change (made : Origin) (enters : Origin → Bool) (here : Option Origin) (path : List String)
    (f : Option Origin → Table → Option Table) (t : Table) : Option Table :=
  match path with
  | [] => f here t
  | key :: path =>
    match t.find? key with
    | none => (change made enters (some made) path f []).map fun t' => t.put key (.table made t')
    | some (.table origin t') =>
      if enters origin then
        (change made enters (some origin) path f t').map fun t' => t.put key (.table origin t')
      else none
    | some (.tables each) =>
      match each.getLast? with
      | some last =>
        (change made enters (some .header) path f last).map fun t' =>
          t.put key (.tables (each.dropLast ++ [t']))
      | none => none
    | some _ => none

/-- The table with a value for a dotted key, unless there is one already. -/
def assign (path : List String) (key : String) (value : Value) (t : Table) : Option Table :=
  change .dotted (fun o => o = .dotted || o = .onTheWay) (some .dotted) path
    (fun here t =>
      if here = some .dotted && (t.find? key).isNone then some (t.put key value) else none)
    t

/-- Whether a header may lead through a table. -/
def isOpen (o : Origin) : Bool := o ≠ .braces

/-- The table with a table where a header says. One that was only on the way so far is as good
    as new. -/
def openTable (path : List String) (key : String) (t : Table) : Option Table :=
  change .onTheWay isOpen none path
    (fun _ t =>
      match t.find? key with
      | none => some (t.put key (.table .header []))
      | some (.table .onTheWay t') => some (t.put key (.table .header t'))
      | some _ => none)
    t

/-- The table with one more table where a header in double brackets says. -/
def openNext (path : List String) (key : String) (t : Table) : Option Table :=
  change .onTheWay isOpen none path
    (fun _ t =>
      match t.find? key with
      | none => some (t.put key (.tables [[]]))
      | some (.tables each) => some (t.put key (.tables (each ++ [[]])))
      | some _ => none)
    t

/-- The table with a value for a dotted key below the table that the last header names. -/
def assignBelow (current path : List String) (key : String) (value : Value) (t : Table) :
    Option Table :=
  change .onTheWay isOpen none current (fun _ t => assign path key value t) t

/-- A put value is found, and the others stay. -/
theorem find?_put (t : Table) (key : String) (value : Value) (k : String) :
    (t.put key value).find? k = if k = key then some value else t.find? k := by
  induction t with
  | nil => simp [put, find?, eq_comm]
  | cons p t ih =>
    obtain ⟨k', v⟩ := p
    by_cases hk : k' = key
    · subst hk
      by_cases h : k' = k
      · simp [put, find?, h]
      · simp [put, find?, h, Ne.symm h]
    · by_cases h : k' = k
      · subst h; simp [put, find?, hk]
      · simp [put, find?, hk, h, ih]

end Table

end TestBench.Toml
