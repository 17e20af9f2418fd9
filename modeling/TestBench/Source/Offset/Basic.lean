/-!
# Checked operations on offsets

Who reads a text by offsets can go wrong: an offset may lie behind the end, the ends of a slice may
be in the wrong order, a difference may be negative, a count may not fit into 32 bits, and a loop
may not get on. Here all of this is checked, and the first check that fails ends the reading
(`Trap`). So what is read without a trap is read without any of these faults, and in finitely many
rounds, since each round of a loop has to leave less to do than the one before (`loop`).
-/

namespace TestBench.Source.Offset

variable {α σ : Type}

/-- Why a checked operation is refused. -/
inductive Trap where
  /-- There is no element at an offset. -/
  | noElement
  /-- The ends of a slice are not in order, or not inside. -/
  | noSlice
  /-- A difference is negative. -/
  | underflow
  /-- A count does not fit into 32 bits. -/
  | overflow
  /-- A round of a loop leaves no less to do. -/
  | stalled
deriving Repr, DecidableEq

/-- What is computed with checks: a value, unless one of them fails. -/
abbrev Checked := Except Trap

/-! ### Operations -/

/-- The element at an offset. -/
def elementAt (l : List α) (i : Nat) : Checked α :=
  match l[i]? with
  | some x => .ok x
  | none => .error .noElement

/-- The element at an offset that is looked at only if it is not behind the last one. -/
def peek (l : List α) (i : Nat) : Checked (Option α) :=
  if i < l.length then some <$> elementAt l i else .ok none

/-- What lies from one offset up to another. -/
def slice (l : List α) (start stop : Nat) : Checked (List α) :=
  if start ≤ stop ∧ stop ≤ l.length then .ok (l.extract start stop) else .error .noSlice

/-- What lies from an offset on. -/
def sliceFrom (l : List α) (start : Nat) : Checked (List α) :=
  slice l start l.length

/-- A difference of counts. -/
def minus (a b : Nat) : Checked Nat :=
  if b ≤ a then .ok (a - b) else .error .underflow

/-- A count that has to fit into 32 bits, with a sign. -/
def count (n : Int) : Checked Int :=
  if -0x80000000 ≤ n ∧ n < 0x80000000 then .ok n else .error .overflow

/-! ### Loops and searches -/

/-- Makes rounds until one of them ends the loop. Each other one has to leave less to do. -/
def loop (left : σ → Nat) (round : σ → Checked (σ ⊕ α)) (s : σ) : Checked α :=
  match round s with
  | .error trap => .error trap
  | .ok (.inr a) => .ok a
  | .ok (.inl s') => if left s' < left s then loop left round s' else .error .stalled
termination_by left s

/-- The first offset from a given one on where no element stands that satisfies `p`. -/
def passWhile (p : α → Bool) (l : List α) (start : Nat) : Checked Nat :=
  loop (l.length - ·) (fun pos => do
    if pos < l.length then
      if p (← elementAt l pos) then return .inl (pos + 1) else return .inr pos
    else return .inr pos) start

/-- The first offset from a given one on where an element stands that satisfies `p`, or the end. -/
def find (p : α → Bool) (l : List α) (start : Nat) : Checked Nat := do
  match (← sliceFrom l start).findIdx? p with
  | some offset => return start + offset
  | none => return l.length

end TestBench.Source.Offset
