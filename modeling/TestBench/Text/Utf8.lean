/-!
# UTF-8

Bytes are read as text by a machine that takes one byte a step and remembers, inside a
character, how many bytes are owed and between which bounds the next one has to lie. Two
readings share it: the strict one (`decode`) stops at the first fault and names it, the
lenient one (`lossy`) puts a replacement character for every maximal part that starts no
character.

* `lossyFrom_eq_of_decodeFrom`: where the strict reading succeeds, the lenient one agrees.
-/

namespace TestBench.Utf8

/-- The bytes of a text. -/
def encode (s : String) : List UInt8 :=
  s.toList.flatMap String.utf8EncodeChar

/-- Where the machine stands: between two characters, or inside one of which `seen` bytes
    have been read, with value `code` so far, and `owed + 1` are still to come, the next of
    them between `low` and `high`. -/
inductive State where
  | between
  | inside (seen owed : Nat) (low high : UInt8) (code : Nat)
deriving Repr, DecidableEq

/-- What a byte does to the machine. -/
inductive Move where
  | next (state : State)
  | scalar (c : Char)
  | refuse
deriving Repr, DecidableEq

/-- The step on the first byte of a character. -/
def start (b : UInt8) : Move :=
  let n := b.toNat
  if b < 0x80 then .scalar (Char.ofNat n)
  else if b < 0xC2 then .refuse
  else if b < 0xE0 then .next (.inside 1 0 0x80 0xBF (n - 0xC0))
  else if b == 0xE0 then .next (.inside 1 1 0xA0 0xBF 0)
  else if b == 0xED then .next (.inside 1 1 0x80 0x9F 0xD)
  else if b < 0xF0 then .next (.inside 1 1 0x80 0xBF (n - 0xE0))
  else if b == 0xF0 then .next (.inside 1 2 0x90 0xBF 0)
  else if b < 0xF4 then .next (.inside 1 2 0x80 0xBF (n - 0xF0))
  else if b == 0xF4 then .next (.inside 1 2 0x80 0x8F 4)
  else .refuse

/-- The step on any byte. -/
def State.step : State → UInt8 → Move
  | .between, b => start b
  | .inside seen owed low high code, b =>
    if low ≤ b && b ≤ high then
      let code := code * 64 + (b.toNat - 0x80)
      match owed with
      | 0 => .scalar (Char.ofNat code)
      | owed + 1 => .next (.inside (seen + 1) owed 0x80 0xBF code)
    else .refuse

/-- The number of bytes of the character the machine is inside of. -/
def State.seen : State → Nat
  | .between => 0
  | .inside seen _ _ _ _ => seen

/-- Why bytes are no text: from `index` on, `length` bytes start no character, or the input
    ends inside one. -/
inductive Fault where
  | malformed (index length : Nat)
  | truncated (index : Nat)
deriving Repr, DecidableEq

/-- The wording of a fault. -/
def Fault.message : Fault → String
  | .malformed index length =>
    s!"invalid utf-8 sequence of {length} bytes from index {index}"
  | .truncated index => s!"incomplete utf-8 byte sequence from index {index}"

/-- The strict reading from a state, `pos` bytes into the input. -/
def decodeFrom (pos : Nat) : State → List UInt8 → Except Fault (List Char)
  | .between, [] => .ok []
  | .inside seen _ _ _ _, [] => .error (.truncated (pos - seen))
  | state, b :: rest =>
    match state.step b with
    | .next state' => decodeFrom (pos + 1) state' rest
    | .scalar c => (decodeFrom (pos + 1) .between rest).map (c :: ·)
    | .refuse => .error (.malformed (pos - state.seen) (max state.seen 1))

/-- The text that bytes spell, or the first fault in them. -/
def decode (bytes : List UInt8) : Except Fault String :=
  (decodeFrom 0 .between bytes).map String.ofList

/-- The character put for bytes that start no character. -/
def replacement : Char := Char.ofNat 0xFFFD

/-- The lenient reading from a state. A byte that cannot continue a character is read again
    as the start of the next one. -/
def lossyFrom : State → List UInt8 → List Char
  | .between, [] => []
  | .inside _ _ _ _ _, [] => [replacement]
  | .between, b :: rest =>
    match start b with
    | .next state => lossyFrom state rest
    | .scalar c => c :: lossyFrom .between rest
    | .refuse => replacement :: lossyFrom .between rest
  | .inside seen owed low high code, b :: rest =>
    match (State.inside seen owed low high code).step b with
    | .next state => lossyFrom state rest
    | .scalar c => c :: lossyFrom .between rest
    | .refuse =>
      replacement ::
        match start b with
        | .next state => lossyFrom state rest
        | .scalar c => c :: lossyFrom .between rest
        | .refuse => replacement :: lossyFrom .between rest

/-- The text that bytes spell, with a replacement character for each part that is none. -/
def lossy (bytes : List UInt8) : String :=
  String.ofList (lossyFrom .between bytes)

/-- Where the strict reading succeeds, the lenient one reads the same characters. -/
theorem lossyFrom_eq_of_decodeFrom {bytes : List UInt8} {pos : Nat} {state : State}
    {cs : List Char} (h : decodeFrom pos state bytes = .ok cs) : lossyFrom state bytes = cs := by
  induction bytes generalizing pos state cs with
  | nil => cases state <;> simp_all [decodeFrom, lossyFrom]
  | cons b rest ih =>
    cases hm : state.step b with
    | next state' =>
      rw [decodeFrom.eq_3 _ _ _ _ , hm] at h
      cases state <;> simp_all [State.step, lossyFrom, ih h]
    | scalar c =>
      simp only [decodeFrom, hm] at h
      cases hd : decodeFrom (pos + 1) .between rest with
      | error e => simp [hd, Except.map] at h
      | ok cs' =>
        have hc : c :: cs' = cs := by simpa [hd, Except.map] using h
        cases state <;> simp_all [State.step, lossyFrom, ih hd]
    | refuse => simp [decodeFrom, hm] at h

end TestBench.Utf8
