import Mathlib.Data.List.Basic
import TestBench.Text.Utf8

/-!
# Texts and their bytes

What the lenient reading makes of bytes that do spell a text, and where a text may be cut. A
byte that *continues* a character is never the first of one, so a text may be cut in front of
every other byte (`IsText.split`); in particular it may be cut on either side of an ASCII byte.

* `decode_encode`, `lossy_encode`: the bytes of a text are read as the text;
* `encode_lossy`: of bytes that spell a text, it keeps every byte;
* `IsText.split`: both sides of a cut that no character spans are texts;
* `eq_of_lossyFrom`: what is read as ASCII is ASCII, byte by byte;
* `lossyFrom_append_cons`: what stands on either side of an ASCII byte is read by itself, even where
  it spells no text;
* `infix_of_infix_lossyFrom`: ASCII characters that are read together stand together.
-/

namespace TestBench.Utf8

/-- The bytes of characters. -/
def encodeChars (cs : List Char) : List UInt8 :=
  cs.flatMap String.utf8EncodeChar

@[simp]
theorem encodeChars_nil : encodeChars [] = [] :=
  rfl

@[simp]
theorem encodeChars_cons (c : Char) (cs : List Char) :
    encodeChars (c :: cs) = String.utf8EncodeChar c ++ encodeChars cs :=
  rfl

@[simp]
theorem encodeChars_append (cs ds : List Char) :
    encodeChars (cs ++ ds) = encodeChars cs ++ encodeChars ds :=
  List.flatMap_append

@[simp]
theorem encode_ofList (cs : List Char) : encode (String.ofList cs) = encodeChars cs := by
  rw [encode, String.toList_ofList, encodeChars]

theorem encodeChars_toList (s : String) : encodeChars s.toList = encode s :=
  rfl

@[simp]
theorem encode_append (s t : String) : encode (s ++ t) = encode s ++ encode t := by
  simp [encode]

/-! ### Reading what was written -/

theorem start_ascii {b : UInt8} (h : b < 0x80) : start b = .scalar (Char.ofNat b.toNat) := by
  simp [start, h]

/-- The first byte of a character of two bytes. -/
theorem start_two : ∀ n < 0x20, 2 ≤ n →
    start (UInt8.ofNat (n + 0xC0)) = .next (.inside 1 0 0x80 0xBF n) := by
  decide

/-- The first byte of a character of three bytes. The bounds leave out what is shorter as two
    bytes, and the surrogates. -/
theorem start_three : ∀ n < 0x10, start (UInt8.ofNat (n + 0xE0)) =
    .next (.inside 1 1 (if n = 0 then 0xA0 else 0x80) (if n = 0xD then 0x9F else 0xBF) n) := by
  decide

/-- The first byte of a character of four bytes. The bounds leave out what is shorter as three
    bytes, and what is beyond the last character. -/
theorem start_four : ∀ n < 5, start (UInt8.ofNat (n + 0xF0)) =
    .next (.inside 1 2 (if n = 0 then 0x90 else 0x80) (if n = 4 then 0x8F else 0xBF) n) := by
  decide

theorem lossyFrom_ascii {b : UInt8} (h : b < 0x80) (bs : List UInt8) :
    lossyFrom .between (b :: bs) = Char.ofNat b.toNat :: lossyFrom .between bs := by
  rw [lossyFrom, start_ascii h]

theorem lossyFrom_ascii_append {bs : List UInt8} (h : ∀ b ∈ bs, b < 0x80) (q : List UInt8) :
    lossyFrom .between (bs ++ q) =
      (bs.map fun b => Char.ofNat b.toNat) ++ lossyFrom .between q := by
  induction bs with
  | nil => rfl
  | cons b bs ih =>
    rw [List.forall_mem_cons] at h
    rw [List.cons_append, lossyFrom_ascii h.1, ih h.2, List.map_cons, List.cons_append]

theorem lossyFrom_of_ascii {bs : List UInt8} (h : ∀ b ∈ bs, b < 0x80) :
    lossyFrom .between bs = bs.map fun b => Char.ofNat b.toNat := by
  have := lossyFrom_ascii_append h []
  rwa [List.append_nil, lossyFrom, List.append_nil] at this

/-- A byte that continues a character adds its six bits to the value. -/
theorem step_continue {seen owed : Nat} {low high : UInt8} {code d : Nat} (hd : d < 0x40)
    (hl : low.toNat ≤ d + 0x80) (hh : d + 0x80 ≤ high.toNat) :
    (State.inside seen owed low high code).step (UInt8.ofNat (d + 0x80)) =
      match owed with
      | 0 => .scalar (Char.ofNat (code * 64 + d))
      | owed + 1 => .next (.inside (seen + 1) owed 0x80 0xBF (code * 64 + d)) := by
  have hb : (UInt8.ofNat (d + 0x80)).toNat = d + 0x80 := by
    rw [UInt8.toNat_ofNat', Nat.mod_eq_of_lt (by omega)]
  have h : (low ≤ UInt8.ofNat (d + 0x80) && UInt8.ofNat (d + 0x80) ≤ high) = true := by
    simp only [Bool.and_eq_true, decide_eq_true_eq, UInt8.le_iff_toNat_le, hb]
    exact ⟨hl, hh⟩
  cases owed with
  | zero => rw [State.step, if_pos h, hb, Nat.add_sub_cancel]
  | succ owed => rw [State.step, if_pos h, hb, Nat.add_sub_cancel]

/-- Whether bytes lead the machine from a state to the end of a character, and to no other before
    it. -/
inductive Spells : State → List UInt8 → Char → Prop
  | last {st : State} {b : UInt8} {c : Char} : st.step b = .scalar c → Spells st [b] c
  | more {st st' : State} {b : UInt8} {bs : List UInt8} {c : Char} :
    st.step b = .next st' → Spells st' bs c → Spells st (b :: bs) c

namespace Spells

variable {st : State} {p : List UInt8} {c : Char}

/-- What spells a character is read as that character, whatever follows. -/
theorem lossyFrom_append (h : Spells st p c) (bs : List UInt8) :
    lossyFrom st (p ++ bs) = c :: lossyFrom .between bs := by
  induction h with
  | @last st b c hb =>
    rw [List.singleton_append]
    cases st with
    | between => rw [lossyFrom, show start b = _ from hb]
    | inside => rw [lossyFrom, hb]
  | @more st st' b _ _ hb _ ih =>
    rw [List.cons_append]
    cases st with
    | between =>
      rw [lossyFrom, show start b = _ from hb]
      exact ih
    | inside =>
      rw [lossyFrom, hb]
      exact ih

/-- So it is by the strict reading. -/
theorem decodeFrom_append (h : Spells st p c) (pos : Nat) (bs : List UInt8) :
    decodeFrom pos st (p ++ bs) =
      (decodeFrom (pos + p.length) .between bs).map (c :: ·) := by
  induction h generalizing pos with
  | last hb => rw [List.singleton_append, decodeFrom, hb, List.length_singleton]
  | @more st st' b p c hb _ ih =>
    have hpos : pos + (p.length + 1) = pos + 1 + p.length := by omega
    rw [List.cons_append, decodeFrom, hb, List.length_cons, hpos]
    exact ih _

end Spells

/-- The bytes of a character spell it. -/
theorem spells_utf8EncodeChar (c : Char) : Spells .between (String.utf8EncodeChar c) c := by
  have hv : c.val.toNat < 0xD800 ∨ 0xDFFF < c.val.toNat ∧ c.val.toNat < 0x110000 := c.valid
  have hc : Char.ofNat c.val.toNat = c := Char.ofNat_toNat c
  unfold String.utf8EncodeChar
  generalize c.val.toNat = n at hv hc ⊢
  -- One case for each number of bytes; what is left each time is to put the bits together.
  simp only []
  split
  next h =>
    have hn : (UInt8.ofNat n).toNat = n := by
      rw [UInt8.toNat_ofNat', Nat.mod_eq_of_lt (by omega)]
    have hascii : UInt8.ofNat n < 0x80 := by
      rw [UInt8.lt_iff_toNat_lt, hn]
      exact Nat.lt_succ_of_le h
    refine .last ?_
    rw [State.step, start_ascii hascii, hn, hc]
  next h₁ =>
  split
  next h₂ =>
    refine .more (start_two _ (by omega) (by omega)) (.last ?_)
    rw [step_continue (by omega) (by simp) (by simp; omega)]
    simp only
    rw [show n / 64 % 32 * 64 + n % 64 = n by omega, hc]
  next h₂ =>
  split
  next h₃ =>
    refine .more (start_three _ (by omega)) (.more
      (step_continue (by omega) (by split <;> simp; omega) (by split <;> simp <;> omega))
      (.last ?_))
    rw [step_continue (by omega) (by simp) (by simp; omega)]
    simp only
    rw [show (n / 4096 % 16 * 64 + n / 64 % 64) * 64 + n % 64 = n by omega, hc]
  next h₃ =>
    refine .more (start_four _ (by omega)) (.more
      (step_continue (by omega) (by split <;> simp; omega) (by split <;> simp <;> omega))
      (.more (step_continue (by omega) (by simp) (by simp; omega)) (.last ?_)))
    rw [step_continue (by omega) (by simp) (by simp; omega)]
    simp only
    rw [show ((n / 262144 % 8 * 64 + n / 4096 % 64) * 64 + n / 64 % 64) * 64 + n % 64 = n by
      omega, hc]

/-- The bytes of a character are read as that character, whatever follows. -/
theorem lossyFrom_utf8EncodeChar (c : Char) (bs : List UInt8) :
    lossyFrom .between (String.utf8EncodeChar c ++ bs) = c :: lossyFrom .between bs :=
  (spells_utf8EncodeChar c).lossyFrom_append bs

theorem lossyFrom_encodeChars (cs : List Char) : lossyFrom .between (encodeChars cs) = cs := by
  induction cs with
  | nil => rfl
  | cons c cs ih => rw [encodeChars_cons, lossyFrom_utf8EncodeChar, ih]

theorem decodeFrom_encodeChars (cs : List Char) (pos : Nat) :
    decodeFrom pos .between (encodeChars cs) = .ok cs := by
  induction cs generalizing pos with
  | nil => rfl
  | cons c cs ih =>
    rw [encodeChars_cons, (spells_utf8EncodeChar c).decodeFrom_append, ih]
    rfl

theorem decode_encodeChars (cs : List Char) :
    decode (encodeChars cs) = .ok (String.ofList cs) := by
  rw [decode, decodeFrom_encodeChars]
  rfl

/-- The strict reading of the bytes of a text is the text. -/
theorem decode_encode (s : String) : decode (encode s) = .ok s := by
  rw [← encodeChars_toList, decode_encodeChars, String.ofList_toList]

/-- The lenient reading of the bytes of a text is the text. -/
@[simp]
theorem lossy_encode (s : String) : lossy (encode s) = s := by
  rw [lossy, ← encodeChars_toList, lossyFrom_encodeChars, String.ofList_toList]

@[simp]
theorem lossy_encodeChars (cs : List Char) : lossy (encodeChars cs) = String.ofList cs := by
  rw [lossy, lossyFrom_encodeChars]

/-! ### The length of what is read -/

/-- No byte is read as more than one character, but the end of the bytes may be inside of one. -/
theorem length_lossyFrom_le (state : State) (bs : List UInt8) :
    (lossyFrom state bs).length ≤ bs.length + if state = .between then 0 else 1 := by
  fun_induction lossyFrom state bs <;> simp_all <;> grind

theorem length_lossy_le (bs : List UInt8) : (lossy bs).toList.length ≤ bs.length := by
  rw [lossy, String.toList_ofList]
  exact length_lossyFrom_le .between bs

/-! ### Where a text may be cut -/

/-- Whether a byte can only continue a character. -/
def continues (b : UInt8) : Bool :=
  0x80 ≤ b && b < 0xC0

/-- Whether bytes can start where a character ends. -/
def StartsFresh (bs : List UInt8) : Prop :=
  ∀ b ∈ bs.head?, continues b = false

/-- Whether bytes spell a text. -/
def IsText (bs : List UInt8) : Prop :=
  ∃ cs : List Char, encodeChars cs = bs

theorem not_continues_of_ascii {b : UInt8} (h : b < 0x80) : continues b = false := by
  simp only [continues, Bool.and_eq_false_iff, decide_eq_false_iff_not]
  exact .inl (UInt8.not_le.2 h)

/-- The first byte of a character starts it, and all others continue it. -/
theorem utf8EncodeChar_eq_cons (c : Char) : ∃ b bs, String.utf8EncodeChar c = b :: bs ∧
    continues b = false ∧ ∀ x ∈ bs, continues x = true := by
  have hv : c.val.toNat < 0xD800 ∨ 0xDFFF < c.val.toNat ∧ c.val.toNat < 0x110000 := c.valid
  unfold String.utf8EncodeChar
  generalize c.val.toNat = n at hv ⊢
  simp only []
  split_ifs <;> refine ⟨_, _, rfl, ?_, ?_⟩ <;>
    simp [continues, UInt8.le_iff_toNat_le, UInt8.lt_iff_toNat_lt] <;> omega

/-- An ASCII byte is a character of its own. -/
theorem utf8EncodeChar_eq_of_head_ascii {c : Char} {b : UInt8} {bs : List UInt8}
    (h : String.utf8EncodeChar c = b :: bs) (hb : b < 0x80) : bs = [] := by
  have hv : c.val.toNat < 0xD800 ∨ 0xDFFF < c.val.toNat ∧ c.val.toNat < 0x110000 := c.valid
  unfold String.utf8EncodeChar at h
  generalize c.val.toNat = n at hv h
  simp only [] at h
  split_ifs at h <;> simp only [List.cons.injEq] at h
  · exact h.2.symm
  all_goals
    rw [← h.1, UInt8.lt_iff_toNat_lt, UInt8.toNat_ofNat'] at hb
    simp at hb
    omega

theorem isText_nil : IsText [] :=
  ⟨[], rfl⟩

theorem isText_encode (s : String) : IsText (encode s) :=
  ⟨s.toList, rfl⟩

theorem IsText.append {p q : List UInt8} : IsText p → IsText q → IsText (p ++ q) := by
  rintro ⟨cs, rfl⟩ ⟨ds, rfl⟩
  exact ⟨cs ++ ds, encodeChars_append cs ds⟩

theorem utf8EncodeChar_ascii :
    ∀ n < 0x80, String.utf8EncodeChar (Char.ofNat n) = [UInt8.ofNat n] := by
  decide +kernel

/-- ASCII bytes are a text. -/
theorem isText_of_ascii {bs : List UInt8} (h : ∀ b ∈ bs, b < 0x80) : IsText bs := by
  induction bs with
  | nil => exact isText_nil
  | cons b bs ih =>
    rw [List.forall_mem_cons] at h
    have hb : IsText [b] := by
      refine ⟨[Char.ofNat b.toNat], ?_⟩
      rw [encodeChars_cons, encodeChars_nil, List.append_nil,
        utf8EncodeChar_ascii _ (UInt8.lt_iff_toNat_lt.1 h.1), UInt8.ofNat_toNat]
    exact hb.append (ih h.2)

theorem IsText.startsFresh {bs : List UInt8} (h : IsText bs) : StartsFresh bs := by
  obtain ⟨cs, rfl⟩ := h
  cases cs with
  | nil => simp [StartsFresh]
  | cons c cs =>
    obtain ⟨b, bs, hb, hc, _⟩ := utf8EncodeChar_eq_cons c
    simp [StartsFresh, hb, hc]

/-- Both sides of a cut that no character spans are texts. -/
theorem IsText.split {p q : List UInt8} (h : IsText (p ++ q)) (hq : StartsFresh q) :
    IsText p ∧ IsText q := by
  obtain ⟨cs, hcs⟩ := h
  induction cs generalizing p with
  | nil =>
    obtain ⟨rfl, rfl⟩ := List.append_eq_nil_iff.1 hcs.symm
    exact ⟨isText_nil, isText_nil⟩
  | cons c cs ih =>
    cases p with
    | nil => exact ⟨isText_nil, c :: cs, hcs⟩
    | cons x p =>
      -- The cut is behind the whole first character, since the bytes after the first one
      -- continue it.
      obtain ⟨b, bs, hb, _, hbs⟩ := utf8EncodeChar_eq_cons c
      rw [encodeChars_cons, hb, List.cons_append, List.cons_append, List.cons.injEq] at hcs
      obtain ⟨rfl, hcs⟩ := hcs
      rcases List.append_eq_append_iff.1 hcs with ⟨m, rfl, hm⟩ | ⟨m, rfl, rfl⟩
      · obtain ⟨hp, hq⟩ := ih hm
        refine ⟨?_, hq⟩
        have hc : IsText (b :: bs) := ⟨[c], by simp [hb]⟩
        exact hc.append hp
      · cases m with
        | nil =>
          rw [List.append_nil] at hb
          exact ⟨⟨[c], by simp [hb]⟩, cs, rfl⟩
        | cons y m =>
          have := hq y rfl
          rw [hbs y (by simp)] at this
          exact absurd this (by simp)

/-- After an ASCII byte, a text may be cut. -/
theorem IsText.of_cons {b : UInt8} {bs : List UInt8} (h : IsText (b :: bs)) (hb : b < 0x80) :
    IsText bs := by
  obtain ⟨cs, hcs⟩ := h
  cases cs with
  | nil => simp at hcs
  | cons c cs =>
    obtain ⟨x, xs, hx, _, _⟩ := utf8EncodeChar_eq_cons c
    rw [encodeChars_cons, hx, List.cons_append, List.cons.injEq] at hcs
    obtain ⟨rfl, rfl⟩ := hcs
    rw [utf8EncodeChar_eq_of_head_ascii hx hb]
    exact ⟨cs, rfl⟩

/-- Around an ASCII byte, a text may be cut on either side. -/
theorem IsText.split_ascii {p q : List UInt8} {b : UInt8} (h : IsText (p ++ b :: q))
    (hb : b < 0x80) : IsText p ∧ IsText (b :: q) ∧ IsText q := by
  obtain ⟨hp, hq⟩ := h.split (q := b :: q) fun x hx => by
    obtain rfl := Option.some.inj hx
    exact not_continues_of_ascii hb
  exact ⟨hp, hq, hq.of_cons hb⟩

/-- The lenient reading keeps the bytes that spell a text. -/
theorem encode_lossy {bs : List UInt8} (h : IsText bs) : encode (lossy bs) = bs := by
  obtain ⟨cs, rfl⟩ := h
  rw [lossy_encodeChars, encode_ofList]

/-- A byte that continues nothing is read as a replacement. -/
theorem lossyFrom_of_continues {b : UInt8} (h : continues b = true) (bs : List UInt8) :
    lossyFrom .between (b :: bs) = replacement :: lossyFrom .between bs := by
  have hs : start b = .refuse := by
    simp only [continues, Bool.and_eq_true, decide_eq_true_eq, UInt8.le_iff_toNat_le,
      UInt8.lt_iff_toNat_lt] at h
    simp only [start, UInt8.lt_iff_toNat_lt]
    rw [if_neg (by simp at h ⊢; omega), if_pos (by simp at h ⊢; omega)]
  rw [lossyFrom, hs]

/-! ### ASCII bytes of a text -/

/-- An ASCII byte of a character is all of it. -/
theorem eq_of_mem_ascii {c : Char} {b : UInt8} (h : b ∈ String.utf8EncodeChar c)
    (hb : b < 0x80) : c = Char.ofNat b.toNat := by
  obtain ⟨x, xs, hx, _, hxs⟩ := utf8EncodeChar_eq_cons c
  rw [hx] at h
  rcases List.mem_cons.1 h with rfl | h
  · have hnil : xs = [] := utf8EncodeChar_eq_of_head_ascii hx hb
    have := lossyFrom_utf8EncodeChar c []
    rw [hx, hnil, List.append_nil, lossyFrom_ascii hb] at this
    exact (List.cons.inj this).1.symm
  · have := hxs b h
    rw [not_continues_of_ascii hb] at this
    exact absurd this (by decide)

/-- An ASCII byte of a text is one of its characters. -/
theorem mem_of_mem_encodeChars {cs : List Char} {b : UInt8} (h : b ∈ encodeChars cs)
    (hb : b < 0x80) : Char.ofNat b.toNat ∈ cs := by
  obtain ⟨c, hc, h⟩ := List.mem_flatMap.1 h
  rwa [← eq_of_mem_ascii h hb]

theorem encodeChars_injective {cs ds : List Char} (h : encodeChars cs = encodeChars ds) :
    cs = ds := by
  rw [← lossyFrom_encodeChars cs, h, lossyFrom_encodeChars]

/-- After ASCII bytes, a text may be cut. -/
theorem IsText.of_append {p q : List UInt8} (h : IsText (p ++ q)) (hp : ∀ b ∈ p, b < 0x80) :
    IsText q := by
  induction p with
  | nil => exact h
  | cons b p ih =>
    rw [List.forall_mem_cons] at hp
    exact ih (h.of_cons hp.1) hp.2

/-- ASCII characters stand in a text wherever their bytes do. -/
theorem infix_of_ascii_infix {token cs : List Char} (ht : ∀ b ∈ encodeChars token, b < 0x80)
    (h : encodeChars token <:+: encodeChars cs) : token <:+: cs := by
  obtain ⟨p, q, h⟩ := h
  rw [List.append_assoc] at h
  cases token with
  | nil => exact List.nil_infix
  | cons c token =>
    have hfresh : StartsFresh (encodeChars (c :: token) ++ q) := by
      obtain ⟨b, bs, hb, hc, -⟩ := utf8EncodeChar_eq_cons c
      simp [StartsFresh, hb, hc]
    have htext : IsText (p ++ (encodeChars (c :: token) ++ q)) := ⟨cs, h.symm⟩
    obtain ⟨⟨ps, rfl⟩, hrest⟩ := htext.split hfresh
    obtain ⟨qs, rfl⟩ := hrest.of_append ht
    refine ⟨ps, qs, encodeChars_injective ?_⟩
    rw [← h, encodeChars_append, encodeChars_append, List.append_assoc]

/-- Two ASCII bytes that stand next to each other are characters that do. -/
theorem infix_of_infix_encodeChars {a b : Char} {x y : UInt8} {cs : List Char}
    (ha : String.utf8EncodeChar a = [x]) (hb : String.utf8EncodeChar b = [y]) (hx : x < 0x80)
    (hy : y < 0x80) (h : [x, y] <:+: encodeChars cs) : [a, b] <:+: cs := by
  have hab : encodeChars [a, b] = [x, y] := by simp [ha, hb]
  exact infix_of_ascii_infix (by simp [hab, hx, hy]) (hab ▸ h)

/-! ### Bytes that are read as ASCII -/

/-- Whether every character that the machine may still read is beyond ASCII. -/
def State.IsWide : State → Prop
  | .between => False
  | .inside _ owed low _ code =>
    2 ≤ code * 64 + (low.toNat - 0x80) ∧ 0x80 ≤ low.toNat ∧ (owed = 0 → 2 ≤ code)

/-- A byte beyond those that start a character of four. -/
theorem start_beyond : ∀ n < 11, start (UInt8.ofNat (n + 0xF5)) = .refuse := by
  decide

/-- Every byte is a character of ASCII, or it starts one beyond ASCII, or it starts none. -/
theorem start_cases (b : UInt8) : b < 0x80 ∧ start b = .scalar (Char.ofNat b.toNat) ∨
    start b = .refuse ∨ ∃ st, start b = .next st ∧ st.IsWide := by
  have hb : ∀ k ≤ b.toNat, UInt8.ofNat (b.toNat - k + k) = b := fun k hk => by
    rw [Nat.sub_add_cancel hk, UInt8.ofNat_toNat]
  have hlt := b.toNat_lt
  by_cases hone : b < 0x80
  · exact .inl ⟨hone, start_ascii hone⟩
  refine .inr ?_
  by_cases hnone : b < 0xC2
  · exact .inl (by rw [start, if_neg hone, if_pos hnone])
  rw [UInt8.lt_iff_toNat_lt] at hone hnone
  simp only [UInt8.reduceToNat] at hone hnone
  by_cases htwo : b.toNat < 0xE0
  · have h := start_two (b.toNat - 0xC0) (by omega) (by omega)
    rw [hb 0xC0 (by omega)] at h
    exact .inr ⟨_, h, by simp [State.IsWide]; omega⟩
  by_cases hthree : b.toNat < 0xF0
  · have h := start_three (b.toNat - 0xE0) (by omega)
    rw [hb 0xE0 (by omega)] at h
    refine .inr ⟨_, h, ?_⟩
    by_cases hz : b.toNat - 0xE0 = 0 <;> simp [State.IsWide, hz]
    omega
  by_cases hfour : b.toNat < 0xF5
  · have h := start_four (b.toNat - 0xF0) (by omega)
    rw [hb 0xF0 (by omega)] at h
    refine .inr ⟨_, h, ?_⟩
    by_cases hz : b.toNat - 0xF0 = 0 <;> simp [State.IsWide, hz]
    omega
  · have h := start_beyond (b.toNat - 0xF5) (by omega)
    rw [hb 0xF5 (by omega)] at h
    exact .inl h

/-- A byte that does not make a character of its own starts one beyond ASCII. -/
theorem isWide_of_start {b : UInt8} {st : State} (h : start b = .next st) : st.IsWide := by
  rcases start_cases b with ⟨-, hb⟩ | hb | ⟨st', hb, hwide⟩ <;> rw [h] at hb
  · cases hb
  · cases hb
  · exact Move.next.inj hb ▸ hwide

theorem toNat_ofNat (n : Nat) : (Char.ofNat n).toNat = n ∨ (Char.ofNat n).toNat = 0 := by
  by_cases h : n.isValidChar
  · rw [Char.ofNat, dif_pos h]
    exact .inl rfl
  · rw [Char.ofNat, dif_neg h]
    exact .inr rfl

/-- Inside a character beyond ASCII, a byte that belongs to it leads on inside such a character. -/
theorem State.IsWide.step {st st' : State} {b : UInt8} (h : st.IsWide)
    (hb : st.step b = .next st') : st'.IsWide := by
  cases st with
  | between => exact h.elim
  | inside seen owed low high code =>
    obtain ⟨hlow, hbound, -⟩ := h
    rw [State.step] at hb
    split at hb
    next hin =>
      simp only [Bool.and_eq_true, decide_eq_true_eq, UInt8.le_iff_toNat_le] at hin
      cases owed with
      | zero => cases hb
      | succ owed =>
        obtain rfl := Move.next.inj hb
        have hcode : 2 ≤ code * 64 + (b.toNat - 0x80) := by omega
        exact ⟨Nat.le_trans hcode (by omega), by decide, fun _ => hcode⟩
    next => cases hb

/-- No character beyond ASCII goes on with a byte of ASCII. -/
theorem State.IsWide.step_ascii {st : State} {b : UInt8} (h : st.IsWide) (hb : b < 0x80) :
    st.step b = .refuse := by
  cases st with
  | between => exact h.elim
  | inside seen owed low high code =>
    obtain ⟨-, hbound, -⟩ := h
    rw [UInt8.lt_iff_toNat_lt] at hb
    have hout : ¬(low ≤ b && b ≤ high) = true := by
      simp only [Bool.and_eq_true, decide_eq_true_eq, UInt8.le_iff_toNat_le]
      simp only [UInt8.reduceToNat] at hb
      omega
    rw [State.step, if_neg hout]

/-- Inside a character beyond ASCII, what is read next is such a character, or the null that is
    put for a value that no character has. -/
theorem not_ascii_of_isWide {st : State} (h : st.IsWide) (bs : List UInt8) :
    ∀ c ∈ (lossyFrom st bs).head?, c.toNat = 0 ∨ 0x80 ≤ c.toNat := by
  induction bs generalizing st with
  | nil =>
    cases st with
    | between => exact h.elim
    | inside => simp [lossyFrom, replacement]
  | cons b bs ih =>
    cases st with
    | between => exact h.elim
    | inside seen owed low high code =>
      have hwide := h
      obtain ⟨hlow, hbound, howed⟩ := h
      by_cases hb : (low ≤ b && b ≤ high) = true
      · have hle : low.toNat ≤ b.toNat := by
          simp only [Bool.and_eq_true, decide_eq_true_eq, UInt8.le_iff_toNat_le] at hb
          exact hb.1
        cases owed with
        | zero =>
          rw [lossyFrom, State.step, if_pos hb]
          intro c hc
          obtain rfl := Option.some.inj hc
          have := howed rfl
          rcases toNat_ofNat (code * 64 + (b.toNat - 0x80)) with h | h <;> omega
        | succ owed =>
          have hstep : (State.inside seen (owed + 1) low high code).step b =
              .next (.inside (seen + 1) owed 0x80 0xBF (code * 64 + (b.toNat - 0x80))) := by
            rw [State.step, if_pos hb]
          rw [lossyFrom, hstep]
          exact ih (hwide.step hstep)
      · rw [lossyFrom, State.step, if_neg hb]
        simp [replacement]

/-- Whatever bytes stand before a byte of ASCII and behind it, it is read as its character, and
    they are read by themselves. -/
theorem lossyFrom_append_cons {b : UInt8} (hb : b < 0x80) (p q : List UInt8) :
    lossyFrom .between (p ++ b :: q) =
      lossyFrom .between p ++ Char.ofNat b.toNat :: lossyFrom .between q := by
  have hstate : ∀ st : State, st = .between ∨ st.IsWide → lossyFrom st (p ++ b :: q) =
      lossyFrom st p ++ Char.ofNat b.toNat :: lossyFrom .between q := by
    induction p with
    | nil =>
      rintro (_ | ⟨seen, owed, low, high, code⟩) h
      · exact lossyFrom_ascii hb q
      · have hwide := h.resolve_left (by simp)
        simp only [List.nil_append, lossyFrom, hwide.step_ascii hb, start_ascii hb,
          List.singleton_append]
    | cons x p ih =>
      have hbetween := ih .between (.inl rfl)
      have hnext : ∀ {st}, start x = .next st → _ := fun {st} h => ih st (.inr (isWide_of_start h))
      rintro (_ | ⟨seen, owed, low, high, code⟩) h
      · rw [List.cons_append, lossyFrom, lossyFrom]
        cases hx : start x with
        | next st => exact hnext hx
        | scalar c => simp only [hbetween, List.cons_append]
        | refuse => simp only [hbetween, List.cons_append]
      · have hwide := h.resolve_left (by simp)
        rw [List.cons_append, lossyFrom, lossyFrom]
        cases hx : (State.inside seen owed low high code).step x with
        | next st => exact ih st (.inr (hwide.step hx))
        | scalar c => simp only [hbetween, List.cons_append]
        | refuse =>
          simp only [List.cons_append]
          cases hy : start x with
          | next st => simp only [hnext hy]
          | scalar c => simp only [hbetween, List.cons_append]
          | refuse => simp only [hbetween, List.cons_append]
  exact hstate .between (.inl rfl)

/-- So for several bytes of ASCII. -/
theorem lossyFrom_append_ascii {bs : List UInt8} (h : ∀ b ∈ bs, b < 0x80) (hne : bs ≠ [])
    (p q : List UInt8) : lossyFrom .between (p ++ (bs ++ q)) =
      lossyFrom .between p ++ ((bs.map fun b => Char.ofNat b.toNat) ++ lossyFrom .between q) := by
  obtain ⟨b, bs, rfl⟩ := List.exists_cons_of_ne_nil hne
  rw [List.forall_mem_cons] at h
  rw [List.cons_append, lossyFrom_append_cons h.1, lossyFrom_ascii_append h.2, List.map_cons,
    List.cons_append]

theorem lossyFrom_inside_ne_nil (seen owed : Nat) (low high : UInt8) (code : Nat)
    (bs : List UInt8) : lossyFrom (.inside seen owed low high code) bs ≠ [] := by
  induction bs generalizing seen owed low high code with
  | nil => simp [lossyFrom]
  | cons b bs ih =>
    rw [lossyFrom, State.step]
    by_cases hb : (low ≤ b && b ≤ high) = true
    · rw [if_pos hb]
      cases owed with
      | zero => simp
      | succ owed => exact ih _ _ _ _ _
    · rw [if_neg hb]
      simp

theorem lossyFrom_ne_nil (b : UInt8) (bs : List UInt8) : lossyFrom .between (b :: bs) ≠ [] := by
  rw [lossyFrom]
  cases hm : start b with
  | next st =>
    cases st with
    | between => exact (isWide_of_start hm).elim
    | inside => exact lossyFrom_inside_ne_nil _ _ _ _ _ _
  | scalar c => simp
  | refuse => simp

theorem ascii_of_start {b : UInt8} {c : Char} (h : start b = .scalar c) :
    b < 0x80 ∧ c = Char.ofNat b.toNat := by
  rcases start_cases b with ⟨hlt, hb⟩ | hb | ⟨st, hb, -⟩ <;> rw [h] at hb
  · exact ⟨hlt, Move.scalar.inj hb⟩
  · cases hb
  · cases hb

/-- An ASCII character is read from its byte. -/
theorem eq_cons_of_lossyFrom {bs : List UInt8} {c : Char} {cs : List Char}
    (h : lossyFrom .between bs = c :: cs) (hc : 0 < c.toNat ∧ c.toNat < 0x80) :
    ∃ rest, bs = UInt8.ofNat c.toNat :: rest ∧ lossyFrom .between rest = cs := by
  cases bs with
  | nil => simp [lossyFrom] at h
  | cons b bs =>
    cases hm : start b with
    | next st =>
      rw [lossyFrom, hm] at h
      have := not_ascii_of_isWide (isWide_of_start hm) bs c (by simp_all)
      omega
    | scalar c' =>
      rw [lossyFrom, hm] at h
      obtain ⟨rfl, rfl⟩ := List.cons.inj h
      obtain ⟨hb, rfl⟩ := ascii_of_start hm
      refine ⟨bs, ?_, rfl⟩
      have hn : (Char.ofNat b.toNat).toNat = b.toNat := by
        rcases toNat_ofNat b.toNat with h | h <;> omega
      rw [hn, UInt8.ofNat_toNat]
    | refuse =>
      rw [lossyFrom, hm] at h
      obtain ⟨rfl, _⟩ := List.cons.inj h
      exact absurd hc (by decide)

/-- So a text of such characters is read from its bytes only. -/
theorem eq_of_lossyFrom {bs : List UInt8} {cs : List Char} (h : lossyFrom .between bs = cs)
    (hc : ∀ c ∈ cs, 0 < c.toNat ∧ c.toNat < 0x80) : bs = cs.map fun c => UInt8.ofNat c.toNat := by
  induction cs generalizing bs with
  | nil =>
    cases bs with
    | nil => rfl
    | cons b bs => exact absurd h (lossyFrom_ne_nil _ _)
  | cons c cs ih =>
    rw [List.forall_mem_cons] at hc
    obtain ⟨rest, rfl, hrest⟩ := eq_cons_of_lossyFrom h hc.1
    rw [List.map_cons, ← ih hrest hc.2]

/-- So bytes are read as such a text only if they are its own. -/
theorem lossy_eq_iff {bs : List UInt8} {text : String}
    (h : ∀ c ∈ text.toList, 0 < c.toNat ∧ c.toNat < 0x80) : lossy bs = text ↔ bs = encode text := by
  constructor
  · intro hbs
    have hread : lossyFrom .between bs = text.toList := by
      rw [← hbs, lossy, String.toList_ofList]
    have hencode : lossyFrom .between (encode text) = text.toList := by
      rw [← lossy_encode text, lossy, String.toList_ofList, ← lossy, lossy_encode]
    rw [eq_of_lossyFrom hread h, eq_of_lossyFrom hencode h]
  · rintro rfl
    exact lossy_encode text

/-- A byte that does not go on with a character is read anew. -/
theorem lossyFrom_of_refuse {st : State} {b : UInt8} (h : st ≠ .between)
    (hb : st.step b = .refuse) (bs : List UInt8) :
    lossyFrom st (b :: bs) = replacement :: lossyFrom .between (b :: bs) := by
  cases st with
  | between => exact absurd rfl h
  | inside => simp only [lossyFrom, hb]

/-- Wherever an ASCII character is read, its byte stands. -/
theorem exists_of_lossyFrom {bs : List UInt8} {u v : List Char} {c : Char}
    (h : lossyFrom .between bs = u ++ c :: v) (hc : 0 < c.toNat ∧ c.toNat < 0x80) :
    ∃ p q, bs = p ++ UInt8.ofNat c.toNat :: q ∧ lossyFrom .between q = v := by
  have hstate : ∀ st : State, st = .between ∨ st.IsWide → ∀ u, lossyFrom st bs = u ++ c :: v →
      ∃ p q, bs = p ++ UInt8.ofNat c.toNat :: q ∧ lossyFrom .between q = v := by
    clear h
    induction bs with
    | nil =>
      rintro (_ | ⟨seen, owed, low, high, code⟩) - u h
      · cases u <;> cases h
      · have hmem : c ∈ [replacement] := by
          rw [← lossyFrom.eq_2 seen owed low high code, h]
          simp
        rw [List.mem_singleton.1 hmem] at hc
        exact absurd hc (by decide)
    | cons b bs ih =>
      have hlater : ∀ st : State, st = .between ∨ st.IsWide → ∀ u, lossyFrom st bs = u ++ c :: v →
          ∃ p q, b :: bs = p ++ UInt8.ofNat c.toNat :: q ∧ lossyFrom .between q = v := by
        intro st hst u h
        obtain ⟨p, q, rfl, hq⟩ := ih st hst u h
        exact ⟨b :: p, q, rfl, hq⟩
      -- Of what is read first, only the byte that starts a character may be the one of ASCII.
      have hbetween : ∀ u, lossyFrom .between (b :: bs) = u ++ c :: v →
          ∃ p q, b :: bs = p ++ UInt8.ofNat c.toNat :: q ∧ lossyFrom .between q = v := by
        intro u h
        cases u with
        | nil =>
          obtain ⟨rest, hrest, hread⟩ := eq_cons_of_lossyFrom h hc
          exact ⟨[], rest, hrest, hread⟩
        | cons d u =>
          rw [lossyFrom] at h
          cases hb : start b with
          | next st =>
            rw [hb] at h
            exact hlater st (.inr (isWide_of_start hb)) _ h
          | scalar d' | refuse =>
            rw [hb] at h
            exact hlater .between (.inl rfl) u (List.cons.inj h).2
      intro st hst u h
      rcases hst with rfl | hwide
      · exact hbetween u h
      have hne : st ≠ .between := by
        rintro rfl
        exact hwide
      cases u with
      | nil =>
        have := not_ascii_of_isWide hwide (b :: bs) c (by rw [h]; rfl)
        omega
      | cons d u =>
        cases hb : st.step b with
        | refuse =>
          rw [lossyFrom_of_refuse hne hb] at h
          exact hbetween u (List.cons.inj h).2
        | next st' =>
          obtain _ | ⟨seen, owed, low, high, code⟩ := st
          · exact absurd rfl hne
          rw [lossyFrom, hb] at h
          exact hlater st' (.inr (hwide.step hb)) _ h
        | scalar d' =>
          obtain _ | ⟨seen, owed, low, high, code⟩ := st
          · exact absurd rfl hne
          rw [lossyFrom, hb] at h
          exact hlater .between (.inl rfl) u (List.cons.inj h).2
  exact hstate .between (.inl rfl) u h

/-- So ASCII characters that are read next to each other stand next to each other. -/
theorem infix_of_infix_lossyFrom {bs : List UInt8} {c d : Char} (hc : 0 < c.toNat ∧ c.toNat < 0x80)
    (hd : 0 < d.toNat ∧ d.toNat < 0x80) (h : [c, d] <:+: lossyFrom .between bs) :
    [UInt8.ofNat c.toNat, UInt8.ofNat d.toNat] <:+: bs := by
  obtain ⟨u, v, h⟩ := h
  have h : lossyFrom .between bs = u ++ c :: d :: v := by simpa using h.symm
  obtain ⟨p, q, rfl, hq⟩ := exists_of_lossyFrom h hc
  obtain ⟨rest, rfl, -⟩ := eq_cons_of_lossyFrom hq hd
  exact ⟨p, rest, by simp⟩

end TestBench.Utf8
