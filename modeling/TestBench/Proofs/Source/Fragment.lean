import TestBench.Proofs.Source.FileScope
import TestBench.Proofs.Source.Prototype
import TestBench.Proofs.Source.Slice

/-!
# Fragments

What is found at file scope is cut out of the cells in one pass: a gap, a fragment, a gap, and
so on (`Cuts`). A fragment starts with code that is no blank and ends with the semicolon of its
statement; only a definition that does not end runs to the end of the text.

* `cuts_readFrom`: reading cuts, whatever the statement is that has been read so far;
* `cuts_read`: so does reading a whole header.
-/

namespace TestBench.Source

open Utf8

/-- Whether cells start with code that is neither blank nor inside a character. -/
def Begins (cs : List Cell) : Prop :=
  ∃ c ∈ cs.head?, c.isBlank = false ∧ continues c.code = false

/-- The fragments that are found at an offset, made of some cells, with others behind them. -/
inductive Fragment (n : Nat) : List Cell → List Cell → Declaration → Prop
  | prototype {cs after : List Cell} {last : Cell} (starts : StartsWord (cs ++ [last]))
      (ends : last.code = semicolon) (shape : isPrototype (codeText (cs ++ [last]))) :
      Fragment n (cs ++ [last]) after ⟨.prototype, rawText (cs ++ [last]), n⟩
  | definition {cs after : List Cell} {last : Cell} (starts : StartsWord (cs ++ [last]))
      (ends : last.code = semicolon) :
      Fragment n (cs ++ [last]) after ⟨.structOrEnum, rawText (cs ++ [last]), n⟩
  | endless {cs : List Cell} (starts : StartsWord cs) :
      Fragment n cs [] ⟨.structOrEnum, Text.trimEnd (rawText cs), n⟩

/-- Whether declarations are cut out of cells, the first of which has an offset, in order: each
    is a fragment, and behind it the next is looked for. -/
inductive Cuts : Nat → List Cell → List Declaration → Prop
  | done (n : Nat) (cs : List Cell) : Cuts n cs []
  | next {n : Nat} {gap cs after : List Cell} {d : Declaration} {ds : List Declaration} :
      Fragment (n + gap.length) cs after d → Cuts (n + gap.length + cs.length) after ds →
        Cuts n (gap ++ (cs ++ after)) (d :: ds)

/-- What is cut out behind a gap is cut out of the whole. -/
theorem Cuts.skip {n m : Nat} {cs : List Cell} {ds : List Declaration} (gap : List Cell)
    (hm : m = n + gap.length) (h : Cuts m cs ds) : Cuts n (gap ++ cs) ds := by
  subst hm
  cases h with
  | done => exact .done n _
  | next hf hc =>
    rw [← List.append_assoc]
    exact .next (by rwa [List.length_append, ← Nat.add_assoc])
      (by rwa [List.length_append, ← Nat.add_assoc])

/-! ### Looking ahead loses nothing -/

theorem append_of_group {depth : Nat} {cs g rest : List Cell}
    (h : group? depth cs = some (g, rest)) : g ++ rest = cs := by
  fun_induction group? depth cs generalizing g rest <;>
    grind [Option.map_eq_some_iff]

/-- The cells up to a semicolon end in it. -/
theorem append_of_toSemicolon {depth : Nat} {cs g rest : List Cell}
    (h : toSemicolon? depth cs = some (g, rest)) :
    g ++ rest = cs ∧ ∃ front last, g = front ++ [last] ∧ last.code = semicolon := by
  induction cs generalizing depth g with
  | nil => simp [toSemicolon?] at h
  | cons c cs ih =>
    rw [toSemicolon?] at h
    split at h
    next hc =>
      -- The semicolon itself is the end, outside of all groups.
      obtain ⟨rfl, rfl⟩ := Prod.mk.inj (Option.some.inj h)
      exact ⟨rfl, [], c, rfl, hc.1⟩
    next =>
      obtain ⟨⟨g', rest'⟩, hg, he⟩ := Option.map_eq_some_iff.1 h
      obtain ⟨rfl, rfl⟩ := Prod.mk.inj he
      obtain ⟨rfl, front, last, rfl, hl⟩ := ih hg
      exact ⟨rfl, c :: front, last, rfl, hl⟩

theorem append_splitTag (cs : List Cell) : (splitTag cs).1 ++ (splitTag cs).2 = cs := by
  cases cs with
  | nil => rfl
  | cons c cs =>
    rw [splitTag]
    split
    · simp [List.append_assoc]
    · rfl

theorem append_of_opening {cs head rest : List Cell} (h : opening? cs = some (head, rest)) :
    head ++ rest = cs := by
  simp only [opening?] at h
  split at h
  · simp at h
  next c rest' hs =>
    split at h
    · obtain ⟨rfl, rfl⟩ := Prod.mk.inj (Option.some.inj h)
      have := append_splitTag (cs.dropWhile Cell.isBlank)
      rw [hs] at this
      simp only [List.append_assoc, List.singleton_append]
      rw [this, List.takeWhile_append_dropWhile]
    · simp at h

theorem append_of_complete {cs g rest : List Cell} (h : definition cs = .complete g rest) :
    g ++ rest = cs ∧ ∃ front last, g = front ++ [last] ∧ last.code = semicolon := by
  unfold definition at h
  split at h
  · simp at h
  next head after ho =>
  split at h
  · simp at h
  next body after' hg =>
  split at h
  · simp at h
  next tail rest' hs =>
    obtain ⟨rfl, rfl⟩ := Definition.complete.inj h
    obtain ⟨rfl, front, last, rfl, hl⟩ := append_of_toSemicolon hs
    refine ⟨?_, head ++ body ++ front, last, by simp, hl⟩
    rw [← append_of_opening ho, ← append_of_group hg]
    simp

theorem ne_nil_of_complete {cs g rest : List Cell} (h : definition cs = .complete g rest) :
    g ≠ [] := by
  obtain ⟨_, last, rfl, _⟩ := (append_of_complete h).2
  simp

/-! ### How a fragment starts -/

theorem begins_of_word {c : Cell} (h : isWordByte c.code) (cs : List Cell) : Begins (c :: cs) := by
  refine ⟨c, rfl, ?_⟩
  simp only [isWordByte, Bool.or_eq_true, Bool.and_eq_true, decide_eq_true_eq, beq_iff_eq,
    UInt8.le_iff_toNat_le, ← UInt8.toNat_inj] at h
  constructor
  · simp only [Cell.isBlank, Text.isBlankByte, Bool.or_eq_false_iff, beq_eq_false_iff_ne, ne_eq,
      ← UInt8.toNat_inj]
    simp at h ⊢
    omega
  · apply not_continues_of_ascii
    rw [UInt8.lt_iff_toNat_lt]
    simp at h ⊢
    omega

/-- What starts a word is one byte of a word. -/
theorem isWordByte_of_isWordStart {c : Char} (h : Text.isWordStart c) :
    (0 < c.toNat ∧ c.toNat < 0x80) ∧ isWordByte (UInt8.ofNat c.toNat) := by
  simp only [Text.isWordStart, Text.isLetter, Bool.or_eq_true, Bool.and_eq_true,
    decide_eq_true_eq, beq_iff_eq, Char.le_def, UInt32.le_iff_toNat_le] at h
  have hn : 0x61 ≤ c.toNat ∧ c.toNat ≤ 0x7A ∨ 0x41 ≤ c.toNat ∧ c.toNat ≤ 0x5A ∨ c.toNat = 0x5F := by
    rcases h with (h | h) | rfl
    · exact .inl h
    · exact .inr (.inl h)
    · exact .inr (.inr rfl)
  have hmod : (UInt8.ofNat c.toNat).toNat = c.toNat := by
    rw [UInt8.toNat_ofNat']
    omega
  refine ⟨by omega, ?_⟩
  simp only [isWordByte, Bool.or_eq_true, Bool.and_eq_true, decide_eq_true_eq, beq_iff_eq,
    UInt8.le_iff_toNat_le, ← UInt8.toNat_inj, hmod]
  simp
  omega

/-- Bytes that are read as a text that starts with a word start with that word. -/
theorem exists_word_of_lossy {bs : List UInt8} {x : Char} (h : x ∈ (lossy bs).toList.head?)
    (hx : Text.isWordStart x) : ∃ b ∈ bs.head?, isWordByte b := by
  obtain ⟨xs, h⟩ := List.head?_eq_some_iff.1 h
  rw [lossy, String.toList_ofList] at h
  obtain ⟨hn, hw⟩ := isWordByte_of_isWordStart hx
  obtain ⟨rest, rfl, -⟩ := eq_cons_of_lossyFrom h hn
  exact ⟨_, rfl, hw⟩

theorem startsWord_of_head_code {cs : List Cell}
    (h : ∃ b ∈ (cs.map Cell.code).head?, isWordByte b) : StartsWord cs := by
  obtain ⟨b, hb, hw⟩ := h
  rw [List.head?_map] at hb
  obtain ⟨c, hc, rfl⟩ := Option.map_eq_some_iff.1 hb
  exact ⟨c, hc, hw⟩

theorem StartsWord.begins {cs : List Cell} (h : StartsWord cs) : Begins cs := by
  obtain ⟨c, hc, hw⟩ := h
  obtain ⟨cs, rfl⟩ := List.head?_eq_some_iff.1 hc
  exact begins_of_word hw cs

theorem startsWord_of_isPrototype {cs : List Cell} (h : isPrototype (codeText cs)) :
    StartsWord cs := by
  obtain ⟨x, hx, hw⟩ := exists_wordStart_of_isPrototype h
  exact startsWord_of_head_code (exists_word_of_lossy hx hw)

/-- What makes a definition a type name is a word. -/
theorem startsWord_of_isTypedef {s : Statement} (h : s.isTypedef) : StartsWord s.head := by
  rw [Statement.isTypedef, beq_iff_eq] at h
  obtain ⟨b, hb, hw⟩ := exists_word_of_lossy (x := 't') (by rw [h]; rfl) (by decide)
  obtain ⟨tail, ht⟩ := Text.dropTail_prefix Text.isBlankByte (s.head.map Cell.code)
  refine startsWord_of_head_code ⟨b, ?_, hw⟩
  rw [← ht, List.head?_append, hb]
  rfl

/-! ### Reading cuts -/

theorem Statement.head_suffix (s : Statement) : s.head <:+ s.read.reverse :=
  List.dropWhile_suffix _

/-- A prototype is a fragment that ends a statement. -/
theorem fragment_of_prototype {s : Statement} {c : Cell} {d : Declaration}
    (hc : c.code = semicolon) (h : s.prototype? c = some d) (after : List Cell) :
    Fragment s.headStart (s.head ++ [c]) after d := by
  rw [Statement.prototype?] at h
  split at h
  · simp at h
  · split at h
    next hp =>
      obtain rfl := Option.some.inj h
      exact .prototype (startsWord_of_isPrototype hp) hc hp
    · simp at h

/-- What stands in front of the keyword of a definition: the word that makes it a type name, or
    nothing that belongs to it. -/
theorem lead_suffix (s : Statement) : (if s.isTypedef then s.head else []) <:+ s.read.reverse := by
  split
  · exact s.head_suffix
  · exact List.nil_suffix

theorem startsWord_of_lead {s : Statement} {c : Cell} (hc : isWordByte c.code) (cs : List Cell) :
    StartsWord ((if s.isTypedef then s.head else []) ++ c :: cs) := by
  split
  next ht =>
    obtain ⟨x, hx, hw⟩ := startsWord_of_isTypedef ht
    exact ⟨x, by rw [List.head?_append, hx]; rfl, hw⟩
  next => exact ⟨c, rfl, hc⟩

/-- What is cut behind the end of a statement is cut behind its start. -/
theorem Cuts.behind {s : Statement} {start stop : Nat} (gap : List Cell) {rest : List Cell}
    {ds : List Declaration} (hs : s.stop = start + s.read.length)
    (hstop : stop = s.stop + gap.length) (h : Cuts stop rest ds) :
    Cuts start (s.read.reverse ++ (gap ++ rest)) ds := by
  rw [← List.append_assoc]
  refine h.skip _ ?_
  rw [List.length_append, List.length_reverse]
  omega

/-- A fragment that starts in the statement so far, and what is cut behind it. -/
theorem Cuts.fromLead {s : Statement} {start : Nat} {lead : List Cell} (cs : List Cell)
    {rest : List Cell} {d : Declaration} {ds : List Declaration}
    (hs : s.stop = start + s.read.length) (hl : lead <:+ s.read.reverse)
    (hf : Fragment (s.stop - lead.length) (lead ++ cs) rest d)
    (h : Cuts (s.stop + cs.length) rest ds) :
    Cuts start (s.read.reverse ++ (cs ++ rest)) (d :: ds) := by
  obtain ⟨front, hb⟩ := hl
  have hlen := congrArg List.length hb
  rw [List.length_append, List.length_reverse] at hlen
  have hstart : s.stop - lead.length = start + front.length := by omega
  have hstop : s.stop + cs.length = start + front.length + (lead ++ cs).length := by
    rw [List.length_append]
    omega
  rw [← hb, List.append_assoc, ← List.append_assoc lead]
  exact .next (hstart ▸ hf) (hstop ▸ h)

/-- Reading cuts the cells that it has read of the statement so far and those that are left. -/
theorem cuts_readFrom {s : Statement} {blocks start : Nat} {rest : List Cell}
    (hs : s.stop = start + s.read.length) :
    Cuts start (s.read.reverse ++ rest) (readFrom s blocks rest).found := by
  fun_induction readFrom s blocks rest generalizing start
  case case1 => exact .done _ _
  -- A semicolon ends the statement, in a prototype or in none.
  case case2 c rest next hc d hd ih =>
    exact .fromLead [c] hs (Statement.head_suffix _) (fragment_of_prototype hc hd _)
      (ih rfl)
  case case3 ih => exact .behind [_] hs rfl (ih rfl)
  -- An opening brace starts a block that is read on, or a group that is skipped, which ends the
  -- statement behind a parenthesis and belongs to it elsewhere.
  case case4 ih => exact .behind [_] hs rfl (ih rfl)
  case case5 => exact .done _ _
  case case6 s _ c rest _ _ _ group after hg s' _ ih =>
    rw [← append_of_group hg]
    have hstop : s'.stop = s.stop + (c :: group).length := by
      rw [List.length_cons, Nat.add_comm group.length, ← Nat.add_assoc]
      rfl
    exact .behind _ hs hstop (ih rfl)
  case case7 c rest _ _ _ group after hg s' _ ih =>
    rw [← append_of_group hg]
    have := @ih start (by simp [s', Statement.push, Statement.append]; omega)
    simpa [s', Statement.push, Statement.append] using this
  case case8 ih => exact .behind [_] hs rfl (ih rfl)
  -- A word belongs to the statement unless it starts a definition, which may have no end.
  case case9 c rest _ _ _ _ word after _ _ _ ih =>
    have := @ih start (by simp [Statement.append]; omega)
    simpa [Statement.append, word, after] using this
  case case10 s _ c rest _ _ _ hw word after keyword _ lead at_ _ =>
    have hsplit : c :: rest = (word ++ after) ++ [] := by simp [word, after]
    rw [hsplit]
    refine .fromLead _ hs (lead_suffix s) ?_ (.done _ _)
    rw [← List.append_assoc]
    exact .endless (by rw [List.append_assoc]; exact startsWord_of_lead hw _)
  case case11 s _ c rest _ _ _ hw word after keyword _ lead at_ cells after' hd ih =>
    obtain ⟨happ, front, last, rfl, hlast⟩ := append_of_complete hd
    have hsplit : c :: rest = (word ++ (front ++ [last])) ++ after' := by
      rw [List.append_assoc, happ]
      simp [word, after]
    rw [hsplit]
    refine .fromLead _ hs (lead_suffix s) ?_ (ih rfl)
    simp only [← List.append_assoc]
    exact .definition (by simp only [List.append_assoc]; exact startsWord_of_lead hw _) hlast
  case case12 c rest _ _ _ _ word after _ _ ih =>
    have := @ih start (by simp [Statement.append]; omega)
    simpa [Statement.append, word, after] using this
  case case13 c rest _ _ _ _ ih =>
    have := @ih start (by simp [Statement.push]; omega)
    simpa [Statement.push] using this

/-- Reading a whole header cuts it. -/
theorem cuts_read (cs : List Cell) : Cuts 0 cs (read cs).found :=
  @cuts_readFrom (.startingAt 0) 0 0 cs rfl

end TestBench.Source
