import Mathlib.Data.List.TakeWhile
import TestBench.Source.FileScope

/-!
# Steps of reading

What reading does with the cells in front, one lemma for each thing that may stand there, and
with the cells that do nothing but make a statement longer (`readFrom_flat`). A group is passed
as a whole, whatever groups stand in it: cells that are *neutral* change nothing about where a
group around them ends.

* `group?_of_isNeutral`: a group goes up to its closing brace;
* `readFrom_flat`: flat code only makes the statement longer;
* `readFrom_definition`, `readFrom_prototype`, `readFrom_function`: how a statement ends.
-/

namespace TestBench.Source

/-! ### Cutting lists -/

section Cut

variable {α : Type} {p : α → Bool} {c : α}

/-- Where an element fails, nothing behind it is dropped. -/
theorem dropWhile_append_cons (h : p c = false) (xs ys : List α) :
    (xs ++ c :: ys).dropWhile p = xs.dropWhile p ++ c :: ys := by
  induction xs with
  | nil => rw [List.nil_append, List.dropWhile_cons_of_neg (by simp [h]), List.dropWhile_nil,
      List.nil_append]
  | cons x xs ih =>
    simp only [List.cons_append, List.dropWhile_cons, ih]
    split <;> rfl

end Cut

/-! ### Groups -/

section Group

variable {c : Cell} (depth : Nat) (cs : List Cell)

theorem group?_open (h : c.code = openBrace) :
    group? depth (c :: cs) = (group? (depth + 1) cs).map fun g => (c :: g.1, g.2) := by
  rw [group?.eq_def]
  simp [h]

theorem group?_close (h : c.code = closeBrace) :
    group? (depth + 1) (c :: cs) = (group? depth cs).map fun g => (c :: g.1, g.2) := by
  rw [group?.eq_def]
  simp [h, show closeBrace ≠ openBrace by decide]

theorem group?_end (h : c.code = closeBrace) : group? 0 (c :: cs) = some ([c], cs) := by
  rw [group?.eq_def]
  simp [h, show closeBrace ≠ openBrace by decide]

theorem group?_code (ho : c.code ≠ openBrace) (hc : c.code ≠ closeBrace) :
    group? depth (c :: cs) = (group? depth cs).map fun g => (c :: g.1, g.2) := by
  rw [group?.eq_def]
  simp [ho, hc]

end Group

/-- Whether cells change nothing about where a group ends. -/
def IsNeutral (cs : List Cell) : Prop :=
  ∀ depth rest, group? depth (cs ++ rest) = (group? depth rest).map fun g => (cs ++ g.1, g.2)

theorem isNeutral_nil : IsNeutral [] := by
  intro depth rest
  simp

theorem IsNeutral.append {cs ds : List Cell} (hc : IsNeutral cs) (hd : IsNeutral ds) :
    IsNeutral (cs ++ ds) := by
  intro depth rest
  rw [List.append_assoc, hc, hd, Option.map_map]
  simp [Function.comp_def, List.append_assoc]

theorem isNeutral_of_code {cs : List Cell}
    (h : ∀ c ∈ cs, c.code ≠ openBrace ∧ c.code ≠ closeBrace) : IsNeutral cs := by
  induction cs with
  | nil => exact isNeutral_nil
  | cons c cs ih =>
    rw [List.forall_mem_cons] at h
    intro depth rest
    rw [List.cons_append, group?_code _ _ h.1.1 h.1.2, ih h.2, Option.map_map]
    rfl

/-- A group goes up to its closing brace. -/
theorem group?_of_isNeutral {cs : List Cell} (h : IsNeutral cs) {c : Cell}
    (hc : c.code = closeBrace) (rest : List Cell) :
    group? 0 (cs ++ c :: rest) = some (cs ++ [c], rest) := by
  rw [h, group?_end _ hc]
  rfl

/-- So a whole group changes nothing about where one around it ends. -/
theorem IsNeutral.group {cs : List Cell} (h : IsNeutral cs) {o c : Cell}
    (ho : o.code = openBrace) (hc : c.code = closeBrace) : IsNeutral (o :: cs ++ [c]) := by
  intro depth rest
  rw [List.cons_append, List.cons_append, group?_open _ _ ho, List.append_assoc, h,
    List.singleton_append, group?_close _ _ hc, Option.map_map, Option.map_map]
  simp [Function.comp_def]

/-! ### Statements -/

/-- Whether a cell ends no statement and opens or closes no group. -/
def Cell.IsFlat (c : Cell) : Prop :=
  c.code ≠ semicolon ∧ c.code ≠ openBrace ∧ c.code ≠ closeBrace

/-- A search for a semicolon passes flat code. -/
theorem toSemicolon?_flat {cs : List Cell} (h : ∀ c ∈ cs, c.IsFlat) (depth : Nat)
    (rest : List Cell) : toSemicolon? depth (cs ++ rest) =
      (toSemicolon? depth rest).map fun found => (cs ++ found.1, found.2) := by
  induction cs with
  | nil => simp
  | cons c cs ih =>
    rw [List.forall_mem_cons] at h
    obtain ⟨⟨hs, ho, hc⟩, h⟩ := h
    rw [List.cons_append, toSemicolon?, if_neg fun hn => hs hn.1]
    simp only [if_neg ho, if_neg hc]
    rw [ih h, Option.map_map]
    rfl

theorem toSemicolon_flat {cs : List Cell} (h : ∀ c ∈ cs, c.IsFlat) {e : Cell}
    (he : e.code = semicolon) (rest : List Cell) :
    toSemicolon? 0 (cs ++ e :: rest) = some (cs ++ [e], rest) := by
  rw [toSemicolon?_flat h, toSemicolon?, if_pos ⟨he, rfl⟩]
  rfl

theorem isWordByte_of_isTagStart {b : UInt8} (h : isTagStart b) : isWordByte b := by
  simp only [isTagStart, isWordByte, Bool.or_eq_true] at h ⊢
  rcases h with (h | h) | h
  · exact .inl (.inl (.inl h))
  · exact .inl (.inl (.inr h))
  · exact .inr h

/-- Passing a tag passes no cell that is neither blank nor part of a word. -/
theorem splitTag_append {c : Cell} (hb : c.isBlank = false) (hw : isWordByte c.code = false)
    (cs rest : List Cell) :
    ∃ ds, ds <:+ cs ∧ (splitTag (cs ++ c :: rest)).2 = ds ++ c :: rest := by
  cases cs with
  | nil =>
    have ht : ¬isTagStart c.code := by
      intro ht
      rw [isWordByte_of_isTagStart ht] at hw
      exact absurd hw (by decide)
    refine ⟨[], List.suffix_refl _, ?_⟩
    rw [List.nil_append, splitTag, if_neg ht]
  | cons x cs =>
    rw [List.cons_append, splitTag]
    split
    next =>
      refine ⟨((x :: cs).dropWhile (isWordByte ·.code)).dropWhile Cell.isBlank,
        (List.dropWhile_suffix _).trans (List.dropWhile_suffix _), ?_⟩
      simp only
      rw [← List.cons_append, dropWhile_append_cons (p := fun x : Cell => isWordByte x.code) hw,
        dropWhile_append_cons hb]
    next => exact ⟨x :: cs, List.suffix_refl _, rfl⟩

/-- Where the code goes on without a brace, no keyword starts a definition. -/
theorem definition_flat {cs : List Cell} (h : ∀ c ∈ cs, c.IsFlat) {c : Cell} (rest : List Cell)
    (hc : c.code ≠ openBrace) (hb : c.isBlank = false) (hw : isWordByte c.code = false) :
    definition (cs ++ c :: rest) = .absent := by
  have ho : opening? (cs ++ c :: rest) = none := by
    obtain ⟨ds, hd, hs⟩ := splitTag_append hb hw (cs.dropWhile Cell.isBlank) rest
    have hd := hd.trans (List.dropWhile_suffix _)
    rw [opening?, dropWhile_append_cons hb]
    simp only [hs]
    cases ds with
    | nil => exact if_neg hc
    | cons x ds => exact if_neg (h x (hd.subset List.mem_cons_self)).2.1
  rw [definition, ho]

/-! ### Steps of reading -/

theorem Statement.append_append (s : Statement) (cs ds : List Cell) :
    (s.append cs).append ds = s.append (cs ++ ds) := by
  simp [Statement.append, Nat.add_assoc]

section Step

variable (s : Statement) (blocks : Nat)

theorem readFrom_push {c : Cell} (h : c.IsFlat) (hw : isWordByte c.code = false)
    (rest : List Cell) : readFrom s blocks (c :: rest) = readFrom (s.push c) blocks rest := by
  rw [readFrom.eq_def]
  simp [if_neg h.1, if_neg h.2.1, if_neg h.2.2, hw]

/-- Whether a byte of a word comes first. -/
def StartsWord (cs : List Cell) : Prop :=
  ∃ c ∈ cs.head?, isWordByte c.code

/-- What comes first does not depend on what follows. -/
theorem startsWord_append {cs : List Cell} (h : cs ≠ []) (rest : List Cell) :
    StartsWord (cs ++ rest) ↔ StartsWord cs := by
  cases cs with
  | nil => exact absurd rfl h
  | cons => exact Iff.rfl

theorem not_flat_of_word {c : Cell} (h : isWordByte c.code) : c.IsFlat := by
  refine ⟨?_, ?_, ?_⟩ <;> rintro he <;> rw [he] at h <;> exact absurd h (by decide)

theorem not_startsWord_cons {c : Cell} (hc : isWordByte c.code = false) (cs : List Cell) :
    ¬StartsWord (c :: cs) := by
  rintro ⟨x, hx, hw⟩
  obtain rfl := Option.some.inj hx
  rw [hc] at hw
  exact absurd hw (by decide)

/-- Whether cells are a word. -/
def IsWord (w : List Cell) : Prop :=
  w ≠ [] ∧ ∀ c ∈ w, isWordByte c.code

theorem IsWord.startsWord {w : List Cell} (h : IsWord w) (rest : List Cell) :
    StartsWord (w ++ rest) := by
  obtain ⟨c, w, rfl⟩ := List.exists_cons_of_ne_nil h.1
  exact ⟨c, rfl, h.2 c List.mem_cons_self⟩

/-- Behind a word no other one starts at once. -/
theorem not_startsWord_dropWhile (cs : List Cell) :
    ¬StartsWord (cs.dropWhile (isWordByte ·.code)) := by
  rintro ⟨d, hd, hw⟩
  have := List.head?_dropWhile_not (fun x : Cell => isWordByte x.code) cs
  rw [hd] at this
  exact absurd hw (by simpa using this)

theorem exists_word {c : Cell} (hc : isWordByte c.code) (rest : List Cell) :
    ∃ w after, w ++ after = c :: rest ∧ IsWord w ∧ ¬StartsWord after :=
  ⟨(c :: rest).takeWhile (isWordByte ·.code), (c :: rest).dropWhile (isWordByte ·.code),
    List.takeWhile_append_dropWhile, ⟨by simp [hc], fun _ hd =>
      List.mem_takeWhile_imp (p := fun x : Cell => isWordByte x.code) hd⟩,
    not_startsWord_dropWhile _⟩

theorem takeWhile_word {w rest : List Cell} (hw : ∀ c ∈ w, isWordByte c.code)
    (hr : ¬StartsWord rest) :
    (w ++ rest).takeWhile (isWordByte ·.code) = w ∧
      (w ++ rest).dropWhile (isWordByte ·.code) = rest := by
  rw [List.takeWhile_append_of_pos hw, List.dropWhile_append_of_pos hw]
  cases rest with
  | nil => simp
  | cons c rest =>
    have hc : isWordByte c.code = false := by
      rw [← Bool.not_eq_true]
      exact fun hc => hr ⟨c, rfl, hc⟩
    simp [hc]

/-- A word that starts no definition makes the statement longer. -/
theorem readFrom_word {w rest : List Cell} (hne : w ≠ []) (hw : ∀ c ∈ w, isWordByte c.code)
    (hr : ¬StartsWord rest)
    (h : codeText w = "struct" ∨ codeText w = "enum" → definition rest = .absent) :
    readFrom s blocks (w ++ rest) = readFrom (s.append w) blocks rest := by
  cases w with
  | nil => exact absurd rfl hne
  | cons c w =>
    rw [List.forall_mem_cons] at hw
    obtain ⟨hs, ho, hc⟩ := not_flat_of_word hw.1
    obtain ⟨htake, hdrop⟩ := takeWhile_word hw.2 hr
    rw [List.cons_append, readFrom.eq_def]
    simp only [if_neg hs, if_neg ho, if_neg hc, if_pos hw.1, htake, hdrop]
    split
    next hk =>
      have hd := h hk
      rw [← hdrop] at hd
      rw [hd]
    next => rfl

/-- A definition that ends is found, from the word that makes it a type name on. -/
theorem readFrom_definition {w rest cells after : List Cell}
    (hw : ∀ c ∈ w, isWordByte c.code) (hr : ¬StartsWord rest)
    (hk : codeText w = "struct" ∨ codeText w = "enum")
    (hd : definition rest = .complete cells after) :
    readFrom s blocks (w ++ rest) =
      (readFrom (.startingAt (s.stop + (w ++ cells).length)) blocks after).cons
        ⟨.structOrEnum, rawText ((if s.isTypedef then s.head else []) ++ w ++ cells),
          s.stop - (if s.isTypedef then s.head else []).length⟩ := by
  cases w with
  | nil => rcases hk with hk | hk <;> exact absurd hk (by decide)
  | cons c w =>
    rw [List.forall_mem_cons] at hw
    obtain ⟨hs, ho, hc⟩ := not_flat_of_word hw.1
    obtain ⟨htake, hdrop⟩ := takeWhile_word hw.2 hr
    rw [List.cons_append, readFrom.eq_def]
    simp only [if_neg hs, if_neg ho, if_neg hc, if_pos hw.1, htake, hdrop, if_pos hk]
    rw [← hdrop] at hd
    rw [hd]

theorem readFrom_prototype {c : Cell} {d : Declaration} (hc : c.code = semicolon)
    (hd : s.prototype? c = some d) (rest : List Cell) :
    readFrom s blocks (c :: rest) = (readFrom (.startingAt (s.stop + 1)) blocks rest).cons d := by
  rw [readFrom.eq_def]
  simp [hc, hd]

/-- A group behind a closing parenthesis ends the statement. -/
theorem readFrom_function {c : Cell} {g rest after : List Cell} (hc : c.code = openBrace)
    (hl : s.opensLinkage = false) (hp : s.endsInParen) (hg : group? 0 rest = some (g, after)) :
    readFrom s blocks (c :: rest) =
      readFrom (.startingAt (s.stop + (c :: g).length)) blocks after := by
  rw [readFrom.eq_def]
  simp only [hc, hl, if_pos hp, if_neg (show ¬openBrace = semicolon by decide), if_pos,
    Bool.false_eq_true, if_false]
  rw [hg]
  simp only [Statement.push, Statement.append, List.length_cons]
  rw [Nat.add_assoc, Nat.add_comm 1]

end Step

/-- Flat code up to a cell that is neither blank nor part of a word nor a brace only makes the
    statement longer. -/
theorem readFrom_flat {cs : List Cell} (h : ∀ c ∈ cs, c.IsFlat) {c : Cell} (rest : List Cell)
    (hc : c.code ≠ openBrace) (hb : c.isBlank = false) (hw : isWordByte c.code = false)
    (s : Statement) (blocks : Nat) :
    readFrom s blocks (cs ++ c :: rest) = readFrom (s.append cs) blocks (c :: rest) := by
  induction hn : cs.length using Nat.strongRecOn generalizing cs s with
  | _ n ih =>
  cases cs with
  | nil => rfl
  | cons x cs =>
    by_cases hx : isWordByte x.code
    · -- The word that starts here, and what is flat behind it.
      obtain ⟨w, ds, hwd, hword, hds⟩ := exists_word hx cs
      have hlen := congrArg List.length hwd
      have hpos := List.length_pos_iff.2 hword.1
      rw [List.length_append] at hlen
      have hflat : ∀ d ∈ ds, d.IsFlat := fun d hd => h d (hwd ▸ List.mem_append_right _ hd)
      have hr : ¬StartsWord (ds ++ c :: rest) := by
        cases ds with
        | nil => exact not_startsWord_cons hw rest
        | cons => exact hds
      rw [← hwd, List.append_assoc, readFrom_word s blocks hword.1 hword.2 hr
        fun _ => definition_flat hflat rest hc hb hw, ← s.append_append]
      exact ih _ (by omega) hflat _ rfl
    · -- A cell by itself.
      rw [Bool.not_eq_true] at hx
      rw [List.cons_append, readFrom_push s blocks (h x List.mem_cons_self) hx,
        show s.append (x :: cs) = (s.append [x]).append cs from (s.append_append [x] cs).symm]
      exact ih _ (by rw [List.length_cons] at hn; omega)
        (fun d hd => h d (List.mem_cons_of_mem _ hd)) _ rfl

/-! ### Blanks and headings -/

theorem isFlat_of_isBlank {c : Cell} (h : c.isBlank) : c.IsFlat := by
  refine ⟨?_, ?_, ?_⟩ <;> rintro he <;> rw [Cell.isBlank, he] at h <;> exact absurd h (by decide)

theorem not_word_of_isBlank {c : Cell} (h : c.isBlank) : isWordByte c.code = false := by
  simp only [Cell.isBlank, Text.isBlankByte, Bool.or_eq_true, beq_iff_eq] at h
  rcases h with (((h | h) | h) | h) | h <;> rw [h] <;> decide

theorem isBlank_of_word {c : Cell} (h : isWordByte c.code) : c.isBlank = false := by
  rw [← Bool.not_eq_true]
  intro hb
  rw [not_word_of_isBlank hb] at h
  exact absurd h (by decide)

/-- No word starts with blanks, or with nothing in front of what is no part of a word. -/
theorem not_startsWord_blanks {gap : List Cell} {c : Cell} (hg : ∀ b ∈ gap, b.isBlank)
    (hc : isWordByte c.code = false) (rest : List Cell) : ¬StartsWord (gap ++ c :: rest) := by
  cases gap with
  | nil => exact not_startsWord_cons hc rest
  | cons b gap => exact not_startsWord_cons (not_word_of_isBlank (hg b List.mem_cons_self)) _

/-- Blanks make the statement longer. -/
theorem readFrom_blanks {cs : List Cell} (h : ∀ c ∈ cs, c.isBlank) (s : Statement) (blocks : Nat)
    (rest : List Cell) : readFrom s blocks (cs ++ rest) = readFrom (s.append cs) blocks rest := by
  induction cs generalizing s with
  | nil => rfl
  | cons c cs ih =>
    rw [List.forall_mem_cons] at h
    rw [List.cons_append, readFrom_push s blocks (isFlat_of_isBlank h.1) (not_word_of_isBlank h.1),
      ih h.2]
    exact congrArg (readFrom · blocks rest) (s.append_append [c] cs)

/-! ### Fresh statements -/

/-- Whether nothing of a statement has been read but blanks. -/
def Statement.IsFresh (s : Statement) : Prop :=
  s.hasGroup = false ∧ ∀ c ∈ s.read, c.isBlank

theorem Statement.isFresh_startingAt (n : Nat) : (Statement.startingAt n).IsFresh :=
  ⟨rfl, by simp [Statement.startingAt]⟩

theorem Statement.IsFresh.append {s : Statement} (h : s.IsFresh) {cs : List Cell}
    (hc : ∀ c ∈ cs, c.isBlank) : (s.append cs).IsFresh := by
  refine ⟨h.1, fun c hm => ?_⟩
  rcases List.mem_append.1 hm with hm | hm
  · exact hc c (List.mem_reverse.1 hm)
  · exact h.2 c hm

/-- The head of a statement is what was read since it was fresh, blanks in front apart. -/
theorem Statement.IsFresh.head_append {s : Statement} (h : s.IsFresh) (cs : List Cell) :
    (s.append cs).head = cs.dropWhile Cell.isBlank := by
  have hread : (s.append cs).read.reverse = s.read.reverse ++ cs := by simp [Statement.append]
  rw [Statement.head, hread]
  exact List.dropWhile_append_of_pos fun c hc => h.2 c (List.mem_reverse.1 hc)

/-! ### Definitions -/

/-- Whether cells are a tag. -/
def IsTag (cs : List Cell) : Prop :=
  (∃ c ∈ cs.head?, isTagStart c.code) ∧ ∀ c ∈ cs, isWordByte c.code

/-- Where a tag or the brace itself comes first, behind it there may be blanks up to the brace. -/
theorem splitTag_tag {tag gap : List Cell} {c : Cell} (hc : c.code = openBrace)
    (ht : tag = [] ∧ gap = [] ∨ IsTag tag)
    (hg : ∀ b ∈ gap, b.isBlank) (rest : List Cell) :
    splitTag (tag ++ (gap ++ c :: rest)) = (tag ++ gap, c :: rest) := by
  have hblank : c.isBlank = false := by rw [Cell.isBlank, hc]; decide
  rcases ht with ⟨rfl, rfl⟩ | ⟨⟨t, ht, hstart⟩, hword⟩
  · rw [List.nil_append, List.nil_append, splitTag, if_neg (by rw [hc]; decide)]
    rfl
  · have hno := not_startsWord_blanks hg (by rw [hc]; decide) rest
    obtain ⟨htake, hdrop⟩ := takeWhile_word hword hno
    obtain ⟨ts, rfl⟩ := List.head?_eq_some_iff.1 ht
    rw [List.cons_append] at htake hdrop ⊢
    rw [splitTag, if_pos hstart]
    simp only [htake, hdrop]
    rw [List.takeWhile_append_of_pos hg, List.dropWhile_append_of_pos hg,
      List.takeWhile_cons_of_neg (by simp [hblank]), List.dropWhile_cons_of_neg (by simp [hblank])]
    simp

/-- A heading goes up to the brace: blanks, and a tag with blanks behind it or nothing. -/
theorem opening_heading {front tag gap : List Cell} {c : Cell} (hc : c.code = openBrace)
    (hf : ∀ b ∈ front, b.isBlank)
    (ht : tag = [] ∧ gap = [] ∨ IsTag tag)
    (hg : ∀ b ∈ gap, b.isBlank) (rest : List Cell) :
    opening? (front ++ (tag ++ (gap ++ c :: rest))) =
      some (front ++ (tag ++ gap) ++ [c], rest) := by
  -- So the blanks in front end where the tag or the brace begins.
  have hhead : ∀ x ∈ (tag ++ (gap ++ c :: rest)).head?, x.isBlank = false := by
    intro x hx
    rcases ht with ⟨rfl, rfl⟩ | ⟨⟨t, ht, hstart⟩, hword⟩
    · obtain rfl := Option.some.inj hx
      rw [Cell.isBlank, hc]
      decide
    · obtain ⟨ts, rfl⟩ := List.head?_eq_some_iff.1 ht
      obtain rfl := Option.some.inj hx
      exact isBlank_of_word (hword _ List.mem_cons_self)
  have hstop : (tag ++ (gap ++ c :: rest)).dropWhile Cell.isBlank = tag ++ (gap ++ c :: rest) ∧
      (tag ++ (gap ++ c :: rest)).takeWhile Cell.isBlank = [] := by
    revert hhead
    cases tag ++ (gap ++ c :: rest) with
    | nil => exact fun _ => ⟨rfl, rfl⟩
    | cons x xs =>
      intro hhead
      have := hhead x rfl
      exact ⟨List.dropWhile_cons_of_neg (by simp [this]),
        List.takeWhile_cons_of_neg (by simp [this])⟩
  rw [opening?, List.dropWhile_append_of_pos hf, hstop.1, List.takeWhile_append_of_pos hf, hstop.2,
    splitTag_tag hc ht hg]
  simp [hc]

/-- A definition goes from its heading to the first semicolon behind its group. -/
theorem definition_complete {head body tail : List Cell} {o c e : Cell}
    (hopen : ∀ rest, opening? (head ++ o :: rest) = some (head ++ [o], rest))
    (hbody : IsNeutral body) (hc : c.code = closeBrace) (htail : ∀ t ∈ tail, t.IsFlat)
    (he : e.code = semicolon) (after : List Cell) :
    definition ((head ++ o :: (body ++ c :: (tail ++ [e]))) ++ after) =
      .complete (head ++ o :: (body ++ c :: (tail ++ [e]))) after := by
  have hassoc : (head ++ o :: (body ++ c :: (tail ++ [e]))) ++ after =
      head ++ o :: (body ++ c :: (tail ++ e :: after)) := by simp
  rw [hassoc, definition, hopen]
  simp only
  rw [group?_of_isNeutral hbody hc]
  simp only
  rw [toSemicolon_flat htail he]
  simp

end TestBench.Source
