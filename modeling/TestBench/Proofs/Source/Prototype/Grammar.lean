import TestBench.Proofs.Source.Prototype.Balanced

/-!
# The grammar of prototypes

What a prototype is, written down as a grammar: the words of a result type, each followed by a gap,
a name, parameters in parentheses, attributes, a semicolon, and blanks in between. A way to read a
text by this grammar is a `Writing` of it.

A prototype has a single writing, although the matcher finds it from both ends: the attributes are
dropped from the right, by counting parentheses backwards, and what is left is read from the left.
The two meet because the parentheses of every group match (`Balanced`), whichever way they are
counted.

* `Writing.ofStatement?_text`: what is written by the grammar is read as it was written;
* `Writing.exists_of_ofStatement?`: what is read was written by the grammar;
* `isPrototype_iff_writing`: the prototypes are the texts with a writing, and it is unique.
-/

namespace TestBench.Source

/-! ### Words -/

/-- The characters with the White_Space property. -/
def blankCodes : List Nat :=
  [0x09, 0x0A, 0x0B, 0x0C, 0x0D, 0x20, 0x85, 0xA0, 0x1680, 0x2000, 0x2001, 0x2002, 0x2003, 0x2004,
   0x2005, 0x2006, 0x2007, 0x2008, 0x2009, 0x200A, 0x2028, 0x2029, 0x202F, 0x205F, 0x3000]

theorem mem_blankCodes {c : Char} (h : Text.isBlank c) : c.toNat ∈ blankCodes := by
  simp only [Text.isBlank, Bool.or_eq_true, Bool.and_eq_true, decide_eq_true_eq, beq_iff_eq] at h
  simp only [blankCodes, List.mem_cons, List.not_mem_nil, or_false]
  omega

/-- No character of a word is one of a gap. -/
theorem isWord_of_isTypeGap {c : Char} (h : isTypeGap c) : Text.isWord c = false := by
  rw [isTypeGap, Bool.or_eq_true, beq_iff_eq] at h
  rcases h with h | rfl
  · have hall : ∀ n ∈ blankCodes, Text.isWord (Char.ofNat n) = false := by decide +kernel
    have hword := hall _ (mem_blankCodes h)
    rwa [Char.ofNat_toNat] at hword
  · decide +kernel

theorem isWord_of_isWordStart {c : Char} (h : Text.isWordStart c) : Text.isWord c := by
  have hascii : c.toNat < 0x80 := by
    simp only [Text.isWordStart, Text.isLetter, Bool.or_eq_true, Bool.and_eq_true,
      decide_eq_true_eq, beq_iff_eq, Char.le_def, UInt32.le_iff_toNat_le] at h
    rcases h with (h | h) | rfl
    · exact Nat.lt_of_le_of_lt h.2 (by decide)
    · exact Nat.lt_of_le_of_lt h.2 (by decide)
    · decide
  rw [Text.isWordStart, Bool.or_eq_true] at h
  rw [Text.isWord_of_ascii hascii, Bool.or_assoc, Bool.or_eq_true, Bool.or_eq_true]
  exact h.imp_right .inr

theorem isTypeGap_of_isWord {c : Char} (h : Text.isWord c) : isTypeGap c = false := by
  cases hc : isTypeGap c with
  | false => rfl
  | true =>
    rw [isWord_of_isTypeGap hc] at h
    cases h

theorem isBlank_of_isWord {c : Char} (h : Text.isWord c) : Text.isBlank c = false :=
  (Bool.or_eq_false_iff.1 (isTypeGap_of_isWord h)).1

/-- A word: an ASCII letter or an underscore, and word characters after it. -/
structure IsTypeWord (w : List Char) : Prop where
  starts : ∃ c ∈ w.head?, Text.isWordStart c
  continues : ∀ c ∈ w, Text.isWord c

namespace IsTypeWord

variable {w w' rest rest' : List Char}

theorem exists_cons (h : IsTypeWord w) :
    ∃ c cs, w = c :: cs ∧ Text.isWordStart c ∧ ∀ d ∈ cs, Text.isWord d := by
  obtain ⟨c, hc, hstart⟩ := h.starts
  obtain ⟨cs, rfl⟩ := List.head?_eq_some_iff.1 hc
  exact ⟨c, cs, rfl, hstart, fun d hd => h.continues d (List.mem_cons_of_mem _ hd)⟩

/-- A word is no gap, so that whatever starts with it does not start with one. -/
theorem not_gap (h : IsTypeWord w) (rest : List Char) :
    ∀ c ∈ (w ++ rest).head?, isTypeGap c = false := by
  obtain ⟨d, cs, rfl, hd, -⟩ := h.exists_cons
  rintro _ ⟨⟩
  exact isTypeGap_of_isWord (isWord_of_isWordStart hd)

theorem word? (h : IsTypeWord w) (hrest : ∀ c ∈ rest.head?, Text.isWord c = false) :
    Source.word? (w ++ rest) = some (w, rest) := by
  obtain ⟨c, cs, rfl, hc, hcs⟩ := h.exists_cons
  rw [List.cons_append, Source.word?, if_pos hc, takeWhile_append_of_stop hcs hrest,
    dropWhile_append_of_stop hcs hrest]

theorem of_word? {cs : List Char} (h : Source.word? cs = some (w, rest)) :
    IsTypeWord w ∧ cs = w ++ rest ∧ ∀ c ∈ rest.head?, Text.isWord c = false := by
  cases cs with
  | nil => cases h
  | cons c cs =>
    rw [Source.word?] at h
    split at h
    next hc =>
      obtain ⟨rfl, rfl⟩ := Prod.mk.inj (Option.some.inj h)
      refine ⟨⟨⟨c, rfl, hc⟩, fun d hd => ?_⟩, by simp, stop_dropWhile cs⟩
      rcases List.mem_cons.1 hd with rfl | hd
      · exact isWord_of_isWordStart hc
      · exact mem_takeWhile_of d hd
    next => cases h

end IsTypeWord

/-! ### The result type and the name -/

/-- A word of a result type, and the gap behind it. -/
structure TypeWord where
  word : List Char
  gap : List Char
  isTypeWord : IsTypeWord word
  gap_ne_nil : gap ≠ []
  isGap : ∀ c ∈ gap, isTypeGap c

namespace TypeWord

def text (t : TypeWord) : List Char :=
  t.word ++ t.gap

theorem ext {t t' : TypeWord} (hw : t.word = t'.word) (hg : t.gap = t'.gap) : t = t' := by
  cases t
  cases t'
  simp_all

theorem isWord_gap (t : TypeWord) (l : List Char) :
    ∀ c ∈ (t.gap ++ l).head?, Text.isWord c = false := by
  obtain ⟨c, g, hg⟩ := List.exists_cons_of_ne_nil t.gap_ne_nil
  rw [hg]
  rintro _ ⟨⟩
  exact isWord_of_isTypeGap (t.isGap c (hg ▸ List.mem_cons_self))

variable {name name' gap gap' : List Char}

/-- Words with their gaps, and then a name, do not start with a gap. -/
theorem not_gap_head (ts : List TypeWord) (hname : IsTypeWord name) (gap : List Char) :
    ∀ c ∈ (ts.flatMap text ++ (name ++ gap)).head?, isTypeGap c = false := by
  cases ts with
  | nil => exact hname.not_gap gap
  | cons t ts =>
    rw [List.flatMap_cons, text, List.append_assoc, List.append_assoc]
    exact t.isTypeWord.not_gap _

theorem isWord_head_of_blank (hgap : ∀ c ∈ gap, Text.isBlank c) :
    ∀ c ∈ gap.head?, Text.isWord c = false := by
  intro c hc
  have hblank := hgap c (List.mem_of_mem_head? hc)
  exact isWord_of_isTypeGap (by rw [isTypeGap, hblank, Bool.true_or])

/-- The words of a result type, and then a name, are found one after the other. -/
theorem words?_text (ts : List TypeWord) (hname : IsTypeWord name)
    (hgap : ∀ c ∈ gap, Text.isBlank c) :
    words? (ts.flatMap text ++ (name ++ gap)) = some (ts.map word ++ [name]) := by
  induction ts with
  | nil =>
    rw [List.flatMap_nil, List.nil_append, words?_of_some (hname.word? (isWord_head_of_blank hgap)),
      if_pos (List.all_eq_true.2 hgap)]
    rfl
  | cons t ts ih =>
    have hhead := not_gap_head ts hname gap
    rw [List.flatMap_cons, text, List.append_assoc, List.append_assoc,
      words?_of_some (t.isTypeWord.word? (t.isWord_gap _)),
      takeWhile_append_of_stop t.isGap hhead, dropWhile_append_of_stop t.isGap hhead, ih,
      if_neg, if_neg (by simpa using t.gap_ne_nil)]
    · rfl
    · -- The name at least is no gap.
      obtain ⟨c, cs, rfl, hc, -⟩ := hname.exists_cons
      intro hall
      have hblank := List.all_eq_true.1 hall c (by simp)
      rw [isBlank_of_isWord (isWord_of_isWordStart hc)] at hblank
      cases hblank

theorem exists_of_words? {cs : List Char} {ws : List (List Char)} (h : words? cs = some ws) :
    ∃ (ts : List TypeWord) (name gap : List Char), IsTypeWord name ∧ (∀ c ∈ gap, Text.isBlank c) ∧
      cs = ts.flatMap text ++ (name ++ gap) ∧ ws = ts.map word ++ [name] := by
  induction hn : cs.length using Nat.strongRecOn generalizing cs ws with
  | _ n ih =>
  cases hword : Source.word? cs with
  | none =>
    rw [words?_of_none hword] at h
    cases h
  | some found =>
    obtain ⟨w, rest⟩ := found
    have hshort := length_word?_lt hword
    obtain ⟨hw, rfl, -⟩ := IsTypeWord.of_word? hword
    rw [words?_of_some hword] at h
    split at h
    next hblank =>
      obtain rfl := Option.some.inj h
      exact ⟨[], w, rest, hw, List.all_eq_true.1 hblank, rfl, rfl⟩
    split at h
    · cases h
    next hgap =>
      obtain ⟨ws', hws', rfl⟩ := Option.map_eq_some_iff.1 h
      have hle := (List.dropWhile_sublist isTypeGap (l := rest)).length_le
      obtain ⟨ts, name, gap, hname, hblank, hrest, rfl⟩ := ih _ (by omega) hws' rfl
      refine ⟨⟨w, rest.takeWhile isTypeGap, hw, by simpa using hgap, mem_takeWhile_of⟩ :: ts, name,
        gap, hname, hblank, ?_, rfl⟩
      rw [List.flatMap_cons, List.append_assoc, ← hrest, text, List.append_assoc,
        List.takeWhile_append_dropWhile]

/-- The blanks after the name are all that is at the end. -/
theorem dropWhile_reverse (ts : List TypeWord) (hname : IsTypeWord name)
    (hgap : ∀ c ∈ gap, Text.isBlank c) :
    (ts.flatMap text ++ (name ++ gap)).reverse.dropWhile Text.isBlank =
      (ts.flatMap text ++ name).reverse := by
  have hne : name ≠ [] := by
    obtain ⟨c, cs, rfl, -⟩ := hname.exists_cons
    exact List.cons_ne_nil _ _
  rw [← List.append_assoc, List.reverse_append]
  refine dropWhile_append_of_stop (fun c hc => hgap c (List.mem_reverse.1 hc)) fun c hc => ?_
  rw [List.head?_reverse, List.getLast?_append, List.getLast?_eq_some_getLast hne] at hc
  obtain rfl := Option.some.inj hc
  exact isBlank_of_isWord (hname.continues _ (List.getLast_mem hne))

/-- There is a single way to cut a text into words with gaps, a name and blanks. -/
theorem append_name_inj {ts ts' : List TypeWord} (hname : IsTypeWord name)
    (hname' : IsTypeWord name') (hgap : ∀ c ∈ gap, Text.isBlank c)
    (hgap' : ∀ c ∈ gap', Text.isBlank c)
    (h : ts.flatMap text ++ (name ++ gap) = ts'.flatMap text ++ (name' ++ gap')) :
    ts = ts' ∧ name = name' ∧ gap = gap' := by
  have hwords := congrArg words? h
  rw [words?_text ts hname hgap, words?_text ts' hname' hgap', Option.some_inj] at hwords
  obtain ⟨hmap, hlast⟩ := List.append_inj' hwords rfl
  obtain rfl := List.singleton_inj.1 hlast
  clear hwords hlast
  -- The words are the same, so that one gap after the other is.
  induction ts generalizing ts' with
  | nil =>
    obtain rfl := List.map_eq_nil_iff.1 hmap.symm
    exact ⟨rfl, rfl, by simpa using h⟩
  | cons t ts ih =>
    cases ts' with
    | nil => cases hmap
    | cons t' ts' =>
      obtain ⟨hword, hmap⟩ := List.cons.inj hmap
      simp only [List.flatMap_cons, text, List.append_assoc, hword] at h
      obtain ⟨hg, hrest⟩ := append_inj_of_stop t.isGap t'.isGap (not_gap_head ts hname gap)
        (not_gap_head ts' hname gap') (List.append_cancel_left h)
      obtain ⟨rfl, -, rfl⟩ := ih hmap hrest
      exact ⟨by rw [ext hword hg], rfl, rfl⟩

end TypeWord

/-! ### Attributes -/

/-- An attribute, with the blanks before it and after its keyword. -/
structure Attribute where
  before : List Char
  between : List Char
  inside : List Char
  isBlank_before : ∀ c ∈ before, Text.isBlank c
  isBlank_between : ∀ c ∈ between, Text.isBlank c
  balanced : Balanced inside

namespace Attribute

/-- The word that an attribute starts with. -/
def keyword : List Char := "__attribute__".toList

def text (a : Attribute) : List Char :=
  a.before ++ (keyword ++ (a.between ++ '(' :: (a.inside ++ [')'])))

theorem ext {a a' : Attribute} (hb : a.before = a'.before) (hm : a.between = a'.between)
    (hi : a.inside = a'.inside) : a = a' := by
  cases a
  cases a'
  simp_all

theorem isWord_keyword : ∀ c ∈ keyword, Text.isWord c := by
  have h : keyword.all Text.isWord := by decide +kernel
  exact List.all_eq_true.1 h

theorem reverse_keyword : attributeKeyword = keyword.reverse :=
  rfl

/-- The keyword is no blank, from whichever end it is read. -/
theorem not_blank_keyword (l : List Char) :
    (∀ c ∈ (keyword ++ l).head?, Text.isBlank c = false) ∧
      ∀ c ∈ (keyword.reverse ++ l).head?, Text.isBlank c = false := by
  constructor <;> (rintro _ ⟨⟩; decide)

/-- One group is found from its right end. -/
theorem beforeGroup_group {q : List Char} (hq : Balanced q) (m : List Char) :
    beforeGroup 0 (')' :: (q.reverse ++ '(' :: m)) = some m := by
  rw [beforeGroup, hq.beforeGroup_append, beforeGroup]

theorem exists_of_beforeGroup {cs before : List Char} (hc : cs.head? = some ')')
    (h : beforeGroup 0 cs = some before) :
    ∃ q, Balanced q ∧ cs = ')' :: (q.reverse ++ '(' :: before) := by
  obtain ⟨cs, rfl⟩ := List.head?_eq_some_iff.1 hc
  rw [beforeGroup] at h
  obtain ⟨q, before', hq, rfl, hbefore⟩ := Balanced.exists_of_beforeGroup h
  rw [if_pos rfl] at hbefore
  exact ⟨q, hq, by rw [hbefore]⟩

theorem afterPrefix?_append (ps l : List Char) : afterPrefix? ps (ps ++ l) = some l := by
  induction ps with
  | nil => rfl
  | cons p ps ih => rw [List.cons_append, afterPrefix?, beq_self_eq_true, if_pos rfl, ih]

theorem eq_of_afterPrefix? {ps l rest : List Char} (h : afterPrefix? ps l = some rest) :
    l = ps ++ rest := by
  fun_induction afterPrefix? ps l with
  | case1 => exact Option.some.inj h
  | case2 => cases h
  | case3 p ps c cs hpc ih => rw [beq_iff_eq.1 hpc, List.cons_append, ← ih h]
  | case4 => cases h

theorem reverse_text (a : Attribute) (l : List Char) :
    a.text.reverse ++ l = ')' :: (a.inside.reverse ++ '(' :: (a.between.reverse ++
      (keyword.reverse ++ (a.before.reverse ++ l)))) := by
  simp [text]

/-- One attribute is dropped, with the blanks before it. -/
theorem dropAttributes_text (a : Attribute) {body : List Char}
    (hbody : ∀ c ∈ body.head?, Text.isBlank c = false) :
    dropAttributes (a.text.reverse ++ body) = dropAttributes body := by
  have hbetween : ∀ c ∈ a.between.reverse, Text.isBlank c :=
    fun c hc => a.isBlank_between c (List.mem_reverse.1 hc)
  have hbefore : ∀ c ∈ a.before.reverse, Text.isBlank c :=
    fun c hc => a.isBlank_before c (List.mem_reverse.1 hc)
  have hkeyword : afterPrefix? attributeKeyword ((a.between.reverse ++
      (keyword.reverse ++ (a.before.reverse ++ body))).dropWhile Text.isBlank) =
        some (a.before.reverse ++ body) := by
    rw [dropWhile_append_of_stop hbetween (not_blank_keyword _).2, reverse_keyword,
      afterPrefix?_append]
  rw [reverse_text, dropAttributes_group rfl (beforeGroup_group a.balanced _) hkeyword,
    dropWhile_append_of_stop hbefore hbody]

theorem head_texts (as : List Attribute) {body : List Char} (hbody : body.head? = some ')') :
    ((as.flatMap text).reverse ++ body).head? = some ')' := by
  induction as generalizing body with
  | nil => exact hbody
  | cons a as ih =>
    rw [List.flatMap_cons, List.reverse_append, List.append_assoc]
    exact ih (by rw [reverse_text, List.head?_cons])

/-- All attributes behind a group are dropped. -/
theorem dropAttributes_texts (as : List Attribute) {body : List Char}
    (hbody : body.head? = some ')') :
    dropAttributes ((as.flatMap text).reverse ++ body) = dropAttributes body := by
  induction as generalizing body with
  | nil => rfl
  | cons a as ih =>
    rw [List.flatMap_cons, List.reverse_append, List.append_assoc,
      ih (by rw [reverse_text, List.head?_cons]), dropAttributes_text a]
    rintro _ hc
    obtain rfl := Option.some.inj (hbody.symm.trans hc)
    decide

/-- What is dropped is attributes, and they are all. -/
theorem exists_of_dropAttributes (body : List Char)
    (hb : ∀ c ∈ body.head?, Text.isBlank c = false) :
    ∃ as : List Attribute, body = (as.flatMap text).reverse ++ dropAttributes body ∧
      (∀ c ∈ (dropAttributes body).head?, Text.isBlank c = false) ∧
      ∀ before rest, (dropAttributes body).head? = some ')' →
        beforeGroup 0 (dropAttributes body) = some before →
        afterPrefix? attributeKeyword (before.dropWhile Text.isBlank) ≠ some rest := by
  induction hn : body.length using Nat.strongRecOn generalizing body with
  | _ n ih =>
  by_cases hgroup : ∃ before rest, body.head? = some ')' ∧ beforeGroup 0 body = some before ∧
      afterPrefix? attributeKeyword (before.dropWhile Text.isBlank) = some rest
  · obtain ⟨before, rest, hclose, hg, ha⟩ := hgroup
    have hbefore := length_beforeGroup_lt hg
    have hkeyword := length_afterPrefix?_le ha
    have hblanks := (List.dropWhile_sublist Text.isBlank (l := before)).length_le
    have hblanks' := (List.dropWhile_sublist Text.isBlank (l := rest)).length_le
    obtain ⟨as, has, hends, hstop⟩ := ih _ (by omega) (rest.dropWhile Text.isBlank)
      (stop_dropWhile rest) rfl
    rw [dropAttributes_group hclose hg ha]
    obtain ⟨q, hq, hbody⟩ := exists_of_beforeGroup hclose hg
    refine ⟨as ++ [⟨(rest.takeWhile Text.isBlank).reverse, (before.takeWhile Text.isBlank).reverse,
      q, fun c hc => mem_takeWhile_of c (List.mem_reverse.1 hc),
      fun c hc => mem_takeWhile_of c (List.mem_reverse.1 hc), hq⟩], ?_, hends, hstop⟩
    rw [List.flatMap_append, List.flatMap_singleton, List.reverse_append, List.append_assoc, ← has,
      reverse_text, List.reverse_reverse, List.reverse_reverse, List.takeWhile_append_dropWhile,
      ← reverse_keyword, ← eq_of_afterPrefix? ha, List.takeWhile_append_dropWhile]
    exact hbody
  · have hstop : ∀ before rest, body.head? = some ')' → beforeGroup 0 body = some before →
        afterPrefix? attributeKeyword (before.dropWhile Text.isBlank) ≠ some rest :=
      fun before rest hb hg ha => hgroup ⟨before, rest, hb, hg, ha⟩
    rw [dropAttributes_noGroup hstop]
    exact ⟨[], rfl, hb, hstop⟩

/-- There is a single way to cut a text into attributes, blanks and a semicolon. -/
theorem append_semicolon_inj {as as' : List Attribute} {gap gap' l l' : List Char}
    (hgap : ∀ c ∈ gap, Text.isBlank c) (hgap' : ∀ c ∈ gap', Text.isBlank c)
    (h : as.flatMap text ++ (gap ++ ';' :: l) = as'.flatMap text ++ (gap' ++ ';' :: l')) :
    as = as' ∧ gap = gap' ∧ l = l' := by
  have hsemi : ∀ l : List Char, ∀ c ∈ (';' :: l).head?, Text.isBlank c = false := by
    rintro l _ ⟨⟩
    decide
  induction as generalizing as' with
  | nil =>
    cases as' with
    | nil =>
      obtain ⟨rfl, hrest⟩ := append_inj_of_stop hgap hgap' (hsemi l) (hsemi l') h
      exact ⟨rfl, rfl, (List.cons.inj hrest).2⟩
    | cons a as' =>
      simp only [List.flatMap_cons, List.flatMap_nil, List.nil_append, text, List.append_assoc] at h
      obtain ⟨-, hrest⟩ := append_inj_of_stop hgap a.isBlank_before (hsemi l)
        (not_blank_keyword _).1 h
      exact absurd (List.cons.inj hrest).1 (by decide)
  | cons a as ih =>
    cases as' with
    | nil =>
      simp only [List.flatMap_cons, List.flatMap_nil, List.nil_append, text, List.append_assoc] at h
      obtain ⟨-, hrest⟩ := append_inj_of_stop a.isBlank_before hgap' (not_blank_keyword _).1
        (hsemi l') h
      exact absurd (List.cons.inj hrest).1 (by decide)
    | cons a' as' =>
      simp only [List.flatMap_cons, text, List.append_assoc] at h
      obtain ⟨hbefore, hrest⟩ := append_inj_of_stop a.isBlank_before a'.isBlank_before
        (not_blank_keyword _).1 (not_blank_keyword _).1 h
      have hopen : ∀ l : List Char, ∀ c ∈ ('(' :: l).head?, Text.isBlank c = false := by
        rintro l _ ⟨⟩
        decide
      obtain ⟨hbetween, hrest⟩ := append_inj_of_stop a.isBlank_between a'.isBlank_between
        (hopen _) (hopen _) (List.append_cancel_left hrest)
      obtain ⟨hinside, hrest⟩ := a.balanced.append_close_inj a'.balanced (by
        simpa using hrest)
      obtain ⟨rfl, rfl, rfl⟩ := ih hrest
      exact ⟨by rw [ext hbefore hbetween hinside], rfl, rfl⟩

end Attribute

/-! ### Prototypes -/

/-- A way to write a prototype. -/
structure Writing where
  result : List TypeWord
  name : List Char
  /-- The blanks before the parameters. -/
  gap : List Char
  params : List Char
  attributes : List Attribute
  /-- The blanks before the semicolon. -/
  behind : List Char
  /-- The blanks after the semicolon. -/
  tail : List Char
  result_ne_nil : result ≠ []
  result_words : ∀ t ∈ result, t.word ∉ ["typedef", "return"].map String.toList
  isTypeWord_name : IsTypeWord name
  name_function : name ∉ ["if", "while", "for", "switch", "return", "sizeof"].map String.toList
  name_attribute : ¬ "__attribute__".toList <:+ name
  isBlank_gap : ∀ c ∈ gap, Text.isBlank c
  params_plain : ∀ c ∈ params, c ∉ [';', '{', '}']
  balanced : Balanced params
  isBlank_behind : ∀ c ∈ behind, Text.isBlank c
  isBlank_tail : ∀ c ∈ tail, Text.isBlank c

namespace Writing

/-- What stands before the parameters. -/
def head (w : Writing) : List Char :=
  w.result.flatMap TypeWord.text ++ (w.name ++ w.gap)

def text (w : Writing) : List Char :=
  w.head ++ '(' :: (w.params ++ ')' :: (w.attributes.flatMap Attribute.text ++
    (w.behind ++ ';' :: w.tail)))

/-- What is captured of a prototype. -/
def parts (w : Writing) : Prototype :=
  ⟨w.result.map TypeWord.word, w.name, w.params⟩

theorem ne_open_of_mem_head (w : Writing) : ∀ c ∈ w.head, (c != '(') = true := by
  have hword : ∀ c, Text.isWord c → (c != '(') = true := by
    rintro c hc
    refine bne_iff_ne.2 ?_
    rintro rfl
    exact absurd hc (by decide +kernel)
  have hgap : ∀ c, isTypeGap c → (c != '(') = true := by
    rintro c hc
    refine bne_iff_ne.2 ?_
    rintro rfl
    exact absurd hc (by decide)
  intro c hc
  simp only [head, List.mem_append, List.mem_flatMap, TypeWord.text] at hc
  rcases hc with ⟨t, -, hc | hc⟩ | hc | hc
  · exact hword c (t.isTypeWord.continues c hc)
  · exact hgap c (t.isGap c hc)
  · exact hword c (w.isTypeWord_name.continues c hc)
  · exact hgap c (by rw [isTypeGap, w.isBlank_gap c hc, Bool.true_or])

/-- The head of a prototype ends where its parameters open. -/
theorem cut_head (w : Writing) (l : List Char) :
    (w.head ++ '(' :: l).takeWhile (· != '(') = w.head ∧
      (w.head ++ '(' :: l).dropWhile (· != '(') = '(' :: l := by
  have hopen : ∀ c ∈ ('(' :: l).head?, (c != '(') = false := by
    rintro _ ⟨⟩
    decide
  exact ⟨takeWhile_append_of_stop w.ne_open_of_mem_head hopen,
    dropWhile_append_of_stop w.ne_open_of_mem_head hopen⟩

/-- The result type ends in a gap. -/
theorem exists_gap_of_result (w : Writing) :
    ∃ c ∈ (w.result.flatMap TypeWord.text).getLast?, isTypeGap c := by
  have hsplit := List.dropLast_concat_getLast w.result_ne_nil
  generalize w.result.dropLast = ts, w.result.getLast w.result_ne_nil = t at hsplit
  refine ⟨t.gap.getLast t.gap_ne_nil, ?_, t.isGap _ (List.getLast_mem _)⟩
  rw [← hsplit, List.flatMap_append, List.flatMap_singleton, TypeWord.text, ← List.append_assoc,
    List.getLast?_append, List.getLast?_eq_some_getLast t.gap_ne_nil]
  rfl

/-- The parameters of a prototype are not taken for an attribute: the keyword is no part of the
    name, and no longer than the name, as there is a gap before the latter. -/
theorem not_attribute (w : Writing) (rest : List Char) :
    afterPrefix? attributeKeyword (w.head.reverse.dropWhile Text.isBlank) ≠ some rest := by
  intro h
  rw [head, TypeWord.dropWhile_reverse w.result w.isTypeWord_name w.isBlank_gap] at h
  have heq := congrArg List.reverse (Attribute.eq_of_afterPrefix? h)
  rw [List.reverse_reverse, List.reverse_append, Attribute.reverse_keyword,
    List.reverse_reverse] at heq
  have hkeyword : Attribute.keyword <:+ w.result.flatMap TypeWord.text ++ w.name :=
    heq ▸ List.suffix_append _ _
  rcases List.suffix_or_suffix_of_suffix hkeyword (List.suffix_append _ _) with hs | ⟨k, hk⟩
  · exact w.name_attribute hs
  · rw [← hk, ← List.append_assoc] at heq
    have hresult := List.append_cancel_right heq
    obtain ⟨c, hc, htype⟩ := w.exists_gap_of_result
    cases hlast : k.getLast? with
    | none =>
      rw [List.getLast?_eq_none_iff.1 hlast, List.nil_append] at hk
      exact w.name_attribute (hk ▸ List.suffix_refl _)
    | some d =>
      rw [hresult, List.getLast?_append, hlast] at hc
      obtain rfl := Option.some.inj hc
      have hword := Attribute.isWord_keyword d
        (hk ▸ List.mem_append_left _ (List.mem_of_mem_getLast? hlast))
      rw [isWord_of_isTypeGap htype] at hword
      cases hword

/-- Of a prototype, its attributes are dropped and no more. -/
theorem withoutAttributes_text (w : Writing) :
    withoutAttributes w.text = w.head ++ '(' :: (w.params ++ [')', ';']) := by
  have htail : ∀ c ∈ w.tail.reverse, Text.isBlank c :=
    fun c hc => w.isBlank_tail c (List.mem_reverse.1 hc)
  have hbehind : ∀ c ∈ w.behind.reverse, Text.isBlank c :=
    fun c hc => w.isBlank_behind c (List.mem_reverse.1 hc)
  let core := ')' :: (w.params.reverse ++ '(' :: w.head.reverse)
  have hreverse : w.text.reverse = w.tail.reverse ++ (';' :: (w.behind.reverse ++
      ((w.attributes.flatMap Attribute.text).reverse ++ core))) := by
    simp [text, core]
  have hcore : dropAttributes core = core := by
    refine dropAttributes_noGroup fun before rest _ hbefore => ?_
    rw [Attribute.beforeGroup_group w.balanced] at hbefore
    exact Option.some.inj hbefore ▸ w.not_attribute rest
  have hends : ∀ c ∈ ((w.attributes.flatMap Attribute.text).reverse ++ core).head?,
      Text.isBlank c = false := by
    intro c hc
    obtain rfl := Option.some.inj ((Attribute.head_texts _ rfl).symm.trans hc)
    decide
  rw [withoutAttributes, hreverse, dropWhile_append_of_stop htail (by rintro _ ⟨⟩; decide)]
  simp only
  rw [dropWhile_append_of_stop hbehind hends, Attribute.dropAttributes_texts _ rfl, hcore]
  simp [core]

theorem params?_text (w : Writing) : params? (w.params ++ [')', ';']) = some w.params := by
  have hreverse : (w.params ++ [')', ';']).reverse = ';' :: ')' :: w.params.reverse := by simp
  have hplain : (w.params.reverse.any fun c => c == ';' || c == '{' || c == '}') = false := by
    refine List.any_eq_false.2 fun c hc => ?_
    have h := w.params_plain c (List.mem_reverse.1 hc)
    simpa [and_assoc] using h
  rw [params?, hreverse]
  simp only
  rw [List.dropWhile_cons_of_neg (by decide)]
  simp only
  rw [hplain, if_neg Bool.false_ne_true, List.reverse_reverse]

/-- What is written by the grammar is read as it was written. -/
theorem ofStatement?_text (w : Writing) : Prototype.ofStatement? w.text = some w.parts := by
  have hparts : Prototype.parts? (w.head ++ '(' :: (w.params ++ [')', ';'])) = some w.parts := by
    rw [Prototype.parts?, (w.cut_head _).1, (w.cut_head _).2]
    simp only
    rw [head, TypeWord.words?_text w.result w.isTypeWord_name w.isBlank_gap, w.params?_text]
    simp only [List.getLast?_concat, List.dropLast_concat]
    rw [if_neg (by simpa using w.result_ne_nil)]
    rfl
  rw [Prototype.ofStatement?, w.withoutAttributes_text, hparts, Option.filter_eq_some_iff]
  have hbalanced : isBalanced 0 w.params := by
    rw [← List.append_nil w.params, w.balanced.isBalanced_append]
    rfl
  have hwords : ∀ t ∈ w.result, String.ofList t.word ∉ nonTypeWords :=
    fun t ht hm => w.result_words t ht (List.mem_map.2 ⟨_, hm, String.toList_ofList⟩)
  have hname : String.ofList w.name ∉ nonFunctionNames :=
    fun hm => w.name_function (List.mem_map.2 ⟨_, hm, String.toList_ofList⟩)
  exact ⟨rfl, by simpa [parts, hbalanced, hname] using hwords⟩

/-- There is a single way to write a prototype. -/
theorem text_injective : Function.Injective text := by
  intro w w' h
  have hhead := congrArg (List.takeWhile (· != '(')) h
  have hrest := congrArg (List.dropWhile (· != '(')) h
  rw [text, text, (w.cut_head _).1, (w'.cut_head _).1] at hhead
  rw [text, text, (w.cut_head _).2, (w'.cut_head _).2] at hrest
  obtain ⟨hresult, hname, hgap⟩ := TypeWord.append_name_inj w.isTypeWord_name w'.isTypeWord_name
    w.isBlank_gap w'.isBlank_gap hhead
  obtain ⟨hparams, hrest⟩ := w.balanced.append_close_inj w'.balanced (List.cons.inj hrest).2
  obtain ⟨hattributes, hbehind, htail⟩ := Attribute.append_semicolon_inj w.isBlank_behind
    w'.isBlank_behind hrest
  cases w
  cases w'
  simp_all

end Writing

/-! ### What is read was written -/

theorem exists_of_params? {cs params : List Char} (h : params? cs = some params) :
    ∃ rest, cs.reverse = ';' :: rest ∧ rest.dropWhile Text.isBlank = ')' :: params.reverse ∧
      ∀ c ∈ params, c ∉ [';', '{', '}'] := by
  rw [params?] at h
  split at h
  next rest hcs =>
    split at h
    next params' hrest =>
      split at h
      · cases h
      next hplain =>
        obtain rfl := Option.some.inj h
        refine ⟨rest, hcs, by rw [hrest, List.reverse_reverse], fun c hc => ?_⟩
        have hany := List.any_eq_false.1 (Bool.eq_false_iff.2 hplain) c (List.mem_reverse.1 hc)
        simpa [and_assoc] using hany
    next => cases h
  next => cases h

theorem Prototype.exists_of_parts? {cs : List Char} {p : Prototype} (h : parts? cs = some p) :
    ∃ head tail, cs = head ++ '(' :: tail ∧ words? head = some (p.result ++ [p.name]) ∧
      p.result ≠ [] ∧ params? tail = some p.params := by
  have hcut := List.takeWhile_append_dropWhile (p := (· != '(')) (l := cs)
  rw [parts?] at h
  split at h
  · cases h
  next c tail htail =>
    have hopen := stop_dropWhile (p := (· != '(')) cs c (by rw [htail]; rfl)
    obtain rfl : c = '(' := by simpa using hopen
    split at h
    next ws params hws hparams =>
      split at h
      next name hname =>
        split at h
        · cases h
        next hresult =>
          obtain rfl := Option.some.inj h
          refine ⟨_, tail, by rw [← htail, hcut], ?_, by simpa using hresult, hparams⟩
          obtain ⟨result, rfl⟩ := List.getLast?_eq_some_iff.1 hname
          rw [hws, List.dropLast_concat]
      next => cases h
    next => cases h

/-- A text without blanks at its end that is read, with a semicolon behind it, ends in the
    parameters. -/
theorem Prototype.eq_of_parts? {body : List Char} {p : Prototype}
    (hb : ∀ c ∈ body.head?, Text.isBlank c = false)
    (h : parts? (body.reverse ++ [';']) = some p) :
    ∃ head, body = ')' :: (p.params.reverse ++ '(' :: head.reverse) ∧
      words? head = some (p.result ++ [p.name]) ∧ p.result ≠ [] ∧
      ∀ c ∈ p.params, c ∉ [';', '{', '}'] := by
  obtain ⟨head, tail, hcut, hwords, hresult, hparams⟩ := exists_of_parts? h
  obtain ⟨rest, htail, hclose, hplain⟩ := exists_of_params? hparams
  have hbody : body = rest ++ '(' :: head.reverse := by
    have hreverse := congrArg List.reverse hcut
    simp only [List.reverse_append, List.reverse_reverse, List.reverse_cons, htail] at hreverse
    simpa using hreverse
  -- There are no blanks to skip before the parenthesis.
  have hrest : rest.dropWhile Text.isBlank = rest := by
    cases rest with
    | nil => cases hclose
    | cons c rest => exact List.dropWhile_cons_of_neg (by simp [hb c (by rw [hbody]; rfl)])
  exact ⟨head, by rw [hbody, ← hrest, hclose]; rfl, hwords, hresult, hplain⟩

/-- What is taken off a prototype is its attributes, and the blanks around its semicolon. -/
theorem exists_of_withoutAttributes {cs : List Char} {p : Prototype}
    (h : Prototype.parts? (withoutAttributes cs) = some p) :
    ∃ (body : List Char) (as : List Attribute) (behind tail : List Char),
      cs = body.reverse ++ (as.flatMap Attribute.text ++ (behind ++ ';' :: tail)) ∧
      (∀ c ∈ behind, Text.isBlank c) ∧ (∀ c ∈ tail, Text.isBlank c) ∧
      withoutAttributes cs = body.reverse ++ [';'] ∧ (∀ c ∈ body.head?, Text.isBlank c = false) ∧
      ∀ before rest, body.head? = some ')' → beforeGroup 0 body = some before →
        afterPrefix? attributeKeyword (before.dropWhile Text.isBlank) ≠ some rest := by
  have hcs := List.takeWhile_append_dropWhile (p := Text.isBlank) (l := cs.reverse)
  -- A statement that ends in no semicolon is no prototype.
  obtain ⟨b, hb⟩ : ∃ b, cs.reverse.dropWhile Text.isBlank = ';' :: b := by
    by_cases hsemi : (cs.reverse.dropWhile Text.isBlank).head? = some ';'
    · exact List.head?_eq_some_iff.1 hsemi
    rw [without_attributes_of_not_terminated hsemi] at h
    obtain ⟨head, tail, rfl, -, -, hparams⟩ := Prototype.exists_of_parts? h
    obtain ⟨rest, htail, -⟩ := exists_of_params? hparams
    simp [htail, show Text.isBlank ';' = false by decide] at hsemi
  have hbb := List.takeWhile_append_dropWhile (p := Text.isBlank) (l := b)
  obtain ⟨as, hbody, hends, hstop⟩ :=
    Attribute.exists_of_dropAttributes (b.dropWhile Text.isBlank) (stop_dropWhile b)
  have hblank : ∀ {l : List Char}, ∀ c ∈ (l.takeWhile Text.isBlank).reverse, Text.isBlank c :=
    fun c hc => mem_takeWhile_of c (List.mem_reverse.1 hc)
  refine ⟨dropAttributes (b.dropWhile Text.isBlank), as, (b.takeWhile Text.isBlank).reverse,
    (cs.reverse.takeWhile Text.isBlank).reverse, ?_, hblank, hblank, ?_, hends, hstop⟩
  · have hreverse : cs.reverse = cs.reverse.takeWhile Text.isBlank ++ ';' ::
        (b.takeWhile Text.isBlank ++ ((as.flatMap Attribute.text).reverse ++
          dropAttributes (b.dropWhile Text.isBlank))) := by
      rw [← hbody, hbb, ← hb, hcs]
    simpa using congrArg List.reverse hreverse
  · rw [withoutAttributes, hb]
    simp

/-- What is read as a prototype was written as one. -/
theorem Writing.exists_of_ofStatement? {cs : List Char} {p : Prototype}
    (h : Prototype.ofStatement? cs = some p) : ∃ w : Writing, w.text = cs := by
  rw [Prototype.ofStatement?, Option.filter_eq_some_iff] at h
  obtain ⟨hparts, hchecks⟩ := h
  simp only [Bool.and_eq_true, List.all_eq_true, Bool.not_eq_true',
    List.contains_eq_mem, decide_eq_false_iff_not] at hchecks
  obtain ⟨⟨hwords, hname⟩, hbalanced⟩ := hchecks
  obtain ⟨body, as, behind, tail, rfl, hbehind, htail, hwithout, hends, hstop⟩ :=
    exists_of_withoutAttributes hparts
  rw [hwithout] at hparts
  obtain ⟨head, rfl, hhead, hresult, hplain⟩ := Prototype.eq_of_parts? hends hparts
  obtain ⟨ts, name, gap, hword, hgap, rfl, hws⟩ := TypeWord.exists_of_words? hhead
  obtain ⟨hmap, hlast⟩ := List.append_inj' hws rfl
  obtain rfl := List.singleton_inj.1 hlast
  have hmatch := Balanced.of_isBalanced hbalanced
  refine ⟨⟨ts, p.name, gap, p.params, as, behind, tail, ?_, ?_, hword, ?_, ?_, hgap, hplain,
    hmatch, hbehind, htail⟩, by simp [text, Writing.head]⟩
  · rintro rfl
    exact hresult hmap
  · intro t ht hm
    obtain ⟨word, hother, hm⟩ := List.mem_map.1 hm
    refine hwords t.word (hmap ▸ List.mem_map_of_mem ht) ?_
    rwa [← hm, String.ofList_toList]
  · intro hm
    obtain ⟨word, hother, hm⟩ := List.mem_map.1 hm
    refine hname ?_
    rwa [← hm, String.ofList_toList]
  · -- A name that ends in the keyword would have been dropped with the parameters.
    rintro ⟨k, hk⟩
    refine hstop _ (ts.flatMap TypeWord.text ++ k).reverse rfl
      (Attribute.beforeGroup_group hmatch _) ?_
    rw [TypeWord.dropWhile_reverse ts hword hgap, ← hk, ← List.append_assoc, List.reverse_append]
    exact Attribute.afterPrefix?_append _ _

/-- The prototypes are the texts that the grammar writes, and each is written in a single way: its
    name is the last word before the first parenthesis, and its parameters end where this one is
    closed. -/
theorem isPrototype_iff_writing (s : String) :
    (isPrototype s ↔ ∃ w : Writing, w.text = s.toList) ∧
      Function.Injective Writing.text ∧
      ∀ w : Writing, Prototype.ofStatement? w.text = some w.parts ∧
        w.text.takeWhile (· != '(') = w.result.flatMap TypeWord.text ++ (w.name ++ w.gap) ∧
        ∀ inside, (Balanced inside ∧ ∃ rest,
          w.text.dropWhile (· != '(') = '(' :: (inside ++ ')' :: rest)) ↔ inside = w.params := by
  refine ⟨⟨fun h => ?_, ?_⟩, Writing.text_injective, fun w =>
    ⟨w.ofStatement?_text, (w.cut_head _).1, fun inside => ⟨?_, ?_⟩⟩⟩
  · obtain ⟨p, hp⟩ := Option.isSome_iff_exists.1 h
    exact Writing.exists_of_ofStatement? hp
  · rintro ⟨w, hw⟩
    rw [isPrototype, ← hw, w.ofStatement?_text]
    rfl
  · rintro ⟨hinside, rest, hrest⟩
    rw [Writing.text, (w.cut_head _).2] at hrest
    exact (hinside.append_close_inj w.balanced (List.cons.inj hrest).2.symm).1
  · rintro rfl
    exact ⟨w.balanced, _, (w.cut_head _).2⟩

end TestBench.Source
