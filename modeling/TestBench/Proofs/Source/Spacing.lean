import TestBench.Proofs.Source.Header
import TestBench.Proofs.Source.Prototype

/-!
# Prototypes and the blanks in them

Whether a statement is a prototype does not depend on how wide the gaps between its tokens are, nor
on which blanks they are made of: all that is asked of a blank is that there is one. So every part
of the matcher takes statements that differ in their gaps alone (`Respaced`) to parts that do.

* `Respaced.cut`: such statements are cut in the same places;
* `Respaced.isPrototype_eq`: both are prototypes or none is.
-/

namespace TestBench.Source

/-- Whether characters are a gap between tokens. -/
def IsGap (g : List Char) : Prop :=
  g ≠ [] ∧ ∀ c ∈ g, Header.isSpace c

/-- Whether two texts are the same but for their gaps. -/
inductive Respaced : List Char → List Char → Prop
  | nil : Respaced [] []
  | cons (c : Char) {l l' : List Char} (h : Respaced l l') : Respaced (c :: l) (c :: l')
  | gap {g g' l l' : List Char} (hg : IsGap g) (hg' : IsGap g') (h : Respaced l l') :
    Respaced (g ++ l) (g' ++ l')

/-- What is asked of a character, if it is the same for all blanks. -/
def AskedOfBlanks (p : Char → Bool) (b : Bool) : Prop :=
  ∀ c, Header.isSpace c → p c = b

/-! ### Blanks -/

/-- What holds of the five blanks holds of all blanks. -/
theorem asked_of_blanks {p : Char → Bool} {b : Bool}
    (h : [' ', '\t', '\n', '\x0c', '\r'].all (p · == b)) : AskedOfBlanks p b := by
  intro c hc
  have h := fun c hc => beq_iff_eq.1 (List.all_eq_true.1 h c hc)
  simp only [Header.isSpace, Bool.or_eq_true, beq_iff_eq] at hc
  rcases hc with (((rfl | rfl) | rfl) | rfl) | rfl <;> exact h _ (by simp)

theorem asked_isBlank : AskedOfBlanks Text.isBlank true :=
  asked_of_blanks (by decide)

theorem asked_isTypeGap : AskedOfBlanks isTypeGap true :=
  asked_of_blanks (by decide)

theorem asked_isWord : AskedOfBlanks Text.isWord false :=
  asked_of_blanks (by decide +kernel)

theorem asked_isWordStart : AskedOfBlanks Text.isWordStart false :=
  asked_of_blanks (by decide +kernel)

theorem ne_of_isSpace {c d : Char} (hc : Header.isSpace c) (hd : Header.isSpace d = false) :
    c ≠ d := by
  rintro rfl
  rw [hc] at hd
  cases hd

theorem asked_bne {d : Char} (h : Header.isSpace d = false) : AskedOfBlanks (· != d) true :=
  fun _ hc => bne_iff_ne.2 (ne_of_isSpace hc h)

namespace IsGap

variable {g : List Char} {p : Char → Bool}

theorem reverse (h : IsGap g) : IsGap g.reverse :=
  ⟨by simpa using h.1, fun c hc => h.2 c (List.mem_reverse.1 hc)⟩

theorem exists_cons (h : IsGap g) : ∃ c rest, g = c :: rest ∧ Header.isSpace c := by
  obtain ⟨c, rest, rfl⟩ := List.exists_cons_of_ne_nil h.1
  exact ⟨c, rest, rfl, h.2 c List.mem_cons_self⟩

theorem all_eq {b : Bool} (h : IsGap g) (hp : AskedOfBlanks p b) : g.all p = b := by
  obtain ⟨c, rest, rfl, hc⟩ := h.exists_cons
  cases b with
  | true => exact List.all_eq_true.2 fun d hd => hp d (h.2 d hd)
  | false => rw [List.all_cons, hp c hc, Bool.false_and]

theorem any_eq {b : Bool} (h : IsGap g) (hp : AskedOfBlanks p b) : g.any p = b := by
  obtain ⟨c, rest, rfl, hc⟩ := h.exists_cons
  cases b with
  | true => rw [List.any_cons, hp c hc, Bool.true_or]
  | false => exact List.any_eq_false.2 fun d hd => by rw [hp d (h.2 d hd)]; decide

end IsGap

/-! ### Cutting texts that differ in their gaps -/

namespace Respaced

variable {l l' : List Char} {p : Char → Bool} {b : Bool}

theorem refl (l : List Char) : Respaced l l := by
  induction l with
  | nil => exact .nil
  | cons c l ih => exact .cons c ih

theorem append {m m' : List Char} (h : Respaced l l') (hm : Respaced m m') :
    Respaced (l ++ m) (l' ++ m') := by
  induction h with
  | nil => exact hm
  | cons c _ ih => exact .cons c ih
  | gap hg hg' _ ih =>
    rw [List.append_assoc, List.append_assoc]
    exact .gap hg hg' ih

theorem reverse (h : Respaced l l') : Respaced l.reverse l'.reverse := by
  induction h with
  | nil => exact .nil
  | cons c _ ih =>
    rw [List.reverse_cons, List.reverse_cons]
    exact ih.append (.refl [c])
  | gap hg hg' _ ih =>
    have hgap := ih.append (.gap hg.reverse hg'.reverse .nil)
    rwa [List.append_nil, List.append_nil, ← List.reverse_append, ← List.reverse_append] at hgap

/-- Where one text has a character that is no blank, the other one has it too. -/
theorem exists_cons {c : Char} {m : List Char} (h : Respaced (c :: m) l')
    (hc : Header.isSpace c = false) : ∃ m', l' = c :: m' ∧ Respaced m m' := by
  generalize hl : c :: m = l at h
  cases h with
  | nil => cases hl
  | cons d h =>
    obtain ⟨rfl, rfl⟩ := List.cons.inj hl
    exact ⟨_, rfl, h⟩
  | gap hg _ _ =>
    obtain ⟨d, rest, rfl, hd⟩ := hg.exists_cons
    obtain ⟨rfl, -⟩ := List.cons.inj hl
    rw [hc] at hd
    cases hd

theorem symm (h : Respaced l l') : Respaced l' l := by
  induction h with
  | nil => exact .nil
  | cons c _ ih => exact .cons c ih
  | gap hg hg' _ ih => exact .gap hg' hg ih

theorem head?_eq_some_iff (h : Respaced l l') {c : Char} (hc : Header.isSpace c = false) :
    l.head? = some c ↔ l'.head? = some c := by
  have himp : ∀ {l l'}, Respaced l l' → l.head? = some c → l'.head? = some c := by
    intro l l' h hl
    obtain ⟨m, rfl⟩ := List.head?_eq_some_iff.1 hl
    obtain ⟨m', rfl, -⟩ := h.exists_cons hc
    rfl
  exact ⟨himp h, himp h.symm⟩

theorem isEmpty_eq (h : Respaced l l') : l.isEmpty = l'.isEmpty := by
  cases h with
  | nil | cons => rfl
  | gap hg hg' _ =>
    obtain ⟨_, _, rfl, -⟩ := hg.exists_cons
    obtain ⟨_, _, rfl, -⟩ := hg'.exists_cons
    rfl

theorem all_eq (h : Respaced l l') (hp : AskedOfBlanks p b) : l.all p = l'.all p := by
  induction h with
  | nil => rfl
  | cons c _ ih => rw [List.all_cons, List.all_cons, ih]
  | gap hg hg' _ ih => rw [List.all_append, List.all_append, hg.all_eq hp, hg'.all_eq hp, ih]

theorem any_eq (h : Respaced l l') (hp : AskedOfBlanks p b) : l.any p = l'.any p := by
  induction h with
  | nil => rfl
  | cons c _ ih => rw [List.any_cons, List.any_cons, ih]
  | gap hg hg' _ ih => rw [List.any_append, List.any_append, hg.any_eq hp, hg'.any_eq hp, ih]

/-- The two texts are cut in the same place. -/
theorem cut (h : Respaced l l') (hp : AskedOfBlanks p b) :
    Respaced (l.takeWhile p) (l'.takeWhile p) ∧ Respaced (l.dropWhile p) (l'.dropWhile p) := by
  induction h with
  | nil => exact ⟨.nil, .nil⟩
  | @cons c l l' h ih =>
    rw [List.takeWhile_cons, List.takeWhile_cons, List.dropWhile_cons, List.dropWhile_cons]
    split
    · exact ⟨.cons c ih.1, ih.2⟩
    · exact ⟨.nil, .cons c h⟩
  | @gap g g' l l' hg hg' h ih =>
    cases b with
    | true =>
      have hall : ∀ {g}, IsGap g → ∀ c ∈ g, p c = true := fun hg c hc => hp c (hg.2 c hc)
      rw [List.takeWhile_append_of_pos (hall hg), List.takeWhile_append_of_pos (hall hg'),
        List.dropWhile_append_of_pos (hall hg), List.dropWhile_append_of_pos (hall hg')]
      exact ⟨.gap hg hg' ih.1, ih.2⟩
    | false =>
      obtain ⟨c, rest, rfl, hc⟩ := hg.exists_cons
      obtain ⟨c', rest', rfl, hc'⟩ := hg'.exists_cons
      have hstop : ∀ {c}, Header.isSpace c → ∀ m, (c :: m).takeWhile p = [] ∧
          (c :: m).dropWhile p = c :: m := by
        intro c hc m
        simp [hp c hc]
      rw [List.cons_append, List.cons_append, (hstop hc _).1, (hstop hc' _).1, (hstop hc _).2,
        (hstop hc' _).2]
      exact ⟨.nil, .gap hg hg' h⟩

/-- What has no gap in it is the same in both. -/
theorem takeWhile_eq (h : Respaced l l') (hp : AskedOfBlanks p false) :
    l.takeWhile p = l'.takeWhile p := by
  induction h with
  | nil => rfl
  | cons c _ ih => rw [List.takeWhile_cons, List.takeWhile_cons, ih]
  | gap hg hg' _ _ =>
    obtain ⟨c, rest, rfl, hc⟩ := hg.exists_cons
    obtain ⟨c', rest', rfl, hc'⟩ := hg'.exists_cons
    simp [hp c hc, hp c' hc']

/-! ### Attributes -/

theorem beforeGroup_gap {g : List Char} (hg : IsGap g) (depth : Nat) (cs : List Char) :
    beforeGroup depth (g ++ cs) = beforeGroup depth cs := by
  have hall := hg.2
  clear hg
  induction g with
  | nil => rfl
  | cons c g ih =>
    rw [List.forall_mem_cons] at hall
    rw [List.cons_append, beforeGroup_plain (ne_of_isSpace hall.1 (by decide))
      (ne_of_isSpace hall.1 (by decide)), ih hall.2]

theorem beforeGroup (h : Respaced l l') (depth : Nat) :
    Option.Rel Respaced (Source.beforeGroup depth l) (Source.beforeGroup depth l') := by
  induction h generalizing depth with
  | nil =>
    rw [Source.beforeGroup]
    exact .none
  | cons c h ih =>
    by_cases hc : c = ')'
    · subst hc
      rw [Source.beforeGroup, Source.beforeGroup]
      exact ih _
    by_cases ho : c = '('
    · subst ho
      match depth with
      | 0 => exact ih 0
      | 1 => exact .some h
      | depth + 2 => exact ih (depth + 1)
    · rw [beforeGroup_plain ho hc, beforeGroup_plain ho hc]
      exact ih depth
  | gap hg hg' _ ih =>
    rw [beforeGroup_gap hg, beforeGroup_gap hg']
    exact ih depth

theorem afterPrefix? {ps : List Char} (hps : ∀ c ∈ ps, Header.isSpace c = false)
    (h : Respaced l l') :
    Option.Rel Respaced (Source.afterPrefix? ps l) (Source.afterPrefix? ps l') := by
  induction ps generalizing l l' with
  | nil => exact .some h
  | cons c ps ih =>
    rw [List.forall_mem_cons] at hps
    cases h with
    | nil => exact .none
    | cons d h =>
      rw [Source.afterPrefix?, Source.afterPrefix?]
      split
      · exact ih hps.2 h
      · exact .none
    | gap hg hg' _ =>
      have hnone : ∀ {g} (m : List Char), IsGap g →
          Source.afterPrefix? (c :: ps) (g ++ m) = none := by
        intro g m hg
        obtain ⟨d, rest, rfl, hd⟩ := hg.exists_cons
        have hne : (c == d) = false := beq_eq_false_iff_ne.2 (ne_of_isSpace hd hps.1).symm
        rw [List.cons_append, Source.afterPrefix?, hne]
        rfl
      rw [hnone _ hg, hnone _ hg']
      exact .none

theorem attributeKeyword_noSpace : ∀ c ∈ attributeKeyword, Header.isSpace c = false := by
  have h : attributeKeyword.all (Header.isSpace · == false) := by decide
  exact fun c hc => beq_iff_eq.1 (List.all_eq_true.1 h c hc)

/-- Where one text ends in an attribute, the other one does. -/
theorem exists_group (h : Respaced l l') {before rest : List Char}
    (hb : l.head? = some ')') (hg : Source.beforeGroup 0 l = some before)
    (ha : Source.afterPrefix? attributeKeyword (before.dropWhile Text.isBlank) = some rest) :
    ∃ before' rest', l'.head? = some ')' ∧ Source.beforeGroup 0 l' = some before' ∧
      Source.afterPrefix? attributeKeyword (before'.dropWhile Text.isBlank) = some rest' ∧
      Respaced rest rest' := by
  have hgroup := h.beforeGroup 0
  rw [hg] at hgroup
  cases hg' : Source.beforeGroup 0 l' with
  | none =>
    rw [hg'] at hgroup
    cases hgroup
  | some before' =>
    rw [hg'] at hgroup
    obtain ⟨hbefore⟩ := hgroup
    have hkeyword := (hbefore.cut asked_isBlank).2.afterPrefix? attributeKeyword_noSpace
    rw [ha] at hkeyword
    cases ha' : Source.afterPrefix? attributeKeyword (before'.dropWhile Text.isBlank) with
    | none =>
      rw [ha'] at hkeyword
      cases hkeyword
    | some rest' =>
      rw [ha'] at hkeyword
      obtain ⟨hrest⟩ := hkeyword
      exact ⟨before', rest', (h.head?_eq_some_iff (by decide)).1 hb, rfl, ha', hrest⟩

theorem dropAttributes (h : Respaced l l') :
    Respaced (Source.dropAttributes l) (Source.dropAttributes l') := by
  induction hn : l.length using Nat.strongRecOn generalizing l l' with
  | _ n ih =>
  by_cases hgroup : ∃ before rest, l.head? = some ')' ∧ Source.beforeGroup 0 l = some before ∧
      Source.afterPrefix? attributeKeyword (before.dropWhile Text.isBlank) = some rest
  · obtain ⟨before, rest, hb, hg, ha⟩ := hgroup
    obtain ⟨before', rest', hb', hg', ha', hrest⟩ := h.exists_group hb hg ha
    rw [dropAttributes_group hb hg ha, dropAttributes_group hb' hg' ha']
    -- What is left is shorter, as a group was dropped.
    have hbefore := length_beforeGroup_lt hg
    have hkeyword := length_afterPrefix?_le ha
    have hblanks := (List.dropWhile_sublist Text.isBlank (l := before)).length_le
    have hblanks' := (List.dropWhile_sublist Text.isBlank (l := rest)).length_le
    exact ih _ (by omega) (hrest.cut asked_isBlank).2 rfl
  · rw [dropAttributes_noGroup fun before rest hb hg ha => hgroup ⟨before, rest, hb, hg, ha⟩,
      dropAttributes_noGroup fun before rest hb hg ha => by
        obtain ⟨before', rest', hb', hg', ha', -⟩ := h.symm.exists_group hb hg ha
        exact hgroup ⟨before', rest', hb', hg', ha'⟩]
    exact h

theorem withoutAttributes (h : Respaced l l') :
    Respaced (Source.withoutAttributes l) (Source.withoutAttributes l') := by
  have hend := (h.reverse.cut asked_isBlank).2
  rw [Source.withoutAttributes, Source.withoutAttributes]
  by_cases hsemi : (l.reverse.dropWhile Text.isBlank).head? = some ';'
  · obtain ⟨body, hbody⟩ := List.head?_eq_some_iff.1 hsemi
    rw [hbody] at hend ⊢
    obtain ⟨body', hbody', hrest⟩ := hend.exists_cons (by decide)
    rw [hbody']
    exact (hrest.cut asked_isBlank).2.dropAttributes.cons ';' |>.reverse
  · have hsemi' := mt (hend.head?_eq_some_iff (c := ';') (by decide)).2 hsemi
    split
    · simp_all
    · split
      · simp_all
      · exact h

/-! ### The form of a prototype -/

/-- Both texts start with the same word, or neither does with one. -/
theorem word? (h : Respaced l l') :
    Option.Rel (fun w w' => w.1 = w'.1 ∧ Respaced w.2 w'.2) (Source.word? l) (Source.word? l') := by
  cases h with
  | nil => exact .none
  | @cons c l l' h =>
    rw [Source.word?, Source.word?]
    split
    · exact .some ⟨by rw [h.takeWhile_eq asked_isWord], (h.cut asked_isWord).2⟩
    · exact .none
  | gap hg hg' _ =>
    have hnone : ∀ {g} (m : List Char), IsGap g → Source.word? (g ++ m) = none := by
      intro g m hg
      obtain ⟨c, rest, rfl, hc⟩ := hg.exists_cons
      rw [List.cons_append, Source.word?, asked_isWordStart c hc]
      rfl
    rw [hnone _ hg, hnone _ hg']
    exact .none

theorem words?_eq (h : Respaced l l') : words? l = words? l' := by
  induction hn : l.length using Nat.strongRecOn generalizing l l' with
  | _ n ih =>
  have hword := h.word?
  cases hw : Source.word? l with
  | none =>
    rw [hw] at hword
    cases hw' : Source.word? l' with
    | none => rw [words?_of_none hw, words?_of_none hw']
    | some w' =>
      rw [hw'] at hword
      cases hword
  | some w =>
    rw [hw] at hword
    cases hw' : Source.word? l' with
    | none =>
      rw [hw'] at hword
      cases hword
    | some w' =>
      rw [hw'] at hword
      obtain ⟨hfirst, hrest⟩ := hword
      obtain ⟨w, rest⟩ := w
      obtain ⟨w', rest'⟩ := w'
      obtain rfl : w = w' := hfirst
      have hrest : Respaced rest rest' := hrest
      have hgap := hrest.cut asked_isTypeGap
      have hlt := length_word?_lt hw
      have hle := (List.dropWhile_sublist isTypeGap (l := rest)).length_le
      rw [words?_of_some hw, words?_of_some hw', hrest.all_eq asked_isBlank, hgap.1.isEmpty_eq,
        ih _ (by omega) hgap.2 rfl]

/-- Both texts are parameters, or neither is. -/
theorem params? (h : Respaced l l') :
    Option.Rel Respaced (Source.params? l) (Source.params? l') := by
  have hreverse := h.reverse
  rw [Source.params?, Source.params?]
  by_cases hsemi : l.reverse.head? = some ';'
  · obtain ⟨rest, hrest⟩ := List.head?_eq_some_iff.1 hsemi
    rw [hrest] at hreverse ⊢
    obtain ⟨rest', hrest', hbefore⟩ := hreverse.exists_cons (by decide)
    rw [hrest']
    simp only
    have hend := (hbefore.cut asked_isBlank).2
    by_cases hparen : (rest.dropWhile Text.isBlank).head? = some ')'
    · obtain ⟨params, hparams⟩ := List.head?_eq_some_iff.1 hparen
      rw [hparams] at hend ⊢
      obtain ⟨params', hparams', hinside⟩ := hend.exists_cons (by decide)
      rw [hparams']
      have hmarks : AskedOfBlanks (fun c => c == ';' || c == '{' || c == '}') false :=
        asked_of_blanks (by decide)
      simp only [hinside.any_eq hmarks]
      split
      · exact .none
      · exact .some hinside.reverse
    · have hparen' := mt (hend.head?_eq_some_iff (c := ')') (by decide)).2 hparen
      split
      · simp_all
      · split
        · simp_all
        · exact .none
  · have hsemi' := mt (hreverse.head?_eq_some_iff (c := ';') (by decide)).2 hsemi
    split
    · simp_all
    · split
      · simp_all
      · exact .none

theorem isBalanced_gap {g : List Char} (hg : IsGap g) (depth : Nat) (cs : List Char) :
    isBalanced depth (g ++ cs) = isBalanced depth cs := by
  have hall := hg.2
  clear hg
  induction g with
  | nil => rfl
  | cons c g ih =>
    rw [List.forall_mem_cons] at hall
    rw [List.cons_append, isBalanced_plain (ne_of_isSpace hall.1 (by decide))
      (ne_of_isSpace hall.1 (by decide)), ih hall.2]

theorem isBalanced_eq (h : Respaced l l') (depth : Nat) :
    isBalanced depth l = isBalanced depth l' := by
  induction h generalizing depth with
  | nil => rfl
  | cons c _ ih =>
    by_cases ho : c = '('
    · subst ho
      rw [isBalanced, isBalanced, ih]
    by_cases hc : c = ')'
    · subst hc
      cases depth with
      | zero => rfl
      | succ depth => exact ih depth
    · rw [isBalanced_plain ho hc, isBalanced_plain ho hc, ih]
  | gap hg hg' _ ih => rw [isBalanced_gap hg, isBalanced_gap hg', ih]

/-- Two statements that differ in their gaps have the form of the same prototype, but for the gaps
    in its parameters, or neither has the form of one. -/
theorem parts? (h : Respaced l l') :
    Option.Rel (fun p p' => p.result = p'.result ∧ p.name = p'.name ∧ Respaced p.params p'.params)
      (Prototype.parts? l) (Prototype.parts? l') := by
  have hcut := h.cut (asked_bne (d := '(') (by decide))
  rw [Prototype.parts?, Prototype.parts?]
  by_cases hopen : (l.dropWhile (· != '(')).head? = some '('
  · obtain ⟨tail, htail⟩ := List.head?_eq_some_iff.1 hopen
    rw [htail] at hcut ⊢
    obtain ⟨tail', htail', hrest⟩ := hcut.2.exists_cons (by decide)
    rw [htail', ← hcut.1.words?_eq]
    simp only
    cases words? (l.takeWhile (· != '(')) with
    | none => exact .none
    | some ws =>
      have hparams := hrest.params?
      generalize Source.params? tail = params at hparams
      generalize Source.params? tail' = params' at hparams
      cases hparams with
      | none => exact .none
      | some hparams =>
        simp only
        cases ws.getLast? with
        | none => exact .none
        | some name =>
          simp only
          split
          · exact .none
          · exact .some ⟨rfl, rfl, hparams⟩
  · -- The rest of the statement starts with a parenthesis unless it is empty.
    have hnil : ∀ l : List Char, (l.dropWhile (· != '(')).head? ≠ some '(' →
        l.dropWhile (· != '(') = [] := by
      intro l hl
      cases hd : l.dropWhile (· != '(') with
      | nil => rfl
      | cons c m =>
        have hc := List.head?_dropWhile_not (· != '(') l
        rw [hd] at hl hc
        simp_all
    have hopen' := mt (hcut.2.head?_eq_some_iff (c := '(') (by decide)).2 hopen
    rw [hnil l hopen, hnil l' hopen']
    exact .none

/-- Both statements are prototypes, or neither is. -/
theorem isPrototype_eq (h : Respaced l l') :
    isPrototype (String.ofList l) = isPrototype (String.ofList l') := by
  have hparts := h.withoutAttributes.parts?
  rw [isPrototype, isPrototype, String.toList_ofList, String.toList_ofList, Prototype.ofStatement?,
    Prototype.ofStatement?]
  generalize Prototype.parts? (Source.withoutAttributes l) = parts at hparts
  generalize Prototype.parts? (Source.withoutAttributes l') = parts' at hparts
  cases hparts with
  | none => rfl
  | some hp =>
    obtain ⟨hresult, hname, hparams⟩ := hp
    rw [Option.isSome_filter, Option.isSome_filter]
    simp only [Option.any_some, hresult, hname, hparams.isBalanced_eq]

end Respaced

end TestBench.Source
