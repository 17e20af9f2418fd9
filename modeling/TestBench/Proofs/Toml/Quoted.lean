import TestBench.Toml.Token

/-!
# What stands between double quotes

A text between double quotes consists of characters that stand for themselves and of escapes
(`Written`). It goes on as long as it is written like that, whatever follows its closing quote, and
so it can be put together from such texts.

* `readBasic_eq_some_iff`: what is read up to a double quote;
* `endsAtQuote_around`, `Written.eq_around`: a text without quotes and backslashes does not end the
  text that it is put into, and stands for itself in it;
* `tokens_quoted`: such a text between double quotes is one token.
-/

namespace TestBench.Toml

variable {cs rest u v w x z : List Char}

/-- Whether a text between double quotes is read as another one. -/
inductive Written : List Char → List Char → Prop
  | nil : Written [] []
  | char {c : Char} {x z : List Char} (hquote : c ≠ '"') (hbackslash : c ≠ '\\')
      (hcontrol : isControl c = false) (h : Written x z) : Written (c :: x) (c :: z)
  | escape {e : List Char} {c : Char} {x z : List Char}
      (hescape : ∀ rest, escape? (e ++ rest) = some (c, rest)) (h : Written x z) :
      Written ('\\' :: e ++ x) (c :: z)

/-! ### Reading -/

theorem exists_of_hexEscape? {n digits : Nat} {c : Char}
    (h : hexEscape? n digits cs = some (c, rest)) :
    ∃ e, cs = e ++ rest ∧ ∀ rest, hexEscape? n digits (e ++ rest) = some (c, rest) := by
  induction digits generalizing n cs with
  | zero =>
    rw [hexEscape?] at h
    obtain ⟨c', hc, heq⟩ := Option.map_eq_some_iff.1 h
    obtain ⟨rfl, rfl⟩ := Prod.mk.inj heq
    refine ⟨[], rfl, fun rest => ?_⟩
    rw [hexEscape?, hc]
    rfl
  | succ digits ih =>
    cases cs with
    | nil => cases h
    | cons d cs =>
      rw [hexEscape?] at h
      split at h
      next value hvalue =>
        obtain ⟨e, rfl, he⟩ := ih h
        refine ⟨d :: e, rfl, fun rest => ?_⟩
        rw [List.cons_append, hexEscape?, hvalue]
        exact he rest
      next => cases h

/-- An escape does not depend on what follows it. -/
theorem exists_of_escape? {c : Char} (h : escape? cs = some (c, rest)) :
    ∃ e, cs = e ++ rest ∧ ∀ rest, escape? (e ++ rest) = some (c, rest) := by
  have hhex : ∀ (letter : Char) (digits : Nat) {tail : List Char},
      (∀ tail, escape? (letter :: tail) = hexEscape? 0 digits tail) →
      hexEscape? 0 digits tail = some (c, rest) →
      ∃ e, letter :: tail = e ++ rest ∧ ∀ rest, escape? (e ++ rest) = some (c, rest) := by
    intro letter digits tail hletter htail
    obtain ⟨e, rfl, he⟩ := exists_of_hexEscape? htail
    exact ⟨letter :: e, rfl, fun rest => (hletter _).trans (he rest)⟩
  unfold escape? at h
  split at h
  case h_9 => exact hhex 'x' 2 (fun _ => rfl) h
  case h_10 => exact hhex 'u' 4 (fun _ => rfl) h
  case h_11 => exact hhex 'U' 8 (fun _ => rfl) h
  case h_12 => cases h
  all_goals
    obtain ⟨rfl, rfl⟩ := Prod.mk.inj (Option.some.inj h)
    exact ⟨[_], rfl, fun _ => rfl⟩

/-- What is written comes in front of what is read behind it. -/
theorem Written.readBasic_append (h : Written x z) (cs : List Char) :
    readBasic (x ++ cs) = (readBasic cs).map fun r => (z ++ r.1, r.2) := by
  induction h with
  | nil => simp
  | char hquote hbackslash hcontrol _ ih =>
    rw [List.cons_append, readBasic.eq_4 _ _ hquote hbackslash, hcontrol, ih]
    simp [Function.comp_def]
  | @escape e c x z hescape _ ih =>
    rw [List.append_assoc, List.cons_append, readBasic]
    split
    next found rest hfound =>
      obtain ⟨rfl, rfl⟩ := Prod.mk.inj (Option.some.inj (hfound.symm.trans (hescape _)))
      rw [ih]
      simp [Function.comp_def]
    next hnone =>
      rw [hescape] at hnone
      cases hnone

theorem readBasic_eq_some_iff :
    readBasic cs = some (z, rest) ↔ ∃ x, cs = x ++ '"' :: rest ∧ Written x z := by
  constructor
  · intro h
    fun_induction readBasic cs generalizing z rest with
    | case1 => cases h
    | case2 =>
      obtain ⟨rfl, rfl⟩ := Prod.mk.inj (Option.some.inj h)
      exact ⟨[], rfl, .nil⟩
    | case3 cs c rest' hescape ih =>
      obtain ⟨⟨z', r⟩, hr, heq⟩ := Option.map_eq_some_iff.1 h
      obtain ⟨rfl, rfl⟩ := Prod.mk.inj heq
      obtain ⟨e, rfl, he⟩ := exists_of_escape? hescape
      obtain ⟨x, rfl, hx⟩ := ih hr
      exact ⟨'\\' :: e ++ x, by simp, hx.escape he⟩
    | case4 => cases h
    | case5 => cases h
    | case6 c cs hquote hbackslash hcontrol ih =>
      obtain ⟨⟨z', r⟩, hr, heq⟩ := Option.map_eq_some_iff.1 h
      obtain ⟨rfl, rfl⟩ := Prod.mk.inj heq
      obtain ⟨x, rfl, hx⟩ := ih hr
      exact ⟨c :: x, rfl, hx.char hquote hbackslash (by simpa using hcontrol)⟩
  · rintro ⟨x, rfl, hx⟩
    rw [hx.readBasic_append, readBasic]
    simp

theorem Written.readBasic_eq (h : Written x z) (rest : List Char) :
    readBasic (x ++ '"' :: rest) = some (z, rest) :=
  readBasic_eq_some_iff.2 ⟨x, rfl, h⟩

/-- A text is read in one way. -/
theorem Written.unique {z' : List Char} (h : Written x z) (h' : Written x z') : z = z' := by
  have heq := (h.readBasic_eq []).symm.trans (h'.readBasic_eq [])
  exact (Prod.mk.inj (Option.some.inj heq)).1

/-! ### Putting together -/

theorem Written.append {z' : List Char} (h : Written x z) (h' : Written w z') :
    Written (x ++ w) (z ++ z') := by
  induction h with
  | nil => exact h'
  | char hquote hbackslash hcontrol _ ih => exact ih.char hquote hbackslash hcontrol
  | escape hescape _ ih =>
    rw [List.append_assoc]
    exact ih.escape hescape

/-- A text without quotes, backslashes and control characters stands for itself. -/
theorem written_self (h : ∀ c ∈ v, c ≠ '"' ∧ c ≠ '\\' ∧ isControl c = false) : Written v v := by
  induction v with
  | nil => exact .nil
  | cons c v ih =>
    rw [List.forall_mem_cons] at h
    exact (ih h.2).char h.1.1 h.1.2.1 h.1.2.2

/-- There is no control character where anything is read. -/
theorem isControl_of_readBasic (hquote : '"' ∉ v) (hbackslash : '\\' ∉ v)
    (h : (readBasic (v ++ cs)).isSome) : ∀ c ∈ v, isControl c = false := by
  induction v with
  | nil => exact List.forall_mem_nil _
  | cons c v ih =>
    rw [List.mem_cons, not_or] at hquote hbackslash
    rw [List.cons_append, readBasic.eq_4 _ _ (Ne.symm hquote.1) (Ne.symm hbackslash.1)] at h
    split at h
    · cases h
    next hcontrol =>
      rw [Option.isSome_map] at h
      exact List.forall_mem_cons.2 ⟨by simpa using hcontrol, ih hquote.2 hbackslash.2 h⟩

/-- Whether a text behind a double quote is read up to the quote behind it, if anything is read. -/
def EndsAtQuote (cs rest : List Char) : Prop :=
  ∀ z r, readBasic (cs ++ '"' :: rest) = some (z, r) → r = rest

theorem exists_written (h : EndsAtQuote cs rest) {r : List Char}
    (hr : readBasic (cs ++ '"' :: rest) = some (z, r)) : Written cs z := by
  obtain rfl := h z r hr
  obtain ⟨x, heq, hx⟩ := readBasic_eq_some_iff.1 hr
  rwa [List.append_cancel_right heq]

theorem Written.endsAtQuote (h : Written x z) : EndsAtQuote x rest := by
  intro z' r hr
  exact (Prod.mk.inj (Option.some.inj (hr.symm.trans (h.readBasic_eq rest)))).2

/-- A text without quotes and backslashes stands for itself between two others, if anything is read
    behind them. -/
theorem written_around {u' w' : List Char} (hu : Written u u') (hw : Written w w')
    (hquote : '"' ∉ v) (hbackslash : '\\' ∉ v) (h : (readBasic (u ++ v ++ w ++ cs)).isSome) :
    Written (u ++ v ++ w) (u' ++ v ++ w') := by
  have hread : (readBasic (v ++ (w ++ cs))).isSome := by
    rw [List.append_assoc, List.append_assoc, hu.readBasic_append, Option.isSome_map] at h
    exact h
  have hcontrol := isControl_of_readBasic hquote hbackslash hread
  have hv : Written v v := written_self fun c hc =>
    ⟨fun h => hquote (h ▸ hc), fun h => hbackslash (h ▸ hc), hcontrol c hc⟩
  exact (hu.append hv).append hw

/-- So it does not end a text that it is put into. -/
theorem endsAtQuote_around {u' w' : List Char} (hu : Written u u') (hw : Written w w')
    (hquote : '"' ∉ v) (hbackslash : '\\' ∉ v) (rest : List Char) :
    EndsAtQuote (u ++ v ++ w) rest := by
  intro z r h
  exact (written_around hu hw hquote hbackslash (Option.isSome_of_eq_some h)).endsAtQuote z r h

/-- And it is read as it stands. -/
theorem Written.eq_around {u' w' : List Char} (h : Written (u ++ v ++ w) z) (hu : Written u u')
    (hw : Written w w') (hquote : '"' ∉ v) (hbackslash : '\\' ∉ v) : z = u' ++ v ++ w' :=
  h.unique (written_around hu hw hquote hbackslash
    (Option.isSome_of_eq_some (h.readBasic_eq [])))

/-! ### Tokens -/

/-- What stands behind a double quote is read up to the next one, unless two more quotes open a text
    on several lines. -/
theorem tokens_quote (hrest : rest.head? ≠ some '"') (hends : EndsAtQuote cs rest) :
    tokens ('"' :: (cs ++ '"' :: rest)) = (readBasic (cs ++ '"' :: rest)).bind fun r =>
      (tokens r.2).map (.quoted r.1 :: ·) := by
  rw [tokens.eq_16]
  · split
    next hfound => rw [hfound, Option.bind_some]
    next hnone => rw [hnone, Option.bind_none]
  · intro tail htail
    cases cs with
    | nil =>
      refine hrest ?_
      rw [(List.cons.inj htail).2]
      rfl
    | cons c cs =>
      -- Nothing would be between the quotes, and more than `rest` behind them.
      have hread := hends [] (cs ++ '"' :: rest) (by
        rw [List.cons_append, (List.cons.inj htail).1, readBasic])
      have hlength := congrArg List.length hread
      simp only [List.length_append, List.length_cons] at hlength
      omega

/-- A text between double quotes is one token. -/
theorem tokens_quoted (h : Written x z) (hrest : rest.head? ≠ some '"') :
    tokens ('"' :: (x ++ '"' :: rest)) = (tokens rest).map (.quoted z :: ·) := by
  rw [tokens_quote hrest h.endsAtQuote, h.readBasic_eq]
  rfl

/-- If there are tokens, a text that does not end before the quote behind it is written like one
    between quotes. -/
theorem exists_written_of_tokens (h : (tokens ('"' :: (cs ++ '"' :: rest))).isSome)
    (hrest : rest.head? ≠ some '"') (hends : EndsAtQuote cs rest) : ∃ z, Written cs z := by
  rw [tokens_quote hrest hends] at h
  cases hread : readBasic (cs ++ '"' :: rest) with
  | some found => exact ⟨found.1, exists_written hends hread⟩
  | none =>
    rw [hread] at h
    cases h

end TestBench.Toml
