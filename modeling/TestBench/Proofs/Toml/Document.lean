import TestBench.Proofs.Toml.Pair

/-!
# Where a configuration gives a text

A configuration gives a text for a path (`TextAt`) if the text stands between double quotes in the
value of the key that the path names, below the last header before it. Then the text cannot change
anything else: if the configuration is read with one text and with another one there, the tables
differ in the values at the path only.

* `Draft.DifferAt.readAll`: the lines behind the text add the same to both;
* `read_differAt`: what is read with one text and with another one.
-/

namespace TestBench.Toml

variable {a b v v' : Value} {t t' : Table} {d d' e e' : Draft} {lines : List (List Tree)}
  {line : List Tree} {path inner : List String} {key : String}

/-! ### Lines -/

/-- A configuration after some more lines. -/
def Draft.readAll (d : Draft) (lines : List (List Tree)) : Option Draft :=
  lines.foldlM (fun d line => (statementOf line).bind d.add) d

theorem Draft.readAll_cons :
    d.readAll (line :: lines) = ((statementOf line).bind d.add).bind (Draft.readAll · lines) := by
  rw [readAll, List.foldlM_cons]
  rfl

theorem Draft.readAll_append {lines' : List (List Tree)} :
    d.readAll (lines ++ lines') = (d.readAll lines).bind (Draft.readAll · lines') := by
  rw [readAll, List.foldlM_append]
  rfl

theorem readLines_eq_ok_iff {number : Nat} :
    readLines number d lines = .ok t ↔ ∃ d', d.readAll lines = some d' ∧ d'.table = t := by
  induction lines generalizing number d with
  | nil => simp [readLines, Draft.readAll]
  | cons line lines ih =>
    rw [readLines, Draft.readAll_cons]
    cases statementOf line with
    | none => simp
    | some statement =>
      simp only [Option.bind_some]
      cases d.add statement with
      | none => simp
      | some d => exact ih

/-- The path of the last header after a line. -/
def headerAfter (current : List String) (line : List Tree) : List String :=
  match statementOf line with
  | some (.header path key) => path ++ [key]
  | some (.nextHeader path key) => path ++ [key]
  | _ => current

theorem Draft.current_add {statement : Statement} (h : statementOf line = some statement)
    (hd : d.add statement = some d') : d'.current = headerAfter d.current line := by
  rw [headerAfter, h]
  cases statement with
  | header path key =>
    obtain ⟨t, -, rfl⟩ := Option.map_eq_some_iff.1 hd
    rfl
  | nextHeader path key =>
    obtain ⟨t, -, rfl⟩ := Option.map_eq_some_iff.1 hd
    rfl
  | pair path key value =>
    rw [add] at hd
    split at hd
    next hempty =>
      obtain ⟨t, -, rfl⟩ := Option.map_eq_some_iff.1 hd
      exact (List.isEmpty_iff.1 hempty).symm
    next =>
      obtain ⟨t, -, rfl⟩ := Option.map_eq_some_iff.1 hd
      rfl

theorem Draft.current_readAll (h : d.readAll lines = some d') :
    d'.current = lines.foldl headerAfter d.current := by
  induction lines generalizing d with
  | nil =>
    cases h
    rfl
  | cons line lines ih =>
    rw [readAll_cons] at h
    obtain ⟨e, he, h⟩ := Option.bind_eq_some_iff.1 h
    obtain ⟨statement, hstatement, hadd⟩ := Option.bind_eq_some_iff.1 he
    rw [ih h, current_add hstatement hadd]
    rfl

/-! ### Configurations that differ in one value -/

/-- Whether two configurations, as far as they are read, are the same but for one value. -/
structure Draft.DifferAt (a b : Value) (path : List String) (d d' : Draft) : Prop where
  current : d.current = d'.current
  table : Table.DifferAt a b path d.table d'.table

/-- What a statement adds leaves the difference as it is. -/
theorem Draft.DifferAt.add (ha : a.isTable = false) {statement : Statement}
    (h : Draft.DifferAt a b path d d') (he : d.add statement = some e)
    (he' : d'.add statement = some e') : Draft.DifferAt a b path e e' := by
  obtain ⟨hcurrent, htable⟩ := h
  cases statement with
  | header path key =>
    obtain ⟨t, ht, rfl⟩ := Option.map_eq_some_iff.1 he
    obtain ⟨t', ht', rfl⟩ := Option.map_eq_some_iff.1 he'
    exact ⟨rfl, Table.keeps_openTable ha htable ht ht'⟩
  | nextHeader path key =>
    obtain ⟨t, ht, rfl⟩ := Option.map_eq_some_iff.1 he
    obtain ⟨t', ht', rfl⟩ := Option.map_eq_some_iff.1 he'
    exact ⟨rfl, Table.keeps_openNext ha htable ht ht'⟩
  | pair path key value =>
    rw [Draft.add] at he he'
    rw [← hcurrent] at he'
    split at he
    next hempty =>
      rw [if_pos hempty] at he'
      obtain ⟨t, ht, rfl⟩ := Option.map_eq_some_iff.1 he
      obtain ⟨t', ht', rfl⟩ := Option.map_eq_some_iff.1 he'
      exact ⟨rfl, Table.keeps_assign ha htable ht ht'⟩
    next hne =>
      rw [if_neg hne] at he'
      obtain ⟨t, ht, rfl⟩ := Option.map_eq_some_iff.1 he
      obtain ⟨t', ht', rfl⟩ := Option.map_eq_some_iff.1 he'
      exact ⟨rfl, Table.keeps_assignBelow ha htable ht ht'⟩

/-- And so does what some lines add. -/
theorem Draft.DifferAt.readAll (ha : a.isTable = false) (h : Draft.DifferAt a b path d d')
    (he : d.readAll lines = some e) (he' : d'.readAll lines = some e') :
    Draft.DifferAt a b path e e' := by
  induction lines generalizing d d' with
  | nil =>
    cases he
    cases he'
    exact h
  | cons line lines ih =>
    rw [readAll_cons] at he he'
    obtain ⟨f, hf, he⟩ := Option.bind_eq_some_iff.1 he
    obtain ⟨f', hf', he'⟩ := Option.bind_eq_some_iff.1 he'
    obtain ⟨statement, hstatement, hadd⟩ := Option.bind_eq_some_iff.1 hf
    rw [hstatement] at hf'
    exact ih (h.add ha hadd hf') he he'

/-- Two values that are given for the same key make a difference. -/
theorem Draft.differAt_add (h : Value.DifferAt a b inner v v')
    (he : d.add (.pair path key v) = some e) (he' : d.add (.pair path key v') = some e') :
    Draft.DifferAt a b (d.current ++ (path ++ key :: inner)) e e' := by
  rw [add] at he he'
  split at he
  next hempty =>
    rw [if_pos hempty] at he'
    obtain ⟨t, ht, rfl⟩ := Option.map_eq_some_iff.1 he
    obtain ⟨t', ht', rfl⟩ := Option.map_eq_some_iff.1 he'
    rw [List.isEmpty_iff.1 hempty]
    exact ⟨rfl, Table.differAt_assign h ht ht'⟩
  next hne =>
    rw [if_neg hne] at he'
    obtain ⟨t, ht, rfl⟩ := Option.map_eq_some_iff.1 he
    obtain ⟨t', ht', rfl⟩ := Option.map_eq_some_iff.1 he'
    exact ⟨rfl, Table.differAt_assignBelow h ht ht'⟩

/-! ### Texts in a configuration -/

/-- Where a configuration gives a text for a path: between the quotes that `pre` and `post` leave
    open, in the value of the key that the path names. Whatever the text is, the value at the path
    is what `leaf` makes of it. -/
inductive TextAt (leaf : List Char → Tree) : List String → List Char → List Char → Prop
  | intro {pre post : List Char} {ts ts' : List Token} {before after : List (List Tree)}
      {line : List Char → List Tree} {path : List String}
      (hpre : ∀ rest, tokens (skipMark pre ++ rest) = (tokens rest).map (ts ++ ·))
      (hpost : tokens post = some ts') (hquote : post.head? ≠ some '"')
      (hlines : ∀ x, (gather (ts ++ .quoted x :: ts')).map linesOf =
        some (before ++ line x :: after))
      (hline : PairAt leaf path line) :
      TextAt leaf (before.foldl headerAfter [] ++ path) pre post

theorem skipMark_append_quote (pre rest : List Char) :
    skipMark (pre ++ '"' :: rest) = skipMark pre ++ '"' :: rest := by
  cases pre with
  | nil => rfl
  | cons c pre =>
    rw [List.cons_append, skipMark, skipMark]
    split <;> rfl

theorem read_eq_ok_iff {text : String} : read text = .ok t ↔
    ∃ ts trees, tokens (skipMark text.toList) = some ts ∧ gather ts = some trees ∧
      readLines 0 ⟨[], []⟩ (linesOf trees) = .ok t := by
  rw [read]
  cases htokens : tokens (skipMark text.toList) with
  | none => simp
  | some ts => cases hgather : gather ts <;> simp [hgather]

/-- A line with an equals sign is a pair. -/
theorem statementOf_of_mem (h : .leaf .equals ∈ line) : statementOf line =
    ((itemsOf line).bind pairOf).map fun (path, key, value) => .pair path key value := by
  refine statementOf.eq_3 line ?_ ?_
  all_goals
    rintro inside rfl
    simp at h

theorem mem_of_pairAt {leaf : List Char → Tree} {line : List Char → List Tree}
    (h : PairAt leaf path line) (x : List Char) : .leaf .equals ∈ line x := by
  cases h <;> simp

/-- If a configuration is read, the text in it is written like one between quotes. -/
theorem exists_written_of_read {leaf : List Char → Tree} {pre post cs : List Char}
    (h : TextAt leaf path pre post) (hends : EndsAtQuote cs post)
    (ht : read (String.ofList (pre ++ '"' :: (cs ++ '"' :: post))) = .ok t) :
    ∃ z, Written cs z := by
  obtain ⟨hpre, -, hquote, -, -⟩ := h
  obtain ⟨us, trees, hus, -, -⟩ := read_eq_ok_iff.1 ht
  rw [String.toList_ofList, skipMark_append_quote, hpre] at hus
  obtain ⟨ts, hts, -⟩ := Option.map_eq_some_iff.1 hus
  exact exists_written_of_tokens (Option.isSome_of_eq_some hts) hquote hends

/-- The tokens of a configuration with a text in it. -/
theorem tokens_around {pre post x z : List Char} {ts ts' : List Token}
    (hpre : ∀ rest, tokens (skipMark pre ++ rest) = (tokens rest).map (ts ++ ·))
    (hpost : tokens post = some ts') (hquote : post.head? ≠ some '"') (hx : Written x z) :
    tokens (skipMark (pre ++ '"' :: (x ++ '"' :: post))) = some (ts ++ .quoted z :: ts') := by
  rw [skipMark_append_quote, hpre, tokens_quoted hx hquote, hpost]
  rfl

/-- What happens when a configuration is read with a text in it. -/
theorem exists_of_read {pre post x z : List Char} {ts ts' : List Token}
    {before after : List (List Tree)} {line : List Char → List Tree}
    (hpre : ∀ rest, tokens (skipMark pre ++ rest) = (tokens rest).map (ts ++ ·))
    (hpost : tokens post = some ts') (hquote : post.head? ≠ some '"')
    (hlines : ∀ x, (gather (ts ++ .quoted x :: ts')).map linesOf = some (before ++ line x :: after))
    (hline : ∀ x, .leaf .equals ∈ line x) (hx : Written x z)
    (ht : read (String.ofList (pre ++ '"' :: (x ++ '"' :: post))) = .ok t) :
    ∃ d path key v e f, Draft.readAll ⟨[], []⟩ before = some d ∧
      (itemsOf (line z)).bind pairOf = some (path, key, v) ∧ d.add (.pair path key v) = some e ∧
      e.readAll after = some f ∧ f.table = t := by
  obtain ⟨us, trees, hus, htrees, hread⟩ := read_eq_ok_iff.1 ht
  rw [String.toList_ofList, tokens_around hpre hpost hquote hx] at hus
  obtain rfl := Option.some.inj hus
  have hlines := hlines z
  rw [htrees] at hlines
  rw [Option.some.inj hlines] at hread
  obtain ⟨f, hf, hft⟩ := readLines_eq_ok_iff.1 hread
  rw [Draft.readAll_append] at hf
  obtain ⟨d, hd, hf⟩ := Option.bind_eq_some_iff.1 hf
  rw [Draft.readAll_cons, statementOf_of_mem (hline z)] at hf
  obtain ⟨e, he, hf⟩ := Option.bind_eq_some_iff.1 hf
  obtain ⟨statement, hstatement, he⟩ := Option.bind_eq_some_iff.1 he
  obtain ⟨⟨path, key, v⟩, hpair, rfl⟩ := Option.map_eq_some_iff.1 hstatement
  exact ⟨d, path, key, v, e, f, hd, hpair, he, hf, hft⟩

/-- If a configuration is read with one text and with another one, neither of which ends before the
    quote behind it, what is read differs in the values of these texts only. -/
theorem read_differAt {leaf : List Char → Tree} {pre post x y : List Char} (hleaf : IsLeaf leaf)
    (h : TextAt leaf path pre post) (hx : EndsAtQuote x post) (hy : EndsAtQuote y post)
    (ht : read (String.ofList (pre ++ '"' :: (x ++ '"' :: post))) = .ok t)
    (ht' : read (String.ofList (pre ++ '"' :: (y ++ '"' :: post))) = .ok t') :
    ∃ z w a b, Written x z ∧ Written y w ∧ valueAt (leaf z) = some a ∧ valueAt (leaf w) = some b ∧
      Table.DifferAt a b path t t' := by
  obtain ⟨z, hz⟩ := exists_written_of_read h hx ht
  obtain ⟨w, hw⟩ := exists_written_of_read h hy ht'
  obtain ⟨hpre, hpost, hquote, hlines, hline⟩ := h
  obtain ⟨d, pathx, keyx, v, e, f, hd, hv, he, hf, rfl⟩ :=
    exists_of_read hpre hpost hquote hlines (mem_of_pairAt hline) hz ht
  obtain ⟨d', pathy, keyy, v', e', f', hd', hv', he', hf', rfl⟩ :=
    exists_of_read hpre hpost hquote hlines (mem_of_pairAt hline) hw ht'
  obtain rfl := Option.some.inj (hd.symm.trans hd')
  obtain ⟨a, b, inner, ha, hb, rfl, rfl, rfl, hdiffer⟩ := hline.exists_differAt hleaf hv hv'
  refine ⟨z, w, a, b, hz, hw, ha, hb, ?_⟩
  have hcurrent : d.current = _ := Draft.current_readAll hd
  rw [← hcurrent]
  exact ((Draft.differAt_add hdiffer he he').readAll (hleaf.isTable _ _ ha) hf hf').table

end TestBench.Toml
