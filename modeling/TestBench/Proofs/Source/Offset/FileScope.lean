import TestBench.Proofs.Source.Alike
import TestBench.Proofs.Source.Offset.Lookahead
import TestBench.Proofs.Source.Offset.Prototype

/-!
# What the scan finds

The scan by offsets keeps to reading the cells of the text, round by round. A statement may start
behind the next byte, if only blanks have come so far; so its head is what lies between the two, if
anything does (`Stands.exists_head`).

* `Stands.keeps_round`: a round gets on, and keeps to the reading;
* `scan_eq_ok`: no check fails, and what is found is what reading finds.
-/

namespace TestBench.Source.Offset

open Utf8

variable {cs rest : List Cell} {c : Cell}

/-! ### Keeping to the reading -/

section Keeping

variable {st st' : Scan} {result : Reading} {done past : List Cell}

/-- A reading with more declarations in front. -/
def behind (found : List Declaration) (r : Reading) : Reading :=
  { r with found := found ++ r.found }

/-- The statement so far, given its cells. -/
def Scan.statement (st : Scan) (past : List Cell) : Statement :=
  ⟨st.place, past.reverse, st.hasBlock⟩

/-- The statement so far is `past`, and reading `rest` makes up the result. -/
structure Stands (cs : List Cell) (result : Reading) (st : Scan) (done past rest : List Cell) :
    Prop where
  cells_eq : cs = done ++ (past ++ rest)
  start_eq : st.start = done.length
  place_eq : st.place = done.length + past.length
  result_eq : result = behind st.found (readFrom (st.statement past) st.blocks rest)

/-- A round ends with the result, or it gets on and the rest still makes up the result. -/
def Keeps (cs : List Cell) (result : Reading) (st : Scan) (out : Checked (Scan ⊕ Reading)) : Prop :=
  out = .ok (.inr result) ∨ ∃ st', out = .ok (.inl st') ∧ st.place < st'.place ∧
    ∃ done past rest, Stands cs result st' done past rest

theorem Stands.place_le (h : Stands cs result st done past rest) : st.place ≤ cs.length := by
  rw [h.place_eq, h.cells_eq, List.length_append, List.length_append]
  omega

/-- A round that ends the statement. -/
theorem Stands.keeps_next (taken : List Cell)
    (h : Stands cs result st done past (taken ++ rest)) (hne : taken ≠ [])
    {place blocks : Nat} {found : List Declaration} (hplace : place = st.place + taken.length)
    (hresult : behind st.found (readFrom (st.statement past) st.blocks (taken ++ rest)) =
      behind found (readFrom (.startingAt place) blocks rest)) :
    Keeps cs result st (.ok (.inl ⟨place, place, false, blocks, found⟩)) := by
  have hpos := List.length_pos_iff.2 hne
  refine .inr ⟨_, rfl, by simp only; omega, done ++ past ++ taken, [], rest, ?_, ?_, ?_, ?_⟩
  · rw [h.cells_eq]
    simp
  · rw [hplace, h.place_eq, List.length_append, List.length_append]
  · rw [hplace, h.place_eq, List.length_append, List.length_append]
    rfl
  · rw [h.result_eq, hresult]
    rfl

/-- A round that makes the statement longer. -/
theorem Stands.keeps_on (taken : List Cell)
    (h : Stands cs result st done past (taken ++ rest)) (hne : taken ≠ [])
    {place : Nat} {hasBlock : Bool} (hplace : place = st.place + taken.length)
    (hresult : readFrom (st.statement past) st.blocks (taken ++ rest) =
      readFrom ⟨place, (past ++ taken).reverse, hasBlock⟩ st.blocks rest) :
    Keeps cs result st (.ok (.inl { st with place, hasBlock })) := by
  have hpos := List.length_pos_iff.2 hne
  refine .inr ⟨_, rfl, by simp only; omega, done, past ++ taken, rest, ?_, h.start_eq, ?_, ?_⟩
  · rw [h.cells_eq, List.append_assoc]
  · rw [hplace, h.place_eq, List.length_append, Nat.add_assoc]
  · rw [h.result_eq, hresult]
    rfl

/-- The head of the statement lies between the first of its bytes that is no blank and the next
    byte, if the one is before the other. -/
theorem Stands.exists_head (h : Stands cs result st done past rest) :
    ∃ start front, skipBlanks (cs.map Cell.code) st.start = .ok start ∧
      cs = front ++ ((st.statement past).head ++ rest) ∧ min start st.place = front.length ∧
      st.place = front.length + (st.statement past).head.length ∧
      (start < st.place ↔ (st.statement past).head ≠ []) := by
  have hhead : (st.statement past).head = past.dropWhile Cell.isBlank := by
    rw [Statement.head, Scan.statement, List.reverse_reverse]
  have hpast := List.takeWhile_append_dropWhile (p := Cell.isBlank) (l := past)
  have hlength := congrArg List.length hpast
  rw [List.length_append] at hlength
  have hplace := h.place_eq
  -- If there are blanks only, the search goes on behind the next byte.
  have hskip : (past.dropWhile Cell.isBlank).length = 0 ∧
        past.length ≤ ((past ++ rest).takeWhile Cell.isBlank).length ∨
      0 < (past.dropWhile Cell.isBlank).length ∧
        ((past ++ rest).takeWhile Cell.isBlank).length =
          (past.takeWhile Cell.isBlank).length := by
    have hle := (List.takeWhile_sublist Cell.isBlank (l := past)).length_le
    rw [List.takeWhile_append]
    split
    next => exact .inl ⟨by omega, by rw [List.length_append]; exact Nat.le_add_right _ _⟩
    next => exact .inr ⟨by omega, rfl⟩
  refine ⟨_, done ++ past.takeWhile Cell.isBlank, skipBlanks_eq_ok h.cells_eq h.start_eq,
    ?_, ?_, ?_, ?_⟩
  · rw [hhead, List.append_assoc, ← List.append_assoc _ _ rest, hpast, h.cells_eq]
  all_goals
    simp only [hhead, h.start_eq, List.length_append, ne_eq, ← List.length_eq_zero_iff]
    omega

theorem isKeyword_iff (w : List Cell) : IsKeyword w ↔
    ¬(w.map Cell.code ≠ encode "struct" ∧ w.map Cell.code ≠ encode "enum") := by
  rw [IsKeyword, codeText, lossy_eq_iff (by simp), lossy_eq_iff (by simp)]
  tauto

theorem Stands.prototypes_eq_ok (h : Stands cs result st done past (c :: rest))
    (hcs : cs.length < 0x80000000) :
    st.prototypes (cs.map Cell.raw) (cs.map Cell.code) =
      .ok ((st.statement past).prototype? c).toList := by
  obtain ⟨start, front, hskip, hcells, hmin, hplace, hhead⟩ := h.exists_head
  rw [Scan.prototypes, hskip, ok_bind, Statement.prototype?]
  by_cases hopen : st.hasBlock = false ∧ start < st.place
  · have hne := hhead.1 hopen.2
    have hstart : start = front.length := by omega
    have hcut : cs = front ++ ((st.statement past).head ++ [c] ++ rest) := by
      rw [hcells, List.append_assoc, List.singleton_append]
    have hslice (f : Cell → UInt8) : slice (cs.map f) start (st.place + 1) =
        .ok (((st.statement past).head ++ [c]).map f) :=
      slice_cells hcut hstart (by rw [hplace, List.length_append]; rfl)
    have hlength : (codeText ((st.statement past).head ++ [c])).toList.length < 0x80000000 := by
      have hlossy := length_lossy_le (((st.statement past).head ++ [c]).map Cell.code)
      have hle := congrArg List.length hcut
      simp only [List.length_append, List.length_map] at hlossy hle
      rw [codeText]
      omega
    have hstay : ¬((st.statement past).hasGroup || (st.statement past).head.isEmpty) = true := by
      simpa [Scan.statement, hopen.1] using hne
    have hheadStart : (st.statement past).headStart = start := by
      rw [Statement.headStart, hstart]
      exact Nat.sub_eq_of_eq_add hplace
    rw [if_pos hopen, hslice, ok_bind, ← codeText, isPrototype_eq_ok hlength, ok_bind, hslice,
      if_neg hstay, hheadStart]
    split <;> rfl
  · have hnone : ((st.statement past).hasGroup || (st.statement past).head.isEmpty) = true := by
      rw [hhead] at hopen
      simpa [Scan.statement, or_iff_not_imp_left] using hopen
    rw [if_neg hopen, if_pos hnone]
    rfl

/-- Whether a statement ends in a parenthesis shows in the bytes of its head. -/
theorem endsInParen_iff (s : Statement) : s.endsInParen ↔
    (s.head.map Cell.code).reverse.find? (fun b => !Text.isBlankByte b) = some closeParen := by
  have hblank : (fun c => !((fun b => !Text.isBlankByte b) ∘ Cell.code) c) = Cell.isBlank :=
    funext fun c => Bool.not_not _
  rw [s.endsInParen_eq, ← List.map_reverse, List.find?_map, List.find?_eq_head?_dropWhile_not,
    hblank]
  cases (s.head.reverse.dropWhile Cell.isBlank).head? <;> simp

section Pass

variable (h : Stands cs result st done past (c :: rest))

include h in
theorem Stands.keeps_semicolon (hc : c.code = semicolon) (hcs : cs.length < 0x80000000) :
    Keeps cs result st (do
      let found ← st.prototypes (cs.map Cell.raw) (cs.map Cell.code)
      return .inl { st.next (st.place + 1) with found := st.found ++ found }) := by
  rw [h.prototypes_eq_ok hcs, ok_bind, pure_eq_ok]
  refine h.keeps_next [c] (by simp) rfl ?_
  rw [List.singleton_append, readFrom_semicolon _ _ hc, behind, behind, ← List.append_assoc]
  rfl

include h in
theorem Stands.keeps_close (hc : c.code = closeBrace) : Keeps cs result st
    (.ok (.inl { st.next (st.place + 1) with blocks := st.blocks - 1 })) := by
  refine h.keeps_next [c] (by simp) rfl ?_
  rw [List.singleton_append, readFrom_close _ _ hc]
  rfl

include h in
theorem Stands.keeps_code (hc : c.IsFlat) (hw : isWordByte c.code = false) :
    Keeps cs result st (.ok (.inl { st with place := st.place + 1 })) := by
  refine h.keeps_on [c] (by simp) rfl ?_
  rw [List.singleton_append, readFrom_push _ _ hc hw, List.reverse_append]
  rfl

include h in
theorem Stands.keeps_brace (hc : c.code = openBrace) :
    Keeps cs result st (st.passBrace (cs.map Cell.raw) (cs.map Cell.code)) := by
  obtain ⟨start, front, hskip, hcells, hmin, hplace, -⟩ := h.exists_head
  have hslice (f : Cell → UInt8) : slice (cs.map f) (min start st.place) st.place =
      .ok ((st.statement past).head.map f) := slice_cells hcells hmin hplace
  have hlinkage : opensLinkage (lossy ((st.statement past).head.map Cell.raw)) =
      (st.statement past).opensLinkage := rfl
  have hcut : cs = done ++ past ++ c :: rest := by rw [h.cells_eq, List.append_assoc]
  have hbrace := matchingBrace_eq_ok hcut (h.place_eq.trans (List.length_append ..).symm) hc
  rw [Scan.passBrace, hskip, ok_bind]
  simp only [hslice, ok_bind, hlinkage, hbrace, ← endsInParen_iff, pure_eq_ok]
  cases hl : (st.statement past).opensLinkage with
  | true =>
    rw [if_pos rfl]
    refine h.keeps_next [c] (by simp) rfl ?_
    rw [List.singleton_append, readFrom_linkage _ _ hc hl]
    rfl
  | false =>
    rw [if_neg Bool.false_ne_true]
    rcases hg : group? 0 rest with _ | ⟨group, after⟩
    · refine .inl ?_
      rw [h.result_eq, readFrom_unbalanced _ _ hc hl hg]
      simp [behind, Scan.statement]
    obtain rfl := append_of_group hg
    simp only [Option.map_some]
    cases hp : (st.statement past).endsInParen with
    | true =>
      rw [if_pos rfl]
      refine h.keeps_next (c :: group) (by simp) rfl ?_
      rw [List.cons_append, readFrom_function _ _ hc hl hp hg]
      rfl
    | false =>
      rw [if_neg Bool.false_ne_true]
      refine h.keeps_on (c :: group) (by simp) rfl ?_
      rw [List.cons_append, readFrom_group _ _ hc hl hp hg, List.reverse_append]
      rfl

/-- Trimming the head of a statement takes blanks away at its end only. -/
theorem trim_head (s : Statement) :
    (Text.dropTail Text.isBlankByte (s.head.map Cell.code)).dropWhile Text.isBlankByte =
      Text.dropTail Text.isBlankByte (s.head.map Cell.code) := by
  have hprefix := Text.dropTail_prefix Text.isBlankByte (s.head.map Cell.code)
  have hstop : ∀ c ∈ s.head.head?, c.isBlank = false := stop_dropWhile _
  rcases htrim : Text.dropTail Text.isBlankByte (s.head.map Cell.code) with _ | ⟨b, bs⟩
  · rfl
  rw [htrim] at hprefix
  obtain ⟨tail, htail⟩ := hprefix
  have hhead : s.head.head?.map Cell.code = some b := by
    rw [← List.head?_map, ← htail]
    rfl
  obtain ⟨c, hc, rfl⟩ := Option.map_eq_some_iff.1 hhead
  exact List.dropWhile_cons_of_neg (by simpa [Cell.isBlank] using hstop c hc)

end Pass

/-- A definition starts with the word that makes it a type name, or with its keyword. -/
theorem Stands.exists_lead (h : Stands cs result st done past rest) :
    ∃ front, st.definitionStart (cs.map Cell.code) = .ok front.length ∧
    cs = front ++ ((st.statement past).lead ++ rest) ∧
      st.place = front.length + (st.statement past).lead.length := by
  obtain ⟨start, front, hskip, hcells, hmin, hplace, hhead⟩ := h.exists_head
  have htypedef : (st.statement past).isTypedef ↔
      Text.dropTail Text.isBlankByte ((st.statement past).head.map Cell.code) =
        encode "typedef" := by
    rw [Statement.isTypedef, beq_iff_eq, lossy_eq_iff (by simp)]
  rw [Scan.definitionStart, hskip, ok_bind, Statement.lead]
  by_cases hlt : start < st.place
  · have hstart : start = front.length := by omega
    rw [if_pos hlt, slice_cells hcells hstart hplace, ok_bind, trim_head]
    by_cases ht : (st.statement past).isTypedef
    · rw [if_pos (htypedef.1 ht), if_pos ht]
      exact ⟨front, by rw [hstart]; rfl, hcells, hplace⟩
    · rw [if_neg (mt htypedef.2 ht), if_neg ht]
      exact ⟨front ++ (st.statement past).head, by rw [hplace, List.length_append]; rfl,
        by rw [List.nil_append, List.append_assoc, hcells], by rw [hplace, List.length_append]; rfl⟩
  · have hnil : (st.statement past).head = [] := not_not.1 (mt hhead.2 hlt)
    rw [hnil] at hcells hplace
    rw [if_neg hlt, hnil, ite_self]
    exact ⟨front, by rw [hplace]; rfl, hcells, hplace⟩

section Word

variable {word after cells front : List Cell}
  (h : Stands cs result st done past (word ++ after)) (hw : IsWord word)
  (hr : ¬StartsWord after)

include h hw hr in
theorem Stands.keeps_on_word (hd : IsKeyword word → definition after = .absent) :
    Keeps cs result st (.ok (.inl { st with place := st.place + word.length })) := by
  refine h.keeps_on word hw.1 rfl ?_
  rw [readFrom_word _ _ hw.1 hw.2 hr hd, List.reverse_append]
  rfl

section Lead

variable (hk : IsKeyword word) (hlead : cs = front ++ ((st.statement past).lead ++ (word ++ after)))
  (hplace : st.place = front.length + (st.statement past).lead.length)

include h hw hr hk hlead hplace in
theorem Stands.keeps_unterminated (hd : definition after = .endless) :
    Keeps cs result st
      (st.stopUnterminated (cs.map Cell.raw) (cs.map Cell.code) (word.map Cell.code)
        front.length) := by
  have hcells : cs = front ++ ((st.statement past).lead ++ word ++ after ++ []) := by
    rw [hlead, List.append_nil, List.append_assoc]
  have hlength := congrArg List.length hcells
  rw [List.length_append, List.append_nil] at hlength
  have hstart : (st.statement past).stop - (st.statement past).lead.length = front.length :=
    Nat.sub_eq_of_eq_add hplace
  rw [Scan.stopUnterminated, slice_cells hcells rfl (by rw [List.length_map, hlength])]
  refine .inl ?_
  rw [h.result_eq, readFrom_unterminated _ _ hw hr hk hd, hstart]
  rfl

include h hw hr hk hlead hplace in
theorem Stands.keeps_definition (hd : definition after = .complete cells rest) :
    Keeps cs result st (st.passDefinition (cs.map Cell.raw) front.length
      (st.place + word.length + cells.length)) := by
  obtain ⟨rfl, -⟩ := append_of_complete hd
  have hcells : cs = front ++ ((st.statement past).lead ++ word ++ cells ++ rest) := by
    rw [hlead]
    simp only [List.append_assoc]
  have hstop : st.place + word.length + cells.length =
      front.length + ((st.statement past).lead ++ word ++ cells).length := by
    rw [hplace, List.length_append, List.length_append]
    omega
  have hstart : (st.statement past).stop - (st.statement past).lead.length = front.length :=
    Nat.sub_eq_of_eq_add hplace
  rw [Scan.passDefinition, slice_cells hcells rfl hstop]
  rw [← List.append_assoc] at h
  have hnext : (st.statement past).stop + (word ++ cells).length =
      st.place + word.length + cells.length := by
    rw [List.length_append, Nat.add_assoc]
    rfl
  refine h.keeps_next (word ++ cells) (by simp [hw.1]) hnext.symm ?_
  rw [List.append_assoc, readFrom_definition _ _ hw.2 hr hk hd, ← Statement.lead, hstart, hnext,
    behind, behind, Reading.cons, List.append_cons]
  rfl

end Lead

include h hw hr in
/-- A round passes a word, or the definition that it starts. -/
theorem Stands.keeps_word :
    Keeps cs result st (st.passWord (cs.map Cell.raw) (cs.map Cell.code)) := by
  obtain ⟨front, hstart, hlead, hplace⟩ := h.exists_lead
  have hcut : cs = done ++ past ++ (word ++ after) := by rw [h.cells_eq, List.append_assoc]
  have hbehind : cs = done ++ past ++ word ++ after := by rw [hcut, List.append_assoc _ word]
  have hnext : st.place = (done ++ past).length := h.place_eq.trans (List.length_append ..).symm
  have hstop : st.place + word.length = (done ++ past ++ word).length := by
    rw [hnext, List.length_append, List.length_append, List.length_append]
  have hend : wordEnd (cs.map Cell.code) st.place = .ok (st.place + word.length) := by
    rw [wordEnd, passWhile_cells isWordByte hcut hnext, (takeWhile_word hw.2 hr).1]
  rw [Scan.passWord, hend, ok_bind, slice_cells hcut hnext (by rw [hnext]), ok_bind]
  by_cases hk : IsKeyword word
  · rw [if_neg ((isKeyword_iff word).1 hk), openingAt_eq_ok hbehind hstop, ok_bind]
    rcases ho : opening? after with _ | ⟨head, body⟩
    · exact h.keeps_on_word hw hr fun _ => by rw [definition, ho]
    obtain ⟨hpresent, hdefinition⟩ := definitionEnd_eq_ok hbehind hstop ho
    simp only [Option.map_some, hstart, hdefinition, ok_bind]
    cases hd : definition after with
    | absent => exact absurd hd hpresent
    | endless => exact h.keeps_unterminated hw hr hk hlead hplace hd
    | complete cells after' => exact h.keeps_definition hw hr hk hlead hplace hd
  · rw [if_pos (not_not.1 (mt (isKeyword_iff word).2 hk))]
    exact h.keeps_on_word hw hr fun h => absurd h hk

end Word

/-- A round gets on, or it ends with the result. -/
theorem Stands.keeps_round (h : Stands cs result st done past rest)
    (hcs : cs.length < 0x80000000) :
    Keeps cs result st (st.round (cs.map Cell.raw) (cs.map Cell.code)) := by
  have hlength := congrArg List.length h.cells_eq
  rw [List.length_append, List.length_append, ← Nat.add_assoc, ← h.place_eq] at hlength
  rw [Scan.round, List.length_map]
  rcases rest with _ | ⟨c, rest⟩
  · rw [if_neg (by rw [hlength]; exact Nat.lt_irrefl _)]
    refine .inl ?_
    rw [h.result_eq, readFrom]
    simp [behind]
  rw [List.length_cons] at hlength
  have hcut : cs = done ++ past ++ c :: rest := by rw [h.cells_eq, List.append_assoc]
  rw [if_pos (by omega), elementAt_cells hcut (h.place_eq.trans (List.length_append ..).symm),
    ok_bind]
  by_cases hs : c.code = semicolon
  · rw [if_pos hs]
    exact h.keeps_semicolon hs hcs
  rw [if_neg hs]
  by_cases ho : c.code = openBrace
  · rw [if_pos ho]
    exact h.keeps_brace ho
  rw [if_neg ho]
  by_cases hc : c.code = closeBrace
  · rw [if_pos hc]
    exact h.keeps_close hc
  rw [if_neg hc]
  by_cases hw : isWordByte c.code
  · obtain ⟨word, after, hword, hisWord, hafter⟩ := exists_word hw rest
    rw [← hword] at h
    rw [if_pos hw]
    exact h.keeps_word hisWord hafter
  · rw [if_neg hw]
    exact h.keeps_code ⟨hs, ho, hc⟩ (by simpa using hw)

end Keeping

/-- No check fails, and what is found is what reading finds. -/
theorem scan_eq_ok (cs : List Cell) (h : cs.length < 0x80000000) :
    scan (cs.map Cell.raw) (cs.map Cell.code) = .ok (read cs) := by
  refine loop_eq_ok (R := fun st result => ∃ done past rest, Stands cs result st done past rest) ?_
    ⟨[], [], cs, rfl, rfl, rfl, ?_⟩
  · rintro st result ⟨done, past, rest, hst⟩
    obtain hstop | ⟨st', hround, hless, hst'⟩ := hst.keeps_round h
    · exact .inl hstop
    · obtain ⟨done', past', rest', hst'⟩ := hst'
      have hle := hst'.place_le
      refine .inr ⟨st', hround, ?_, done', past', rest', hst'⟩
      rw [List.length_map]
      omega
  · rfl

end TestBench.Source.Offset
