import TestBench.Proofs.Source.Header.Cells

/-!
# Reading a header

Between two items, reading is back where it was: the statement so far is blank (`IsFresh`),
however the braces and semicolons of the items before nest. So a header is read item by item
(`found_item`).

* `found_items`: reading finds the definitions and the prototypes among the items;
* `extract_text`: extraction recovers what a header declares.
-/

namespace TestBench.Source.Header

open Utf8

/-! ### Definitions -/

/-- In front of the keyword, reading has the lead of the definition, which is what it takes to
    belong to it. -/
theorem readFrom_lead (d : DefinitionItem) {s : Statement} (hs : s.IsFresh) (blocks : Nat)
    (rest : List Cell) :
    readFrom s blocks (plainCells d.lead ++ rest) =
        readFrom (s.append (plainCells d.lead)) blocks rest ∧
      (if (s.append (plainCells d.lead)).isTypedef then (s.append (plainCells d.lead)).head
        else []) = plainCells d.lead := by
  rw [DefinitionItem.lead]
  split
  next gap _ =>
    have hgap := isBlank_of_mem_plainCells gap.2.1
    have hword : ∀ x ∈ plainCells "typedef".toList, isWordByte x.code :=
      isWordByte_of_mem_plainCells (List.all_eq_true.1 (by decide))
    constructor
    · rw [plainCells_append, List.append_assoc,
        readFrom_word s blocks (by decide) hword (not_startsWord_gap gap rest),
        readFrom_blanks hgap, Statement.append_append]
      rw [codeText_plainCells]
      exact fun h => absurd h (by decide)
    · have hhead : (s.append (plainCells ("typedef".toList ++ gap.1))).head =
          plainCells ("typedef".toList ++ gap.1) := by
        rw [hs.head_append, dropWhile_plainCells]
        rfl
      have htype : (s.append (plainCells ("typedef".toList ++ gap.1))).isTypedef := by
        have hb : ∀ b ∈ encodeChars gap.1, Text.isBlankByte b := by
          rw [← code_plainCells]
          rw [List.forall_mem_map]
          exact hgap
        rw [Statement.isTypedef, hhead, code_plainCells, encodeChars_append, Text.dropTail,
          List.reverse_append, List.dropWhile_append_of_pos (by simpa using hb)]
        decide
      rw [if_pos htype, hhead]
  next =>
    refine ⟨rfl, ?_⟩
    rw [hs.head_append]
    exact ite_self _

/-- Between the keyword and the brace there is a tag between blanks, or there are blanks. -/
theorem opening_middle (d : DefinitionItem) (rest : List Cell) :
    opening? (plainCells d.middle ++ .plain openBrace :: rest) =
        some (plainCells d.middle ++ [.plain openBrace], rest) ∧
      ¬StartsWord (plainCells d.middle ++ .plain openBrace :: rest) := by
  have hgap := isBlank_of_mem_plainCells d.gap.2
  rw [DefinitionItem.middle]
  split
  next gap tag _ =>
    have hfront := isBlank_of_mem_plainCells gap.2.1
    rw [plainCells_append, plainCells_append, List.append_assoc, List.append_assoc]
    exact ⟨opening_heading rfl hfront (.inr (isTag_plainCells tag)) hgap rest,
      not_startsWord_gap gap _⟩
  next =>
    refine ⟨?_, ?_⟩
    · have := opening_heading (c := .plain openBrace) rfl hgap (.inl ⟨rfl, rfl⟩) (by simp) rest
      simpa using this
    · exact not_startsWord_blanks hgap (by decide) rest

theorem isWordByte_keyword (k : Keyword) : ∀ x ∈ plainCells k.text, isWordByte x.code := by
  cases k <;> exact isWordByte_of_mem_plainCells (List.all_eq_true.1 (by decide))

theorem codeText_keyword (k : Keyword) :
    codeText (plainCells k.text) = "struct" ∨ codeText (plainCells k.text) = "enum" := by
  cases k
  · exact .inl (by rw [codeText_plainCells]; decide)
  · exact .inr (by rw [codeText_plainCells]; decide)

/-- What stands behind the keyword of a definition. -/
def DefinitionItem.behind (d : DefinitionItem) : List Cell :=
  plainCells d.middle ++ .plain openBrace ::
    (d.body.cells ++ .plain closeBrace :: (plainCells d.declarators ++ [.plain semicolon]))

theorem cells_definition (d : DefinitionItem) :
    (Item.definition d).cells =
      plainCells d.lead ++ (plainCells d.keyword.text ++ d.behind) := by
  have hend : plainCells [';'] = [.plain semicolon] := rfl
  rw [Item.cells, Item.lexemes, cells_bracedLexemes, DefinitionItem.heading,
    DefinitionItem.behind]
  simp [hend]

theorem definition_behind (d : DefinitionItem) (rest : List Cell) :
    definition (d.behind ++ rest) = .complete d.behind rest :=
  definition_complete (fun r => (opening_middle d r).1) (isNeutral_body d.body) rfl
    (isFlat_of_mem_plainCells d.areFlat) rfl rest

theorem not_startsWord_behind (d : DefinitionItem) (rest : List Cell) :
    ¬StartsWord (d.behind ++ rest) := by
  rw [DefinitionItem.behind, List.append_assoc, List.cons_append]
  exact (opening_middle d _).2

/-- A definition is found as written, and reading goes on behind it. -/
theorem readFrom_definitionItem (d : DefinitionItem) {s : Statement} (hs : s.IsFresh)
    (blocks : Nat) (rest : List Cell) :
    readFrom s blocks ((Item.definition d).cells ++ rest) =
      (readFrom (.startingAt (s.stop + (encodeChars d.text).length)) blocks rest).cons
        ⟨.structOrEnum, String.ofList d.text, s.stop⟩ := by
  have htext := rawText_item (.definition d)
  have hlen := length_item (.definition d)
  rw [cells_definition] at htext hlen ⊢
  rw [List.length_append] at hlen
  obtain ⟨hread, htaken⟩ :=
    readFrom_lead d hs blocks (plainCells d.keyword.text ++ (d.behind ++ rest))
  have hstop : (s.append (plainCells d.lead)).stop +
      (plainCells d.keyword.text ++ d.behind).length = s.stop + (encodeChars d.text).length := by
    rw [Statement.append, Nat.add_assoc, hlen]
    rfl
  have hstart : (s.append (plainCells d.lead)).stop - (plainCells d.lead).length = s.stop :=
    Nat.add_sub_cancel ..
  rw [List.append_assoc, List.append_assoc, hread,
    readFrom_definition _ blocks (isWordByte_keyword d.keyword) (not_startsWord_behind d rest)
      (codeText_keyword d.keyword) (definition_behind d rest),
    htaken, hstop, hstart, List.append_assoc, htext]
  rfl

/-! ### Functions and prototypes -/

/-- The head of a function ends in a parenthesis, and so is no opening of a block. -/
theorem function_head (f : FunctionItem) {s : Statement} (hs : s.IsFresh) :
    (s.append (plainCells f.heading)).opensLinkage = false ∧
      (s.append (plainCells f.heading)).endsInParen := by
  constructor
  · have hparen : ')' ∈ (f.heading.dropWhile isSpace).filter fun c => !Text.isBlank c := by
      refine List.mem_filter.2 ⟨?_, by decide⟩
      rw [FunctionItem.heading, dropWhile_append_cons (by decide)]
      simp
    rw [Statement.opensLinkage, hs.head_append, dropWhile_plainCells, rawText_plainCells,
      String.toList_ofList, beq_eq_false_iff_ne]
    intro h
    rw [h] at hparen
    exact absurd hparen (by decide)
  · have hgap : ∀ x ∈ (plainCells f.gap.1).reverse, x.isBlank := fun x hx =>
      isBlank_of_mem_plainCells f.gap.2 x (List.mem_reverse.1 hx)
    have hread : (s.append (plainCells f.heading)).read = (plainCells f.gap.1).reverse ++
        .plain closeParen :: ((plainCells f.head).reverse ++ s.read) := by
      have hparen : plainCells (')' :: f.gap.1) = .plain closeParen :: plainCells f.gap.1 := rfl
      simp [Statement.append, FunctionItem.heading, hparen]
    rw [Statement.endsInParen, hread, List.dropWhile_append_of_pos hgap,
      List.dropWhile_cons_of_neg (by decide)]
    rfl

/-- The head of a function, and what it leaves to be read. -/
theorem readFrom_functionHead (f : FunctionItem) (s : Statement) (blocks : Nat)
    (rest : List Cell) :
    readFrom s blocks (plainCells f.heading ++ rest) =
      readFrom (s.append (plainCells f.heading)) blocks rest := by
  have hparen : plainCells (')' :: f.gap.1) = .plain closeParen :: plainCells f.gap.1 := rfl
  have hflat : (Cell.plain closeParen).IsFlat := ⟨by decide, by decide, by decide⟩
  have happ : ((s.append (plainCells f.head)).push (.plain closeParen)).append
      (plainCells f.gap.1) = s.append (plainCells f.head ++ plainCells (')' :: f.gap.1)) := by
    rw [← s.append_append]
    exact Statement.append_append _ [_] _
  rw [FunctionItem.heading, plainCells_append, ← happ, hparen, List.append_assoc, List.cons_append,
    readFrom_flat (isFlat_of_mem_plainCells f.isFlat) _ (by decide) (by decide) (by decide),
    readFrom_push _ _ hflat (by decide), readFrom_blanks (isBlank_of_mem_plainCells f.gap.2)]

/-- A function is passed with its body. -/
theorem readFrom_functionItem (f : FunctionItem) {s : Statement} (hs : s.IsFresh) (blocks : Nat)
    (rest : List Cell) :
    readFrom s blocks ((Item.function f).cells ++ rest) =
      readFrom (.startingAt (s.stop + (encodeChars f.text).length)) blocks rest := by
  have hlen := length_item (.function f)
  have hcells : (Item.function f).cells = plainCells f.heading ++
      .plain openBrace :: (f.body.cells ++ [.plain closeBrace]) := by
    rw [Item.cells, Item.lexemes, cells_bracedLexemes, plainCells_nil]
  have hgroup : group? 0 ((f.body.cells ++ [.plain closeBrace]) ++ rest) =
      some (f.body.cells ++ [.plain closeBrace], rest) := by
    rw [List.append_assoc]
    exact group?_of_isNeutral (isNeutral_body f.body) rfl rest
  obtain ⟨hlinkage, hends⟩ := function_head f hs
  rw [hcells, List.length_append] at hlen
  rw [hcells, List.append_assoc, readFrom_functionHead, List.cons_append,
    readFrom_function _ _ rfl hlinkage hends hgroup, Statement.append, Nat.add_assoc, hlen]
  rfl

/-- A prototype starts at once: its statement has no blanks in front. -/
theorem prototype_head (p : PrototypeItem) {s : Statement} (hs : s.IsFresh) :
    (s.append (plainCells p.statement)).head = plainCells p.statement ∧
      plainCells p.statement ≠ [] := by
  obtain ⟨c, hc, hw⟩ := exists_wordStart_of_isPrototype p.isPrototype
  rw [String.toList_ofList] at hc
  rw [hs.head_append, dropWhile_plainCells]
  cases hp : p.statement with
  | nil =>
    rw [hp] at hc
    obtain rfl := Option.some.inj hc
    exact absurd hw (by decide)
  | cons x xs =>
    rw [hp] at hc
    obtain rfl := Option.some.inj hc
    have hspace : ¬isSpace x := by
      intro hspace
      simp only [isSpace, Bool.or_eq_true, beq_iff_eq] at hspace
      rcases hspace with (((rfl | rfl) | rfl) | rfl) | rfl <;> exact absurd hw (by decide)
    rw [List.dropWhile_cons_of_neg hspace]
    refine ⟨rfl, ?_⟩
    obtain ⟨b, bs, hb, _⟩ := utf8EncodeChar_eq_cons x
    simp [plainCells, hb]

/-- A prototype is found as written. -/
theorem readFrom_prototypeItem (p : PrototypeItem) {s : Statement} (hs : s.IsFresh) (blocks : Nat)
    (rest : List Cell) :
    readFrom s blocks ((Item.prototype p).cells ++ rest) =
      (readFrom (.startingAt (s.stop + (encodeChars p.text).length)) blocks rest).cons
        ⟨.prototype, String.ofList p.text, s.stop⟩ := by
  have htext := rawText_item (.prototype p)
  have hlen := length_item (.prototype p)
  have hcells : (Item.prototype p).cells = plainCells p.statement ++ [.plain semicolon] := by
    have hend : plainCells [';'] = [.plain semicolon] := rfl
    rw [Item.cells, Item.lexemes, cells_codeLexemes, PrototypeItem.text, plainCells_append, hend]
  obtain ⟨hhead, hne⟩ := prototype_head p hs
  have hcode : codeText (plainCells p.statement ++ [.plain semicolon]) = String.ofList p.text := by
    have hend : plainCells [';'] = [.plain semicolon] := rfl
    rw [← hend, ← plainCells_append, codeText_plainCells, PrototypeItem.text]
  have hstart : (s.append (plainCells p.statement)).headStart = s.stop := by
    rw [Statement.headStart, hhead]
    exact Nat.add_sub_cancel ..
  have hproto : (s.append (plainCells p.statement)).prototype? (.plain semicolon) =
      some ⟨.prototype, String.ofList p.text, s.stop⟩ := by
    have hgroup : ((s.append (plainCells p.statement)).hasGroup ||
        (s.append (plainCells p.statement)).head.isEmpty) = false := by
      rw [hhead, List.isEmpty_eq_false_iff.2 hne, Bool.or_false]
      exact hs.1
    rw [Statement.prototype?, if_neg (by rw [hgroup]; decide), hhead, hcode,
      if_pos (show isPrototype (String.ofList p.text) from p.isPrototype), hstart, ← hcells, htext]
    rfl
  rw [hcells, List.length_append] at hlen
  rw [hcells, List.append_assoc, List.singleton_append,
    readFrom_flat (isFlat_of_mem_plainCells p.isFlat) _ (by decide) (by decide) (by decide),
    readFrom_prototype _ _ rfl hproto, Statement.append, Nat.add_assoc]
  exact congrArg (fun n => (readFrom (.startingAt (s.stop + n)) blocks rest).cons _) hlen

/-! ### Headers -/

/-- What an item declares at file scope: all but its directive. -/
def Item.fragments (i : Item) (offset : Nat) : List Declaration :=
  (i.declared offset).filter (·.kind != .directive)

/-- An item leaves reading where it was, behind what it declares. -/
theorem found_item (i : Item) {s : Statement} (hs : s.IsFresh) (blocks : Nat) :
    ∃ s' : Statement, s'.IsFresh ∧ s'.stop = s.stop + (encodeChars i.text).length ∧
      ∀ rest, (readFrom s blocks (i.cells ++ rest)).found =
        i.fragments s.stop ++ (readFrom s' blocks rest).found := by
  -- Where there is no code, the statement goes on; where there is, the next one starts.
  have hblank : (∀ c ∈ i.cells, c.isBlank) → i.fragments s.stop = [] →
      ∃ s' : Statement, s'.IsFresh ∧ s'.stop = s.stop + (encodeChars i.text).length ∧
        ∀ rest, (readFrom s blocks (i.cells ++ rest)).found =
          i.fragments s.stop ++ (readFrom s' blocks rest).found := by
    intro hc hf
    refine ⟨s.append i.cells, hs.append hc, ?_, fun rest => ?_⟩
    · rw [← length_item]
      rfl
    · rw [readFrom_blanks hc, hf, List.nil_append]
  have hfresh := Statement.isFresh_startingAt (s.stop + (encodeChars i.text).length)
  cases i with
  | directive d =>
    refine hblank (fun c hc => ?_) rfl
    rw [Item.cells, Item.lexemes, List.flatMap_singleton] at hc
    obtain ⟨b, _, rfl⟩ := List.mem_map.1 hc
    exact isBlank_blanked b
  | definition d =>
    refine ⟨_, hfresh, rfl, fun rest => ?_⟩
    rw [readFrom_definitionItem d hs]
    rfl
  | prototype p =>
    refine ⟨_, hfresh, rfl, fun rest => ?_⟩
    rw [readFrom_prototypeItem p hs]
    rfl
  | function f =>
    refine ⟨_, hfresh, rfl, fun rest => ?_⟩
    rw [readFrom_functionItem f hs]
    rfl
  | comment c =>
    refine hblank (fun x hx => ?_) rfl
    rw [Item.cells, Item.lexemes, List.flatMap_singleton] at hx
    exact isBlank_comment c x hx
  | blank g =>
    refine hblank ?_ rfl
    rw [Item.cells, Item.lexemes, cells_codeLexemes]
    exact isBlank_of_mem_plainCells g.2

/-- Reading finds the definitions and the prototypes among the items. -/
theorem found_items (items : List Item) {s : Statement} (hs : s.IsFresh) (blocks : Nat) :
    (readFrom s blocks ((lexemes items).flatMap Lexeme.cells)).found =
      (declared s.stop items).filter (·.kind != .directive) := by
  have hnil : ∀ s : Statement, (readFrom s blocks []).found = [] := fun s => by rw [readFrom]
  -- Between two items a newline is read, which leaves a statement fresh that is so.
  induction items generalizing s with
  | nil => exact hnil s
  | cons i is ih =>
    obtain ⟨s', hs', hstop, hfound⟩ := found_item i hs blocks
    rw [declared, List.filter_append]
    cases is with
    | nil =>
      have hcells : (lexemes [i]).flatMap Lexeme.cells = i.cells ++ [] := by
        simp [lexemes, Item.cells]
      rw [hcells, hfound, hnil]
      rfl
    | cons j js =>
      have hcells : (lexemes (i :: j :: js)).flatMap Lexeme.cells =
          i.cells ++ ([.plain newline] ++ (lexemes (j :: js)).flatMap Lexeme.cells) := by
        simp [lexemes, List.intercalate_cons_cons, Item.cells, Lexeme.cells]
      have hnl : ∀ c ∈ [Cell.plain newline], c.isBlank := by decide
      rw [hcells, hfound, readFrom_blanks hnl, ih (hs'.append hnl)]
      rw [show (s'.append [.plain newline]).stop = s.stop + (encodeChars i.text).length + 1 by
        rw [← hstop]; rfl]
      rfl

theorem directive_notMem_codeLexemes (cs : List Char) (bs : List UInt8) :
    .directive bs ∉ codeLexemes cs := by
  intro h
  obtain ⟨b, _, hb⟩ := List.mem_map.1 h
  rw [codeLexeme] at hb
  split at hb <;> exact absurd hb (by simp)

theorem directive_notMem_body (b : Body) (bs : List UInt8) : .directive bs ∉ b.lexemes := by
  have hcode := directive_notMem_codeLexemes
  induction b with
  | nil => simp [Body.lexemes]
  | plain c _ rest ih => simp [Body.lexemes, hcode, ih]
  | comment c rest ih => cases c <;> simp [Body.lexemes, Comment.lexeme, ih]
  | literal l rest ih => simp [Body.lexemes, Literal.lexeme, ih]
  | group inner rest ih₁ ih₂ => simp [Body.lexemes, hcode, ih₁, ih₂]

theorem directive_notMem_braced (front : List Char) (b : Body) (back : List Char)
    (bs : List UInt8) : .directive bs ∉ bracedLexemes front b back := by
  simp [bracedLexemes, directive_notMem_codeLexemes, directive_notMem_body]

/-- A directive is taken as written: no carriage return ends its line. -/
theorem directiveText_directive (d : DirectiveLine) :
    directiveText (encodeChars d.text) = String.ofList d.text := by
  have hlast : ∀ c ∈ d.text.reverse.head?, c ≠ '\r' := by
    intro c hc
    rw [List.head?_reverse, DirectiveLine.text, List.getLast?_append_cons] at hc
    rcases List.mem_cons.1 (List.mem_of_getLast? hc) with rfl | hc
    · decide
    · exact (d.onLine c hc).2
  have hdrop : d.text.reverse.dropWhile (· == '\r') = d.text.reverse := by
    revert hlast
    cases d.text.reverse with
    | nil => exact fun _ => rfl
    | cons x xs => exact fun hlast => List.dropWhile_cons_of_neg (by simpa using hlast x rfl)
  rw [directiveText, lossy_encodeChars, String.toList_ofList, Text.dropTail, hdrop,
    List.reverse_reverse]

theorem size_item (i : Item) : size i.lexemes = (encodeChars i.text).length := by
  rw [← length_item, ← List.length_map (f := Cell.raw), Item.cells, raw_flatMap_cells, size]

/-- Only a directive puts one among the lexemes. -/
theorem directivesFrom_item (i : Item) (n : Nat) :
    directivesFrom n i.lexemes = (i.declared n).filter (·.kind == .directive) := by
  cases i with
  | directive d =>
    change [_] = [_]
    exact congrArg (fun t => [Declaration.mk .directive t n]) (directiveText_directive d)
  | definition d => exact directivesFrom_eq_nil (directive_notMem_braced _ _ _) n
  | prototype p => exact directivesFrom_eq_nil (directive_notMem_codeLexemes _) n
  | function f => exact directivesFrom_eq_nil (directive_notMem_braced _ _ _) n
  | comment c => exact directivesFrom_eq_nil (by cases c <;> simp [Item.lexemes, Comment.lexeme]) n
  | blank g => exact directivesFrom_eq_nil (directive_notMem_codeLexemes _) n

/-- The directives among the lexemes of a header are those among its items. -/
theorem directivesFrom_items (items : List Item) (n : Nat) :
    directivesFrom n (lexemes items) = (declared n items).filter (·.kind == .directive) := by
  induction items generalizing n with
  | nil => rfl
  | cons i is ih =>
    rw [declared, List.filter_append, ← directivesFrom_item]
    cases is with
    | nil =>
      have hone : lexemes [i] = i.lexemes := by simp [lexemes]
      rw [hone]
      simp [declared]
    | cons j js =>
      have hcons : lexemes (i :: j :: js) = i.lexemes ++ .newline :: lexemes (j :: js) := by
        simp [lexemes, List.intercalate_cons_cons]
      rw [hcons, directivesFrom_append, size_item]
      exact congrArg (directivesFrom n i.lexemes ++ ·) (ih _)

/-- Extraction recovers what a header declares: its directives, definitions and prototypes, in
    order, each as written and at its place, and nothing from the bodies of functions or from
    comments. -/
theorem extract_text (items : List Item) :
    extract (text items) =
      { directives := (declared 0 items).filter (·.kind == .directive)
        structsAndEnums := (declared 0 items).filter (·.kind == .structOrEnum)
        prototypes := (declared 0 items).filter (·.kind == .prototype) } := by
  have hfound : (read ((lexemes items).flatMap Lexeme.cells)).found =
      (declared 0 items).filter (·.kind != .directive) :=
    found_items items (Statement.isFresh_startingAt 0) 0
  have hfilter : ∀ k : DeclarationKind, k ≠ .directive →
      ((declared 0 items).filter (·.kind != .directive)).filter (·.kind == k) =
        (declared 0 items).filter (·.kind == k) := by
    intro k hk
    rw [List.filter_filter]
    refine List.filter_congr fun d _ => ?_
    cases hd : d.kind == k with
    | false => rfl
    | true =>
      rw [beq_iff_eq] at hd
      rw [hd, Bool.true_and, bne_iff_ne]
      exact hk
  rw [extract, extractWithReports, lexemes_text, directivesFrom_items]
  simp only [hfound]
  rw [hfilter _ (by decide), hfilter _ (by decide)]

end TestBench.Source.Header
