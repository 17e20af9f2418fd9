import Mathlib.Data.List.TakeWhile
import TestBench.Path
import TestBench.Proofs.ByteString

/-!
# Where a path leads by its components

The components of a path lead from a directory to a place, whatever files there are: a name leads
down, two dots lead up, and a root leads to the top. A relative path leads up a number of
directories and then down some names; so from the place where it leads it mostly does not lead
back there (`placeFrom_placeFrom_iff`).

* `placeFrom_join`: a joined path leads where its second part does, from where the first does;
* `exists_parent`: a file is below the directory that is the parent of its path;
* `placeFrom_placeFrom_iff`: when a path leads from its own place to that place again.
-/

namespace TestBench

/-- A place in a tree of directories: the names from the top on. -/
abbrev Place := List ByteString

/-- Where a component leads. -/
def Component.step (base : Place) : Component → Place
  | .root => []
  | .current => base
  | .parent => base.dropLast
  | .normal name => base ++ [name]

namespace Path

/-- Where the components of a path lead from a place. -/
def placeFrom (p : Path) (base : Place) : Place :=
  p.components.foldl Component.step base

/-! ### Pieces -/

/-- A slash cuts a text in two, each with components of its own. -/
theorem bodyComponents_append (cs ds : List Char) :
    bodyComponents (cs ++ '/' :: ds) = bodyComponents cs ++ bodyComponents ds := by
  rw [bodyComponents, Text.pieces_append, List.filterMap_append]
  rfl

theorem pieces_of_slash_notMem {cs : List Char} (h : '/' ∉ cs) : Text.pieces '/' cs = [cs] :=
  Text.piecesBy_of_forall fun _ hc => beq_eq_false_iff_ne.2 fun hslash => h (hslash ▸ hc)

theorem bodyComponents_of_slash_notMem {cs : List Char} (h : '/' ∉ cs) :
    bodyComponents cs = (pieceComponent cs).toList := by
  rw [bodyComponents, pieces_of_slash_notMem h, List.filterMap_cons, List.filterMap_nil]
  cases pieceComponent cs <;> rfl

theorem bodyComponents_nil : bodyComponents [] = [] :=
  rfl

theorem bodyComponents_slash (cs : List Char) : bodyComponents ('/' :: cs) = bodyComponents cs := by
  rw [← List.nil_append ('/' :: cs), bodyComponents_append]
  rfl

theorem bodyComponents_dot_slash (cs : List Char) :
    bodyComponents ('.' :: '/' :: cs) = bodyComponents cs := by
  rw [← List.singleton_append, bodyComponents_append]
  rfl

/-- The start of a path adds nothing to its body. -/
theorem components_eq (p : Path) :
    p.components = leadComponents (splitLead p.text.toList).1 ++ bodyComponents p.text.toList := by
  rw [components]
  generalize p.text.toList = text
  unfold splitLead
  split
  next cs => rw [bodyComponents_slash]
  next cs => rw [bodyComponents_slash, bodyComponents_dot_slash]
  next => rfl
  next => rfl

/-- The start of a path only tells where its body starts. -/
theorem placeFrom_eq (p : Path) (base : Place) :
    p.placeFrom base =
      (bodyComponents p.text.toList).foldl Component.step (if p.isAbsolute then [] else base) := by
  rw [placeFrom, components_eq, isAbsolute, List.foldl_append]
  generalize p.text.toList = text
  unfold splitLead
  split
  next cs => simp [leadComponents, Component.step]
  next cs => simp [leadComponents, Component.step]
  next => rfl
  next h _ _ =>
    have hroot : (text.head? == some '/') = false := by
      cases text with
      | nil => rfl
      | cons c cs =>
        rw [beq_eq_false_iff_ne]
        intro hc
        exact h cs (by rw [Option.some.inj hc])
    rw [hroot]
    rfl

/-! ### Joining -/

theorem foldl_step_append (cs ds : List Char) (base : Place) :
    (bodyComponents (cs ++ '/' :: ds)).foldl Component.step base =
      (bodyComponents ds).foldl Component.step ((bodyComponents cs).foldl Component.step base) := by
  rw [bodyComponents_append, List.foldl_append]

theorem placeFrom_of_absolute {p : Path} (h : p.isAbsolute) (base base' : Place) :
    p.placeFrom base = p.placeFrom base' := by
  rw [placeFrom_eq, placeFrom_eq, if_pos h, if_pos h]

theorem placeFrom_of_relative {p : Path} (h : p.isAbsolute = false) (base : Place) :
    p.placeFrom base = (bodyComponents p.text.toList).foldl Component.step base := by
  rw [placeFrom_eq, h]
  rfl

/-- A joined path leads where its second part does, from where the first one does. -/
theorem placeFrom_join (p : Path) (q : ByteString) (base : Place) :
    (p.join q).placeFrom base = (Path.mk q).placeFrom (p.placeFrom base) := by
  by_cases hq : q.toList.head? = some '/'
  · rw [join_absolute p hq]
    exact placeFrom_of_absolute (by simp [isAbsolute, hq]) _ _
  · have hrel : (Path.mk q).isAbsolute = false := by simpa [isAbsolute] using hq
    rw [placeFrom_of_relative hrel, join, if_neg (by simpa using hq)]
    by_cases hp : p.text = ""
    · -- The empty path leads nowhere else, and joining to it changes nothing.
      have hbase : p.placeFrom base = base := by
        rw [placeFrom_eq, isAbsolute, hp]
        rfl
      rw [if_pos (by simp [hp]), hbase, hp, String.empty_append]
      exact placeFrom_of_relative hrel base
    · obtain ⟨c, cs, hcs⟩ := List.exists_cons_of_ne_nil
        (show p.text.toList ≠ [] by simpa using hp)
      split
      next hlast =>
        have hslash : ∃ front, p.text.toList = front ++ ['/'] := by
          simp only [Bool.or_eq_true, beq_iff_eq, String.isEmpty_iff, hp, false_or] at hlast
          exact List.getLast?_eq_some_iff.1 hlast
        obtain ⟨front, hfront⟩ := hslash
        have habs : (Path.mk (p.text ++ q)).isAbsolute = p.isAbsolute := by
          simp [isAbsolute, String.toList_append, hcs]
        have hsplit : bodyComponents p.text.toList = bodyComponents front := by
          rw [hfront, bodyComponents_append, bodyComponents_nil, List.append_nil]
        rw [placeFrom_eq, placeFrom_eq, habs, hsplit, ← foldl_step_append]
        simp [String.toList_append, hfront]
      next =>
        have habs : (Path.mk (p.text ++ "/" ++ q)).isAbsolute = p.isAbsolute := by
          simp [isAbsolute, String.toList_append, hcs]
        rw [placeFrom_eq, placeFrom_eq, habs, ← foldl_step_append]
        simp [String.toList_append]

/-- Whether a path is a text. -/
def IsText (p : Path) : Prop :=
  ∃ text, p = .ofText text

theorem isText_ofText (text : String) : (Path.ofText text).IsText :=
  ⟨text, rfl⟩

/-- A path that is a text is got back from what is shown of it. -/
theorem IsText.ofText_display {p : Path} (h : p.IsText) : .ofText p.display = p := by
  obtain ⟨text, rfl⟩ := h
  exact congrArg Path.ofText (ByteString.display_ofText text)

/-- A text joined to a text is one. -/
theorem IsText.join {p : Path} (h : p.IsText) (q : String) : (p.join (.ofText q)).IsText := by
  obtain ⟨text, rfl⟩ := h
  rw [Path.join]
  split
  · exact ⟨q, rfl⟩
  · split
    · exact ⟨text ++ q, by rw [ofText, ofText, ByteString.ofText_append]⟩
    · refine ⟨text ++ "/" ++ q, ?_⟩
      have hslash : ByteString.ofText "/" = "/" := ByteString.ofText_of_ascii (by decide)
      rw [ofText, ofText, ByteString.ofText_append, ByteString.ofText_append, hslash]

/-- Whether a byte string is a name that leads one directory down. -/
def IsName (name : ByteString) : Prop :=
  '/' ∉ name.toList ∧ name ≠ "" ∧ name ≠ "." ∧ name ≠ ".."

instance (name : ByteString) : Decidable (IsName name) :=
  inferInstanceAs (Decidable (_ ∧ _ ∧ _ ∧ _))

/-- A text is a name if its byte string is one. -/
theorem isName_ofText_iff {name : String} : IsName (.ofText name) ↔ IsName name := by
  have hne : ∀ text : String, text.toList.all (·.toNat < 0x80) →
      (ByteString.ofText name ≠ text ↔ name ≠ text) := by
    intro text htext
    conv_lhs => rw [← ByteString.ofText_of_ascii htext]
    rw [ne_eq, ByteString.ofText_inj]
  rw [IsName, IsName, ByteString.mem_ofText_iff (by decide), hne "" (by decide),
    hne "." (by decide), hne ".." (by decide)]

theorem bodyComponents_name {name : ByteString} (h : IsName name) :
    bodyComponents name.toList = [.normal name] := by
  obtain ⟨hs, hne, hd, hdd⟩ := h
  have hpiece : pieceComponent name.toList = some (.normal name) := by
    have hnot : ∀ t : String, name ≠ t → (name.toList == t.toList) = false := fun t ht =>
      beq_eq_false_iff_ne.2 fun he => ht (String.toList_inj.1 he)
    have h₁ := hnot "" hne
    have h₂ := hnot "." hd
    have h₃ := hnot ".." hdd
    simp only [String.toList_empty] at h₁
    rw [pieceComponent, if_neg (by simpa using ⟨by simpa using h₁, by simpa using h₂⟩),
      if_neg (by simpa using h₃), String.ofList_toList]
  rw [bodyComponents_of_slash_notMem hs, hpiece]
  rfl

theorem placeFrom_name {name : ByteString} (h : IsName name) (base : Place) :
    (Path.mk name).placeFrom base = base ++ [name] := by
  have hrel : (Path.mk name).isAbsolute = false := by
    rw [isAbsolute, beq_eq_false_iff_ne]
    exact fun hh => h.1 (List.mem_of_mem_head? hh)
  rw [placeFrom_of_relative hrel, bodyComponents_name h]
  rfl

/-- The start of a path is told by what is in front of its first slash. -/
theorem splitLead_append {cs : List Char} (h : cs ≠ []) (ds : List Char) :
    (splitLead (cs ++ '/' :: ds)).1 = (splitLead cs).1 := by
  match cs with
  | '/' :: _ => rfl
  | ['.'] => rfl
  | '.' :: '/' :: _ => rfl
  | [c] =>
    rw [List.singleton_append]
    unfold splitLead
    split <;> simp_all
  | c :: d :: cs =>
    rw [List.cons_append, List.cons_append]
    unfold splitLead
    split <;> simp_all

theorem components_name {name : ByteString} (h : IsName name) :
    (Path.mk name).components = [.normal name] := by
  have hlead : (splitLead name.toList).1 = [] := by
    have hdot : name.toList ≠ ['.'] := fun hd => h.2.2.1 (String.toList_inj.1 hd)
    have hslash := h.1
    generalize name.toList = text at hdot hslash
    unfold splitLead
    split <;> simp_all
  rw [components_eq, hlead, bodyComponents_name h]
  rfl

/-- A joined name is one more component. -/
theorem components_join (p : Path) {name : ByteString} (h : IsName name) :
    (p.join name).components = p.components ++ [.normal name] := by
  rw [join, if_neg (fun hh => h.1 (List.mem_of_mem_head? (beq_iff_eq.1 hh)))]
  by_cases hp : p.text = ""
  · obtain ⟨text⟩ := p
    obtain rfl := hp
    rw [if_pos (by simp), String.empty_append, components_name h]
    rfl
  have hne : p.text.toList ≠ [] := by simpa using hp
  split
  next hlast =>
    have hslash : p.text.toList.getLast? = some '/' := by simpa [hp] using hlast
    obtain ⟨front, hfront⟩ := List.getLast?_eq_some_iff.1 hslash
    have hlead : (splitLead (front ++ '/' :: name.toList)).1 = (splitLead (front ++ ['/'])).1 := by
      cases front with
      | nil => rfl
      | cons c cs => rw [splitLead_append (by simp), splitLead_append (by simp)]
    rw [components_eq, components_eq, String.toList_append, hfront, List.append_assoc,
      List.singleton_append, hlead, bodyComponents_append, bodyComponents_append,
      bodyComponents_name h, bodyComponents_nil, List.append_nil, List.append_assoc]
  next =>
    have htext : (p.text ++ "/" ++ name).toList = p.text.toList ++ '/' :: name.toList := by
      simp [String.toList_append]
    rw [components_eq, components_eq, htext, splitLead_append hne, bodyComponents_append,
      bodyComponents_name h, List.append_assoc]

/-- A slash at the end of a path adds no component. -/
theorem components_append_slash {text : String} (h : text ≠ "") :
    (Path.mk (text ++ "/")).components = (Path.mk text).components := by
  have htext : (text ++ "/").toList = text.toList ++ '/' :: [] := String.toList_append
  rw [components_eq, components_eq, htext, splitLead_append (by simpa using h),
    bodyComponents_append, bodyComponents_nil, List.append_nil]

/-- A joined name is the file name. -/
theorem fileName?_join (p : Path) {name : ByteString} (h : IsName name) :
    (p.join name).fileName? = some name := by
  rw [fileName?, components_join p h, List.getLast?_concat]

/-- A component that is a name is one that leads one directory down. -/
theorem isName_of_mem_components {p : Path} {name : ByteString} (h : .normal name ∈ p.components) :
    IsName name := by
  rw [components, List.mem_append] at h
  rcases h with h | h
  · unfold leadComponents at h
    split at h <;> simp at h
  · obtain ⟨piece, hpiece, hname⟩ := List.mem_filterMap.1 h
    rw [pieceComponent] at hname
    split at hname
    · cases hname
    next hdot =>
      split at hname
      · cases hname
      next hdots =>
        obtain rfl := Component.normal.inj (Option.some.inj hname)
        have hne : ∀ text : String, piece ≠ text.toList → String.ofList piece ≠ text := by
          rintro text hne rfl
          exact hne String.toList_ofList.symm
        simp only [Bool.or_eq_true, beq_iff_eq, not_or] at hdot hdots
        refine ⟨?_, hne "" (by simpa using hdot.1), hne "." hdot.2, hne ".." hdots⟩
        rw [String.toList_ofList]
        exact fun hs => absurd (Text.forall_mem_piecesBy hpiece '/' hs) (by decide)

theorem isName_of_fileName? {p : Path} {name : ByteString} (h : p.fileName? = some name) :
    IsName name := by
  rw [fileName?] at h
  split at h
  next hlast =>
    obtain rfl := Option.some.inj h
    exact isName_of_mem_components (List.mem_of_getLast? hlast)
  next => cases h

/-- Cutting off an extension leaves out nothing but a dot. -/
theorem mem_of_mem_splitExtension {name : List Char} {c : Char}
    (h : c ∈ (splitExtension name).1 ∨ ∃ e, (splitExtension name).2 = some e ∧ c ∈ e) :
    c ∈ name := by
  cases hsplit : splitExtension name with
  | mk stem extension =>
    rw [hsplit] at h
    cases extension with
    | none =>
      have hname : stem = name := by
        rw [splitExtension] at hsplit
        split at hsplit
        · exact (Prod.mk.inj hsplit).1.symm
        · split at hsplit
          · exact (Prod.mk.inj hsplit).1.symm
          · cases (Prod.mk.inj hsplit).2
      simpa [hname] using h
    | some e =>
      have hparts : c ∈ stem ∨ c ∈ e := by simpa using h
      rw [fileName?_eq_stem_extension hsplit, List.mem_append, List.mem_cons]
      exact hparts.imp_right .inr

theorem slash_notMem_stem {p : Path} {stem : ByteString} (h : p.stem? = some stem) :
    '/' ∉ stem.toList := by
  obtain ⟨name, hname, rfl⟩ := Option.map_eq_some_iff.1 h
  rw [String.toList_ofList]
  exact fun hs => (isName_of_fileName? hname).1 (mem_of_mem_splitExtension (.inl hs))

theorem slash_notMem_extension {p : Path} {extension : ByteString}
    (h : p.extension? = some extension) : '/' ∉ extension.toList := by
  obtain ⟨name, hname, h⟩ := Option.bind_eq_some_iff.1 h
  obtain ⟨e, he, rfl⟩ := Option.map_eq_some_iff.1 h
  rw [String.toList_ofList]
  exact fun hs => (isName_of_fileName? hname).1 (mem_of_mem_splitExtension (.inr ⟨e, he, hs⟩))

/-! ### Parents -/

/-- Whether a text may stand behind the start of a path. -/
def Continues (lead body : List Char) : Prop :=
  lead = ['/'] ∨ lead = ['.'] ∧ (∀ c ∈ body.head?, c = '/') ∨
    lead = [] ∧ body.head? ≠ some '/' ∧ ¬['.', '/'] <+: body

theorem splitLead_spec (text : List Char) :
    (splitLead text).1 ++ (splitLead text).2 = text ∧
      Continues (splitLead text).1 (splitLead text).2 := by
  unfold splitLead
  split
  next => exact ⟨rfl, .inl rfl⟩
  next => exact ⟨rfl, .inr (.inl ⟨rfl, by simp⟩)⟩
  next => exact ⟨rfl, .inr (.inl ⟨rfl, by simp⟩)⟩
  next cs h hdot _ =>
    refine ⟨rfl, .inr (.inr ⟨rfl, fun hc => ?_, fun hc => ?_⟩)⟩
    · obtain ⟨ds, hd⟩ := List.head?_eq_some_iff.1 hc
      exact h ds hd
    · obtain ⟨ds, rfl⟩ := hc
      exact hdot ds rfl

/-- What may stand behind the start of a path may be cut short. -/
theorem Continues.of_prefix {lead body front : List Char} (h : Continues lead body)
    (hf : front <+: body) : Continues lead front := by
  have hhead : ∀ c ∈ front.head?, c ∈ body.head? := fun c hc => by
    obtain ⟨rest, rfl⟩ := hf
    rw [List.head?_append, hc]
    rfl
  rcases h with h | ⟨h, hb⟩ | ⟨h, hb, hdot⟩
  · exact .inl h
  · exact .inr (.inl ⟨h, fun c hc => hb c (hhead c hc)⟩)
  · exact .inr (.inr ⟨h, fun hc => hb (hhead _ hc), fun hc => hdot (hc.trans hf)⟩)

theorem components_of_continues {lead body : List Char} (h : Continues lead body)
    (hne : body ≠ ['.']) :
    (Path.mk (String.ofList (lead ++ body))).components =
      leadComponents lead ++ bodyComponents body := by
  rw [components_eq, String.toList_ofList]
  rcases h with rfl | ⟨rfl, hb⟩ | ⟨rfl, hb, hdot⟩
  · rw [List.singleton_append, bodyComponents_slash]
    rfl
  · cases body with
    | nil => rfl
    | cons c cs =>
      rw [hb c rfl, List.singleton_append, bodyComponents_dot_slash, bodyComponents_slash]
      rfl
  · have hlead : (splitLead body).1 = [] := by
      unfold splitLead
      split
      · exact absurd rfl hb
      next cs => exact absurd (List.prefix_append ['.', '/'] cs) hdot
      · exact absurd rfl hne
      · rfl
    rw [List.nil_append, hlead]

theorem trimPieces_suffix (cs : List Char) : trimPieces cs <:+ cs := by
  fun_induction trimPieces cs with
  | case1 => exact List.suffix_refl _
  | case2 cs ih => exact ih.trans (List.suffix_cons _ _)
  | case3 cs ih => exact ih.trans ((List.suffix_cons _ _).trans (List.suffix_cons _ _))
  | case4 => exact List.nil_suffix
  | case5 => exact List.suffix_refl _

/-- What is left is no lone dot. -/
theorem trimPieces_ne_dot (cs : List Char) : trimPieces cs ≠ ['.'] := by
  fun_induction trimPieces cs with
  | case1 => simp
  | case2 _ ih => exact ih
  | case3 _ ih => exact ih
  | case4 => simp
  | case5 _ _ _ _ h => exact h

/-- Taking away what is no component keeps the components. -/
theorem bodyComponents_trimPieces (cs : List Char) :
    bodyComponents (trimPieces cs).reverse = bodyComponents cs.reverse := by
  fun_induction trimPieces cs with
  | case1 => rfl
  | case2 cs ih =>
    rw [ih, List.reverse_cons, bodyComponents_append, bodyComponents_nil, List.append_nil]
  | case3 cs ih =>
    rw [ih, List.reverse_cons, List.reverse_cons, List.append_assoc, List.singleton_append,
      bodyComponents_append]
    exact (List.append_nil _).symm
  | case4 => rfl
  | case5 => rfl

/-- What is left then starts, from behind, with a piece that is a component. -/
theorem exists_pieceComponent {cs : List Char} (h : trimPieces cs ≠ []) :
    ∃ c, pieceComponent ((trimPieces cs).takeWhile (· != '/')).reverse = some c := by
  fun_induction trimPieces cs with
  | case1 => exact absurd rfl h
  | case2 cs ih => exact ih h
  | case3 cs ih => exact ih h
  | case4 => exact absurd rfl h
  | case5 cs h₁ h₂ h₃ h₄ =>
    have hne : cs.takeWhile (· != '/') ≠ [] ∧ cs.takeWhile (· != '/') ≠ ['.'] := by
      cases cs with
      | nil => exact absurd rfl h₁
      | cons c cs =>
        have hc : c ≠ '/' := by
          rintro rfl
          exact h₂ cs rfl
        rw [List.takeWhile_cons_of_pos (by simpa using hc)]
        refine ⟨by simp, fun he => ?_⟩
        obtain ⟨rfl, hcs⟩ := List.cons.inj he
        cases cs with
        | nil => exact h₄ rfl
        | cons d cs =>
          have hd : d = '/' := by
            by_contra hd
            rw [List.takeWhile_cons_of_pos (by simpa using hd)] at hcs
            exact absurd hcs (by simp)
          exact h₃ cs (by rw [hd])
    rw [pieceComponent, if_neg (by simpa [List.reverse_eq_iff] using hne)]
    split
    · exact ⟨_, rfl⟩
    · exact ⟨_, rfl⟩

/-- A reversed text is a reversed text with a piece in front. -/
theorem bodyComponents_reverse {cs : List Char} {c : Component}
    (hc : pieceComponent (cs.takeWhile (· != '/')).reverse = some c) :
    bodyComponents cs.reverse =
      bodyComponents (trimPieces (cs.dropWhile (· != '/'))).reverse ++ [c] := by
  have hslash : '/' ∉ (cs.takeWhile (· != '/')).reverse := fun hm =>
    absurd (List.mem_takeWhile_imp (List.mem_reverse.1 hm)) (by decide)
  have hpiece : bodyComponents (cs.takeWhile (· != '/')).reverse = [c] := by
    rw [bodyComponents_of_slash_notMem hslash, hc]
    rfl
  have hsplit := List.takeWhile_append_dropWhile (p := (· != '/')) (l := cs)
  have hfront := List.head?_dropWhile_not (· != '/') cs
  rw [bodyComponents_trimPieces]
  cases hrest : cs.dropWhile (· != '/') with
  | nil =>
    -- There is one piece only.
    rw [hrest, List.append_nil] at hsplit
    rw [← hsplit, hpiece]
    rfl
  | cons x xs =>
    have hx : x = '/' := by simpa [hrest] using hfront
    rw [hrest, hx] at hsplit
    rw [← hsplit, List.reverse_append, List.reverse_cons, List.append_assoc, List.singleton_append,
      bodyComponents_append, hpiece, hx, List.reverse_cons, bodyComponents_append,
      bodyComponents_nil, List.append_nil]

theorem parent?_of_splitLead {p : Path} {lead body : List Char}
    (h : splitLead p.text.toList = (lead, body)) (hb : trimPieces body.reverse ≠ []) :
    p.parent? = some ⟨String.ofList (lead ++
      (trimPieces ((trimPieces body.reverse).dropWhile (· != '/'))).reverse)⟩ := by
  simp only [parent?, h]

/-- The parent of a path has its components but for the last, and only the root and the empty path
    have none. -/
theorem components_parent (p : Path) :
    (p.parent? = none ∧ p.components ⊆ [.root]) ∨
      ∃ q c, p.parent? = some q ∧ p.components = q.components ++ [c] := by
  obtain ⟨htext, hlead⟩ := splitLead_spec p.text.toList
  obtain ⟨lead, body, hs⟩ : ∃ lead body, splitLead p.text.toList = (lead, body) := ⟨_, _, rfl⟩
  have hcomponents : p.components = leadComponents lead ++ bodyComponents body := by
    rw [components, hs]
  have hbody := bodyComponents_trimPieces body.reverse
  rw [hs] at htext hlead
  rw [List.reverse_reverse] at hbody
  by_cases hne : trimPieces body.reverse = []
  · -- There is no component but the start.
    rw [hne, List.reverse_nil, bodyComponents_nil] at hbody
    rw [← hbody, List.append_nil] at hcomponents
    have hparent : p.parent? = if lead == ['.'] then some ⟨""⟩ else none := by
      simp only [parent?, hs, hne]
    rcases hlead with rfl | ⟨rfl, -⟩ | ⟨rfl, -⟩
    · exact .inl ⟨hparent, by rw [hcomponents]; exact List.Subset.refl _⟩
    · exact .inr ⟨⟨""⟩, .current, hparent, hcomponents⟩
    · exact .inl ⟨hparent, by rw [hcomponents]; exact List.nil_subset _⟩
  · -- The parent ends in front of the last piece.
    obtain ⟨c, hc⟩ := exists_pieceComponent hne
    have hsplit := bodyComponents_reverse hc
    rw [hbody] at hsplit
    have hpre : (trimPieces ((trimPieces body.reverse).dropWhile (· != '/'))).reverse <+: body := by
      rw [← List.reverse_suffix, List.reverse_reverse]
      exact (trimPieces_suffix _).trans ((List.dropWhile_suffix _).trans (trimPieces_suffix _))
    refine .inr ⟨_, c, parent?_of_splitLead hs hne, ?_⟩
    have hdot : (trimPieces ((trimPieces body.reverse).dropWhile (· != '/'))).reverse ≠ ['.'] :=
      fun h => trimPieces_ne_dot _ (List.reverse_eq_iff.1 h)
    rw [components_of_continues (hlead.of_prefix hpre) hdot, hcomponents, hsplit, List.append_assoc]

theorem components_prefix_of_parent {p q : Path} (h : p.parent? = some q) :
    q.components <+: p.components := by
  rcases components_parent p with ⟨hnone, -⟩ | ⟨q', c, hq', hcomponents⟩
  · rw [hnone] at h
    cases h
  · obtain rfl := Option.some.inj (hq'.symm.trans h)
    exact ⟨[c], hcomponents.symm⟩

/-- A file is below the directory that is the parent of its path. -/
theorem exists_parent {p : Path} {name : ByteString} (h : p.fileName? = some name) :
    ∃ d, p.parent? = some d ∧ ∀ base, p.placeFrom base = d.placeFrom base ++ [name] := by
  have hlast : p.components.getLast? = some (.normal name) := by
    rw [fileName?] at h
    split at h
    next hc => rw [hc, Option.some.inj h]
    next => cases h
  rcases components_parent p with ⟨-, hroot⟩ | ⟨d, c, hd, hcomponents⟩
  · have := hroot (List.mem_of_getLast? hlast)
    simp at this
  · rw [hcomponents, List.getLast?_concat] at hlast
    obtain rfl := Option.some.inj hlast
    refine ⟨d, hd, fun base => ?_⟩
    rw [placeFrom, hcomponents, List.foldl_append]
    rfl

/-! ### There and again -/

/-- How far components lead up, and the names that they then lead down, with one more. -/
def climb : Nat × List ByteString → Component → Nat × List ByteString
  | _, .root => (0, [])
  | way, .current => way
  | (ups, names), .parent => if names = [] then (ups + 1, []) else (ups, names.dropLast)
  | (ups, names), .normal name => (ups, names ++ [name])

/-- How far a path leads up, and the names that it then leads down. -/
def way (p : Path) : Nat × List ByteString :=
  p.components.foldl climb (0, [])

/-- The place a number of directories up. -/
def up (base : Place) (n : Nat) : Place :=
  base.take (base.length - n)

theorem length_up (base : Place) (n : Nat) : (up base n).length = base.length - n := by
  rw [up, List.length_take]
  omega

theorem dropLast_up (base : Place) (n : Nat) : (up base n).dropLast = up base (n + 1) := by
  rw [up, up, List.dropLast_eq_take, List.length_take, List.take_take]
  congr 1
  omega

/-- One component leads where one more on the way does. -/
theorem step_way {c : Component} (hc : c ≠ .root) (base : Place) (w : Nat × List ByteString) :
    c.step (up base w.1 ++ w.2) = up base (climb w c).1 ++ (climb w c).2 := by
  obtain ⟨ups, names⟩ := w
  cases c with
  | root => exact absurd rfl hc
  | current => rfl
  | normal name => exact List.append_assoc _ _ _
  | parent =>
    rw [Component.step, climb]
    split
    next hn => rw [hn, List.append_nil, dropLast_up, List.append_nil]
    next hn => rw [List.dropLast_append_of_ne_nil hn]

theorem root_notMem_components {p : Path} (h : p.isAbsolute = false) :
    Component.root ∉ p.components := by
  have hpiece : ∀ cs, pieceComponent cs ≠ some .root := by
    intro cs
    unfold pieceComponent
    split
    · simp
    · split <;> simp
  -- Only a lead is the root, and a relative path has another one or none.
  have hlead : Component.root ∉ leadComponents (splitLead p.text.toList).1 := by
    rw [isAbsolute] at h
    revert h
    generalize p.text.toList = text
    unfold splitLead
    split <;> simp [leadComponents]
  rw [components, List.mem_append, not_or]
  refine ⟨hlead, fun hm => ?_⟩
  obtain ⟨cs, _, hcs⟩ := List.mem_filterMap.1 hm
  exact hpiece cs hcs

/-- A relative path leads up and then down. -/
theorem placeFrom_way {p : Path} (h : p.isAbsolute = false) (base : Place) :
    p.placeFrom base = up base p.way.1 ++ p.way.2 := by
  have hroot := root_notMem_components h
  -- After some components, the place is where the way so far leads.
  have hfold : ∀ (cs : List Component) (w : Nat × List ByteString), Component.root ∉ cs →
      cs.foldl Component.step (up base w.1 ++ w.2) =
        up base (cs.foldl climb w).1 ++ (cs.foldl climb w).2 := by
    intro cs
    induction cs with
    | nil => exact fun _ _ => rfl
    | cons c cs ih =>
      intro w hcs
      rw [List.mem_cons, not_or] at hcs
      rw [List.foldl_cons, step_way (Ne.symm hcs.1), ih _ hcs.2]
      rfl
  have hbase : up base 0 ++ [] = base := by simp [up]
  have := hfold p.components (0, []) hroot
  rwa [hbase] at this

/-- A path leads from its own place to that place again if it is absolute, if it leads up as far
    as down, or if it leads up to the top both times. -/
theorem placeFrom_placeFrom_iff (p : Path) (base : Place) :
    p.placeFrom (p.placeFrom base) = p.placeFrom base ↔
      p.isAbsolute ∨ p.way.2.length = p.way.1 ∨
        (base.length ≤ p.way.1 ∧ p.way.2.length ≤ p.way.1) := by
  cases h : p.isAbsolute with
  | true => simp [placeFrom_of_absolute h (p.placeFrom base) base]
  | false =>
    rw [placeFrom_way h, placeFrom_way h]
    generalize p.way.1 = ups
    generalize p.way.2 = names
    have hlen := length_up base ups
    -- The names at the end are the same, and what is in front has to be as long.
    have hiff : up (up base ups ++ names) ups ++ names = up base ups ++ names ↔
        base.length - ups + names.length - ups = base.length - ups := by
      rw [List.append_cancel_right_eq]
      constructor
      · intro he
        have := congrArg List.length he
        rwa [length_up, List.length_append, hlen] at this
      · intro he
        rw [up, List.length_append, hlen, he, ← hlen, List.take_left']
        rfl
    rw [hiff]
    simp only [Bool.false_eq_true, false_or]
    omega

end Path

end TestBench
