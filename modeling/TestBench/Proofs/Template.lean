import Mathlib.Data.List.Sort
import TestBench.Template

/-!
# What becomes of a template

The occurrences of a token in a text, counted from left to right so that no two share a character,
are told by three properties (`LeftToRight`): the token stands at each of them, no two of them
overlap, and wherever the token stands, one of them starts there or runs into it from the left.
There is one such list for a text, and it is the one that a template is searched by.

From the occurrences of the two placeholders follows what becomes of a template (`Synthesis`). If
both occur once, they are replaced where they stand, unless they overlap; then they share one or two
underscores, and there is no text for them.

* `leftToRight_iff`: the occurrences are the only places with the three properties;
* `sharesUnderscores_of_overlap`: how placeholders overlap;
* `synthesize_outcome`: what becomes of every template.
-/

namespace TestBench

/-! ### Occurrences -/

/-- The places where a token stands in a text, counted from left to right: none of them runs into
    the next one, and none is left out that no earlier one runs into. -/
structure LeftToRight (token text : List Char) (places : List Nat) : Prop where
  stands : ∀ p ∈ places, token <+: text.drop p
  apart : places.Pairwise (· + token.length ≤ ·)
  covers : ∀ p, token <+: text.drop p → ∃ q ∈ places, q ≤ p ∧ p < q + token.length

namespace LeftToRight

variable {token text rest : List Char} {places places' : List Nat}

/-- Of two places the earlier one does not run into the later one. -/
theorem add_le_of_lt (h : LeftToRight token text places) {p q : Nat} (hp : p ∈ places)
    (hq : q ∈ places) (hlt : p < q) : p + token.length ≤ q := by
  obtain ⟨i, hi, rfl⟩ := List.getElem_of_mem hp
  obtain ⟨j, hj, rfl⟩ := List.getElem_of_mem hq
  have hapart := List.pairwise_iff_getElem.1 h.apart
  rcases Nat.lt_trichotomy i j with hij | rfl | hij
  · exact hapart i j hi hj hij
  · omega
  · have := hapart j i hj hi hij
    omega

/-- A place of one counting is one of the other. The induction is on the place: what would run into
    it in the other counting starts before it. -/
theorem mem_of_mem (h : LeftToRight token text places) (h' : LeftToRight token text places')
    {p : Nat} (hp : p ∈ places) : p ∈ places' := by
  induction p using Nat.strongRecOn generalizing places places' with
  | _ p ih =>
  obtain ⟨q, hq, hle, hlt⟩ := h'.covers p (h.stands p hp)
  rcases Nat.eq_or_lt_of_le hle with rfl | hbefore
  · exact hq
  · have := h.add_le_of_lt (ih q hbefore h' h hq) hp hbefore
    omega

theorem eq (ht : token ≠ []) (h : LeftToRight token text places)
    (h' : LeftToRight token text places') : places = places' := by
  have hlength := List.length_pos_of_ne_nil ht
  have hlt : ∀ {l : List Nat}, LeftToRight token text l → l.Pairwise (· < ·) :=
    fun h => h.apart.imp fun hle => by omega
  exact (hlt h).eq_of_mem_iff (hlt h') fun p => ⟨h.mem_of_mem h', h'.mem_of_mem h⟩

theorem nil (ht : token ≠ []) : LeftToRight token [] [] := by
  refine ⟨by simp, .nil, fun p hp => ?_⟩
  rw [List.drop_nil, List.prefix_nil] at hp
  exact absurd hp ht

/-- Where the token does not stand at the front, the search goes on behind the first character. -/
theorem cons {c : Char} (h : LeftToRight token text places) (hc : ¬ token <+: c :: text) :
    LeftToRight token (c :: text) (places.map (· + 1)) := by
  refine ⟨fun p hp => ?_, ?_, fun p hp => ?_⟩
  · obtain ⟨q, hq, rfl⟩ := List.mem_map.1 hp
    exact h.stands q hq
  · refine List.pairwise_map.2 (h.apart.imp fun hle => ?_)
    omega
  · cases p with
    | zero => exact absurd hp hc
    | succ p =>
      obtain ⟨q, hq, hle, hlt⟩ := h.covers p hp
      exact ⟨q + 1, List.mem_map_of_mem hq, by omega, by omega⟩

/-- Where the token stands at the front, the search goes on behind it. -/
theorem append (h : LeftToRight token rest places) :
    LeftToRight token (token ++ rest) (0 :: places.map (· + token.length)) := by
  have hdrop : ∀ p, (token ++ rest).drop (p + token.length) = rest.drop p := by
    intro p
    rw [Nat.add_comm, List.drop_length_add_append]
  refine ⟨fun p hp => ?_, ?_, fun p hp => ?_⟩
  · rcases List.mem_cons.1 hp with rfl | hp
    · exact List.prefix_append _ _
    · obtain ⟨q, hq, rfl⟩ := List.mem_map.1 hp
      rw [hdrop]
      exact h.stands q hq
  · refine List.pairwise_cons.2 ⟨fun p hp => ?_, List.pairwise_map.2 (h.apart.imp fun hle => ?_)⟩
    · obtain ⟨q, -, rfl⟩ := List.mem_map.1 hp
      omega
    · omega
  · by_cases hlt : p < token.length
    · exact ⟨0, List.mem_cons_self, by omega, by omega⟩
    · obtain ⟨p, rfl⟩ := Nat.exists_eq_add_of_le' (Nat.le_of_not_lt hlt)
      rw [hdrop] at hp
      obtain ⟨q, hq, hle, hlt⟩ := h.covers p hp
      exact ⟨q + token.length, List.mem_cons_of_mem _ (List.mem_map_of_mem hq), by omega, by omega⟩

end LeftToRight

/-- The search goes from left to right, wherever the text starts. -/
theorem exists_leftToRight {token : List Char} (ht : token ≠ []) (text : List Char) (pos : Nat) :
    ∃ places, LeftToRight token text places ∧
      occurrencesFrom token 0 pos text = places.map (· + pos) := by
  induction hn : text.length using Nat.strongRecOn generalizing text pos with
  | _ n ih =>
  cases text with
  | nil => exact ⟨[], .nil ht, rfl⟩
  | cons c cs =>
    by_cases hc : token <+: c :: cs
    · obtain ⟨rest, hrest⟩ := hc
      obtain ⟨t, ts, rfl⟩ := List.exists_cons_of_ne_nil ht
      rw [List.cons_append, List.cons.injEq] at hrest
      obtain ⟨rfl, rfl⟩ := hrest
      rw [List.length_cons, List.length_append] at hn
      obtain ⟨places, hplaces, hfrom⟩ := ih _ (by omega) rest (pos + 1 + ts.length) rfl
      refine ⟨_, hplaces.append, ?_⟩
      have hstands : (t :: ts).isPrefixOf (t :: (ts ++ rest)) :=
        List.isPrefixOf_iff_prefix.2 (List.prefix_append (t :: ts) rest)
      rw [occurrencesFrom, if_pos hstands, List.length_cons, Nat.add_sub_cancel,
        length_occurrencesFrom_of_skip, hfrom]
      simp [Nat.add_comm, Nat.add_left_comm]
    · rw [List.length_cons] at hn
      obtain ⟨places, hplaces, hfrom⟩ := ih _ (by omega) cs (pos + 1) rfl
      refine ⟨_, hplaces.cons hc, ?_⟩
      rw [occurrencesFrom, if_neg (mt List.isPrefixOf_iff_prefix.1 hc), hfrom]
      simp [Nat.add_comm, Nat.add_left_comm]

/-- The occurrences are the only places with the three properties. -/
theorem leftToRight_iff {token : List Char} (ht : token ≠ []) (text : List Char)
    (places : List Nat) :
    LeftToRight token text places ↔ places = occurrences token text := by
  obtain ⟨found, hfound, hoccurrences⟩ := exists_leftToRight ht text 0
  have hsame : occurrences token text = found := by
    rw [occurrences, hoccurrences]
    simp
  rw [hsame]
  exact ⟨fun h => h.eq ht hfound, fun h => h ▸ hfound⟩

/-! ### Placeholders that overlap -/

/-- The characters of the placeholder for the header. -/
abbrev headerToken : List Char := headerPlaceholder.toList

/-- The characters of the placeholder for the implementation. -/
abbrev implementationToken : List Char := implementationPlaceholder.toList

theorem token_lengths : headerToken.length = 22 ∧ implementationToken.length = 28 := by
  decide +kernel

/-- Of two tokens in a text the first one, at `p`, runs into the second one, at `q`: they share one
    or two characters, all underscores. -/
def SharesUnderscores (first second text : List Char) (p q : Nat) : Prop :=
  ∃ n ∈ [1, 2], ∃ a c, text = a ++ (first ++ (second.drop n ++ c)) ∧ p = a.length ∧
    q + n = p + first.length ∧ second.take n = List.replicate n '_'

/-- Where a token stands, with what is before and behind it. -/
theorem exists_of_prefix_drop {token text : List Char} {p : Nat} (h : token <+: text.drop p)
    (ht : token ≠ []) : ∃ a c, text = a ++ (token ++ c) ∧ a.length = p := by
  obtain ⟨c, hc⟩ := h
  refine ⟨text.take p, c, by rw [hc, List.take_append_drop], ?_⟩
  rw [List.length_take, Nat.min_eq_left]
  by_contra hlt
  rw [List.drop_eq_nil_of_le (by omega)] at hc
  exact ht (List.append_eq_nil_iff.1 hc).1

/-- Where two tokens stand, one behind the other, with what is around them. -/
theorem exists_of_apart {first second text : List Char} {p q : Nat} (hp : first <+: text.drop p)
    (hq : second <+: text.drop q) (hfirst : first ≠ []) (hsecond : second ≠ [])
    (hle : p + first.length ≤ q) : ∃ a b c, text = a ++ (first ++ (b ++ (second ++ c))) ∧
      p = a.length ∧ q = a.length + first.length + b.length := by
  obtain ⟨a, rest, rfl, rfl⟩ := exists_of_prefix_drop hp hfirst
  obtain ⟨d, rfl⟩ := Nat.exists_eq_add_of_le hle
  rw [Nat.add_assoc, List.drop_length_add_append, List.drop_length_add_append] at hq
  obtain ⟨b, c, rfl, rfl⟩ := exists_of_prefix_drop hq hsecond
  exact ⟨a, b, c, rfl, rfl, rfl⟩

/-- The end of one placeholder is the start of the other only if it is one or two underscores. -/
theorem take_of_drop_prefix : ∀ tokens ∈ [(headerToken, implementationToken),
    (implementationToken, headerToken)], ∀ d < tokens.1.length,
      tokens.1.drop d <+: tokens.2 ∨ tokens.2 <+: tokens.1.drop d →
        ∃ n ∈ [1, 2], d + n = tokens.1.length ∧ tokens.1.drop d = tokens.2.take n ∧
          tokens.2.take n = List.replicate n '_' := by
  decide +kernel

/-- One placeholder runs into the other only with its last underscores. -/
theorem sharesUnderscores_of_overlap {first second text : List Char} {p q : Nat}
    (htokens : (first, second) ∈ [(headerToken, implementationToken),
      (implementationToken, headerToken)])
    (hp : first <+: text.drop p) (hq : second <+: text.drop q) (hfirst : first ≠ []) (hle : p ≤ q)
    (hlt : q < p + first.length) : SharesUnderscores first second text p q := by
  obtain ⟨a, rest, rfl, rfl⟩ := exists_of_prefix_drop hp hfirst
  obtain ⟨d, rfl⟩ := Nat.exists_eq_add_of_le hle
  have hd : d < first.length := by omega
  rw [List.drop_length_add_append, List.drop_append_of_le_length hd.le] at hq
  obtain ⟨n, hn, hlength, hend, hunderscores⟩ := take_of_drop_prefix _ htokens d hd
    (List.prefix_or_prefix_of_prefix (List.prefix_append _ _) hq)
  dsimp only at hlength hend hunderscores
  -- Behind what they share, the second one goes on.
  rw [hend] at hq
  obtain ⟨c, hc⟩ := hq
  nth_rewrite 1 [← List.take_append_drop n second] at hc
  rw [List.append_assoc] at hc
  obtain rfl := List.append_cancel_left hc
  exact ⟨n, hn, a, c, rfl, rfl, by omega, hunderscores⟩

namespace SharesUnderscores

variable {first second text : List Char} {p q : Nat}

/-- Placeholders that share underscores overlap. -/
theorem overlap (h : SharesUnderscores first second text p q) (hfirst : 2 ≤ first.length) :
    p ≤ q ∧ q < p + first.length := by
  obtain ⟨n, hn, -, -, -, -, hq, -⟩ := h
  simp only [List.mem_cons, List.not_mem_nil, or_false] at hn
  omega

end SharesUnderscores

/-! ### Replacing the placeholders -/

namespace Template

/-- Two stretches of a text are replaced, and the rest of it stays. -/
theorem splice?_append (a first b second c new₁ new₂ : List Char) :
    splice? (a ++ (first ++ (b ++ (second ++ c)))) a.length first.length new₁
      (a.length + first.length + b.length) second.length new₂ =
        some (a ++ (new₁ ++ (b ++ (new₂ ++ c)))) := by
  have hbefore : (a ++ (first ++ (b ++ (second ++ c)))).take (a.length + first.length + b.length) =
      a ++ first ++ b := by
    rw [show a ++ (first ++ (b ++ (second ++ c))) = a ++ first ++ b ++ (second ++ c) by simp]
    exact List.take_left' (by simp [Nat.add_assoc])
  have hbetween : (a ++ first ++ b).drop (a.length + first.length) = b :=
    List.drop_left' (by simp)
  have hbehind : (a ++ (first ++ (b ++ (second ++ c)))).drop
      (a.length + first.length + b.length + second.length) = c := by
    rw [show a ++ (first ++ (b ++ (second ++ c))) = a ++ first ++ b ++ second ++ c by simp]
    exact List.drop_left' (by simp [Nat.add_assoc])
  rw [splice?, if_pos (Nat.le_add_right _ _), List.take_left, hbefore, hbetween, hbehind]
  simp

theorem place_of_single {text : List Char} {token : String} {p : Nat}
    (h : occurrences token.toList text = [p]) : place text token = .ok p := by
  rw [place, h]

theorem place_of_length_ne {text : List Char} {token : String}
    (h : (occurrences token.toList text).length ≠ 1) :
    place text token = .error (.placeholder token (occurrences token.toList text).length) := by
  rw [place]
  split
  next hsingle => simp [hsingle] at h
  next => rfl

/-- A template whose placeholders do not overlap is rendered with what is around them as it was. -/
theorem render?_headerFirst (a b c : List Char) (header implementation : String) :
    render? ⟨a ++ (headerToken ++ (b ++ (implementationToken ++ c))), a.length,
      a.length + headerToken.length + b.length⟩ header implementation =
        some (String.ofList (a ++ (header.toList ++ (b ++ (implementation.toList ++ c))))) := by
  rw [render?]
  dsimp only
  rw [if_pos (by omega), ← String.length_toList, ← String.length_toList, splice?_append]
  rfl

theorem render?_implementationFirst (a b c : List Char) (header implementation : String) :
    render? ⟨a ++ (implementationToken ++ (b ++ (headerToken ++ c))),
      a.length + implementationToken.length + b.length, a.length⟩ header implementation =
        some (String.ofList (a ++ (implementation.toList ++ (b ++ (header.toList ++ c))))) := by
  have hlt : ¬ a.length + implementationToken.length + b.length ≤ a.length := by
    have := token_lengths.2
    omega
  rw [render?]
  dsimp only
  rw [if_neg hlt, ← String.length_toList, ← String.length_toList, splice?_append]
  rfl

/-- There is no text for a template whose placeholders overlap. -/
theorem render?_of_overlap (t : Template) (header implementation : String)
    (hheader : t.headerAt < t.implementationAt + implementationToken.length)
    (himplementation : t.implementationAt < t.headerAt + headerToken.length) :
    t.render? header implementation = none := by
  rw [String.length_toList] at hheader himplementation
  rw [render?]
  split
  · rw [splice?, if_neg (by omega)]
    rfl
  · rw [splice?, if_neg (by omega)]
    rfl

end Template

/-! ### What becomes of a template -/

/-- What becomes of a template, by the places where the two placeholders stand in it. -/
inductive Synthesis (text header implementation : List Char) :
    List Nat → List Nat → Except Halt String → Prop
  /-- The header does not have one place. -/
  | noHeader {hs ks : List Nat} (h : hs.length ≠ 1) :
    Synthesis text header implementation hs ks
      (.error (.failure (.placeholder headerPlaceholder hs.length)))
  /-- The header has one place, and the implementation does not have one. -/
  | noImplementation {hs ks : List Nat} (hh : hs.length = 1) (hk : ks.length ≠ 1) :
    Synthesis text header implementation hs ks
      (.error (.failure (.placeholder implementationPlaceholder ks.length)))
  /-- Both have one place, first the header and then the implementation. -/
  | headerFirst (a b c : List Char)
    (h : text = a ++ (headerToken ++ (b ++ (implementationToken ++ c)))) :
    Synthesis text header implementation [a.length] [a.length + headerToken.length + b.length]
      (.ok (String.ofList (a ++ (header ++ (b ++ (implementation ++ c))))))
  /-- Both have one place, first the implementation and then the header. -/
  | implementationFirst (a b c : List Char)
    (h : text = a ++ (implementationToken ++ (b ++ (headerToken ++ c)))) :
    Synthesis text header implementation [a.length + implementationToken.length + b.length]
      [a.length] (.ok (String.ofList (a ++ (implementation ++ (b ++ (header ++ c))))))
  /-- Both have one place, and they overlap. -/
  | shared {p q : Nat} (h : SharesUnderscores headerToken implementationToken text p q ∨
      SharesUnderscores implementationToken headerToken text q p) :
    Synthesis text header implementation [p] [q] (.error .crash)

theorem synthesize_of_places {template : String} {declarations : List Declaration}
    {implementation : String} {p q : Nat}
    (hp : occurrences headerToken template.toList = [p])
    (hq : occurrences implementationToken template.toList = [q]) :
    synthesize template declarations implementation =
      match Template.render? ⟨template.toList, p, q⟩ (headerDefinitions declarations)
        implementation with
      | some text => .ok text
      | none => .error .crash := by
  rw [synthesize, Template.parse, Template.place_of_single hp, Template.place_of_single hq]
  rfl

theorem headerToken_ne_nil : headerToken ≠ [] :=
  List.ne_nil_of_length_pos (by rw [token_lengths.1]; decide)

theorem implementationToken_ne_nil : implementationToken ≠ [] :=
  List.ne_nil_of_length_pos (by rw [token_lengths.2]; decide)

theorem Synthesis.of_places {template : String} {p q : Nat}
    (hp : occurrences headerToken template.toList = [p])
    (hq : occurrences implementationToken template.toList = [q])
    (declarations : List Declaration) (implementation : String) :
    Synthesis template.toList (headerDefinitions declarations).toList implementation.toList [p] [q]
      (synthesize template declarations implementation) := by
  have hstandsHeader : headerToken <+: template.toList.drop p :=
    ((leftToRight_iff headerToken_ne_nil _ _).2 rfl).stands p (by rw [hp]; exact List.mem_cons_self)
  have hstandsImplementation : implementationToken <+: template.toList.drop q :=
    ((leftToRight_iff implementationToken_ne_nil _ _).2 rfl).stands q
      (by rw [hq]; exact List.mem_cons_self)
  rw [synthesize_of_places hp hq]
  by_cases hheader : p + headerToken.length ≤ q
  · obtain ⟨a, b, c, htext, rfl, rfl⟩ := exists_of_apart hstandsHeader hstandsImplementation
      headerToken_ne_nil implementationToken_ne_nil hheader
    rw [htext, Template.render?_headerFirst]
    exact .headerFirst a b c rfl
  by_cases himplementation : q + implementationToken.length ≤ p
  · obtain ⟨a, b, c, htext, rfl, rfl⟩ := exists_of_apart hstandsImplementation hstandsHeader
      implementationToken_ne_nil headerToken_ne_nil himplementation
    rw [htext, Template.render?_implementationFirst]
    exact .implementationFirst a b c rfl
  · rw [Template.render?_of_overlap _ _ _ (Nat.lt_of_not_le himplementation)
      (Nat.lt_of_not_le hheader)]
    refine .shared ?_
    rcases Nat.le_total p q with hle | hle
    · exact .inl (sharesUnderscores_of_overlap (by simp) hstandsHeader hstandsImplementation
        headerToken_ne_nil hle (Nat.lt_of_not_le hheader))
    · exact .inr (sharesUnderscores_of_overlap (by simp) hstandsImplementation hstandsHeader
        implementationToken_ne_nil hle (Nat.lt_of_not_le himplementation))

theorem synthesis_synthesize (template : String) (declarations : List Declaration)
    (implementation : String) :
    Synthesis template.toList (headerDefinitions declarations).toList implementation.toList
      (occurrences headerToken template.toList) (occurrences implementationToken template.toList)
      (synthesize template declarations implementation) := by
  by_cases hh : (occurrences headerToken template.toList).length = 1
  · by_cases hk : (occurrences implementationToken template.toList).length = 1
    · obtain ⟨p, hp⟩ := List.length_eq_one_iff.1 hh
      obtain ⟨q, hq⟩ := List.length_eq_one_iff.1 hk
      rw [hp, hq]
      exact .of_places hp hq declarations implementation
    · obtain ⟨p, hp⟩ := List.length_eq_one_iff.1 hh
      rw [synthesize, Template.parse, Template.place_of_single hp, Template.place_of_length_ne hk]
      exact .noImplementation hh hk
  · rw [synthesize, Template.parse, Template.place_of_length_ne hh]
    exact .noHeader hh

/-- There is no text only if both placeholders have one place and overlap. -/
theorem Synthesis.crash_iff {text header implementation : List Char} {hs ks : List Nat}
    {result : Except Halt String} (h : Synthesis text header implementation hs ks result) :
    result = .error .crash ↔ ∃ p q, hs = [p] ∧ ks = [q] ∧ p < q + implementationToken.length ∧
      q < p + headerToken.length := by
  have hlengths := token_lengths
  cases h with
  | noHeader h =>
    refine ⟨nofun, ?_⟩
    rintro ⟨p, q, rfl, -⟩
    exact absurd rfl h
  | noImplementation _ h =>
    refine ⟨nofun, ?_⟩
    rintro ⟨p, q, -, rfl, -⟩
    exact absurd rfl h
  | headerFirst a b c h =>
    refine ⟨nofun, ?_⟩
    rintro ⟨p, q, hp, hq, hlt, hlt'⟩
    obtain rfl := List.singleton_inj.1 hp
    obtain rfl := List.singleton_inj.1 hq
    omega
  | implementationFirst a b c h =>
    refine ⟨nofun, ?_⟩
    rintro ⟨p, q, hp, hq, hlt, hlt'⟩
    obtain rfl := List.singleton_inj.1 hp
    obtain rfl := List.singleton_inj.1 hq
    omega
  | @shared p q h =>
    refine ⟨fun _ => ⟨p, q, rfl, rfl, ?_⟩, fun _ => rfl⟩
    rcases h with h | h
    · have := h.overlap (by omega)
      omega
    · have := h.overlap (by omega)
      omega

/-- What becomes of every template: it is an error unless each placeholder occurs once, counting
    from left to right; then both are replaced where they stand, and there is no text if and only if
    they overlap, with one or two underscores that they share. -/
theorem synthesize_outcome (template : String) (declarations : List Declaration)
    (implementation : String) :
    ∃ hs ks, (∀ places, LeftToRight headerToken template.toList places ↔ places = hs) ∧
      (∀ places, LeftToRight implementationToken template.toList places ↔ places = ks) ∧
      Synthesis template.toList (headerDefinitions declarations).toList implementation.toList hs ks
        (synthesize template declarations implementation) ∧
      (synthesize template declarations implementation = .error .crash ↔
        ∃ p q, hs = [p] ∧ ks = [q] ∧ p < q + implementationToken.length ∧
          q < p + headerToken.length) := by
  have hsynthesis := synthesis_synthesize template declarations implementation
  exact ⟨_, _, leftToRight_iff headerToken_ne_nil _, leftToRight_iff implementationToken_ne_nil _,
    hsynthesis, hsynthesis.crash_iff⟩

end TestBench
