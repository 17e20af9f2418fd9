import Mathlib.Data.List.Infix
import TestBench.Proofs.Template
import TestBench.Proofs.Text.Encoding

/-!
# Placeholders across junctions

What is put in the place of a placeholder is not looked at again. So a module may hold a placeholder
although neither the definitions nor the implementation does: one that is put together where the
template meets what has been put in. There is no other way (`infix_or_crosses`), since a template
that is accepted has no other placeholder beside the two that are replaced (`not_infix_of_single`).

A text that is no part of a placeholder, does not start with the end of one and does not end with
the start of one keeps apart from whatever it is put next to (`KeepsFrom`). Of two such texts and a
template no placeholder is put together.

* `placeholder_at_junction`: where the placeholders of a module may stand;
* `placeholder_across_junction`: one that is put together.
-/

namespace TestBench

open Utf8

section Junctions

variable {α : Type} {token x : List α}

/-- Where lists that are put together end, each but the last at the start of the next one. -/
def junctions : List (List α) → List Nat
  | [] => []
  | part :: parts => part.length :: (junctions parts).map (· + part.length)

/-- A token in lists that are put together stands in one of them, or across the end of one. -/
theorem infix_or_crosses {parts : List (List α)} {p : Nat} (h : token <+: parts.flatten.drop p)
    (ht : token ≠ []) : (∃ part ∈ parts, token <:+: part) ∨
      ∃ n ∈ junctions parts, p < n ∧ n < p + token.length := by
  induction parts generalizing p with
  | nil =>
    rw [List.flatten_nil, List.drop_nil, List.prefix_nil] at h
    exact absurd h ht
  | cons part parts ih =>
    rw [List.flatten_cons] at h
    by_cases hin : p + token.length ≤ part.length
    · -- It ends in the first list at the latest.
      rw [List.drop_append_of_le_length (by omega)] at h
      have hpart := List.prefix_of_prefix_length_le h (List.prefix_append _ _)
        (by rw [List.length_drop]; omega)
      exact .inl ⟨part, List.mem_cons_self, hpart.isInfix.trans (List.drop_suffix _ _).isInfix⟩
    by_cases hstart : p < part.length
    · exact .inr ⟨_, List.mem_cons_self, hstart, by omega⟩
    · obtain ⟨p, rfl⟩ := Nat.exists_eq_add_of_le (Nat.le_of_not_lt hstart)
      rw [List.drop_length_add_append] at h
      refine (ih h).imp (fun ⟨q, hq, hinfix⟩ => ⟨q, List.mem_cons_of_mem _ hq, hinfix⟩) ?_
      rintro ⟨n, hn, hlt, hgt⟩
      exact ⟨n + part.length, List.mem_cons_of_mem _ (List.mem_map_of_mem hn), by omega, by omega⟩

/-- Whether a list makes up no token with what it is put next to: it is no part of the token, does
    not start with an end of it, and does not end with a start of it. -/
structure KeepsFrom (token x : List α) : Prop where
  not_part : ¬x <:+: token
  not_start : ∀ n < token.length, 0 < n → ¬token.drop n <+: x
  not_end : ∀ n < token.length, 0 < n → ¬token.take n <:+ x

namespace KeepsFrom

instance [DecidableEq α] : Decidable (KeepsFrom token x) :=
  decidable_of_iff (¬x <:+: token ∧ (∀ n < token.length, 0 < n → ¬token.drop n <+: x) ∧
      ∀ n < token.length, 0 < n → ¬token.take n <:+ x)
    ⟨fun ⟨hpart, hstart, hend⟩ => ⟨hpart, hstart, hend⟩,
      fun h => ⟨h.not_part, h.not_start, h.not_end⟩⟩

/-- Across the start of such a list no token stands. -/
theorem not_across_start (h : KeepsFrom token x) {a b : List α} {p : Nat}
    (hp : token <+: (a ++ (x ++ b)).drop p) :
    ¬(p < a.length ∧ a.length < p + token.length) := by
  rintro ⟨hlt, hgt⟩
  rw [List.drop_append_of_le_length hlt.le] at hp
  obtain ⟨n, hn⟩ := Nat.exists_eq_add_of_le hlt.le
  -- What is in front of the list is the start of the token, and the rest of it stands here.
  have hfront : a.drop p = token.take n := by
    have hpre := List.prefix_of_prefix_length_le (List.prefix_append (a.drop p) (x ++ b)) hp
      (by rw [List.length_drop]; omega)
    rw [List.prefix_iff_eq_take.1 hpre, List.length_drop, hn, Nat.add_sub_cancel_left]
  have hrest : token.drop n <+: x ++ b := by
    rw [hfront] at hp
    nth_rewrite 1 [← List.take_append_drop n token] at hp
    exact (List.prefix_append_right_inj _).1 hp
  rcases List.prefix_or_prefix_of_prefix hrest (List.prefix_append x b) with hpre | hpre
  · exact h.not_start n (by omega) (by omega) hpre
  · exact h.not_part (hpre.isInfix.trans (List.drop_suffix n token).isInfix)

/-- Nor does one stand across its end. -/
theorem not_across_end (h : KeepsFrom token x) {a b : List α} {p : Nat}
    (hp : token <+: (a ++ (x ++ b)).drop p) :
    ¬(p < a.length + x.length ∧ a.length + x.length < p + token.length) := by
  rintro ⟨hlt, hgt⟩
  rw [← List.append_assoc, List.drop_append_of_le_length (by rw [List.length_append]; omega)] at hp
  obtain ⟨n, hn⟩ := Nat.exists_eq_add_of_le hlt.le
  have hend : token.take n <:+ a ++ x := by
    have hpre := List.prefix_of_prefix_length_le (List.prefix_append ((a ++ x).drop p) b) hp
      (by rw [List.length_drop, List.length_append]; omega)
    rw [List.prefix_iff_eq_take, List.length_drop, List.length_append, hn,
      Nat.add_sub_cancel_left] at hpre
    exact hpre ▸ List.drop_suffix p (a ++ x)
  rcases List.suffix_or_suffix_of_suffix hend (List.suffix_append a x) with hsuf | hsuf
  · exact h.not_end n (by omega) (by omega) hsuf
  · exact h.not_part (hsuf.isInfix.trans (List.take_prefix n token).isInfix)

/-- Across no junction of two such lists and what is around them does a token stand. -/
theorem not_across_junction {y : List α} (hx : KeepsFrom token x) (hy : KeepsFrom token y)
    {a b c : List α} {p : Nat} (hp : token <+: [a, x, b, y, c].flatten.drop p) :
    ¬∃ n ∈ junctions [a, x, b, y, c], p < n ∧ n < p + token.length := by
  have hflatten : [a, x, b, y, c].flatten = a ++ (x ++ (b ++ (y ++ c))) := by simp
  have hflatten' : [a, x, b, y, c].flatten = (a ++ (x ++ b)) ++ (y ++ c) := by simp
  have hlength := hp.length_le
  have hstart := hx.not_across_start (hflatten ▸ hp)
  have hend := hx.not_across_end (hflatten ▸ hp)
  have hstart' := hy.not_across_start (hflatten' ▸ hp)
  have hend' := hy.not_across_end (hflatten' ▸ hp)
  rintro ⟨n, hn, hlt, hgt⟩
  simp only [junctions, List.map_cons, List.map_nil, List.mem_cons, List.not_mem_nil,
    or_false] at hn
  simp only [List.length_append, List.length_drop, hflatten] at hlength hstart' hend'
  omega

end KeepsFrom

end Junctions

/-! ### Placeholders in texts -/

/-- What stands for something else in a template. -/
def placeholders : List String :=
  [headerPlaceholder, implementationPlaceholder]

/-- Whether the bytes of a placeholder stand in those of a text. -/
def HasPlaceholder (t : String) : Prop :=
  ∃ token ∈ placeholders, encode token <:+: encode t

instance (t : String) : Decidable (HasPlaceholder t) :=
  inferInstanceAs (Decidable (∃ token ∈ placeholders, encode token <:+: encode t))

/-- Whether no placeholder is put together from a text and what it is put next to. -/
def Sealed (t : String) : Prop :=
  ∀ token ∈ placeholders, KeepsFrom (encode token) (encode t)

instance (t : String) : Decidable (Sealed t) :=
  inferInstanceAs (Decidable (∀ token ∈ placeholders, KeepsFrom (encode token) (encode t)))

theorem encode_placeholder :
    ∀ token ∈ placeholders, encode token ≠ [] ∧ ∀ b ∈ encode token, b < 0x80 := by
  decide +kernel

/-- A placeholder stands in a text if its characters do. -/
theorem hasPlaceholder_ofList_iff (cs : List Char) :
    HasPlaceholder (String.ofList cs) ↔ headerToken <:+: cs ∨ implementationToken <:+: cs := by
  have hiff : ∀ token ∈ placeholders,
      encode token <:+: encode (String.ofList cs) ↔ token.toList <:+: cs := by
    intro token ht
    rw [encode_ofList]
    refine ⟨fun h => infix_of_ascii_infix ?_ (encodeChars_toList token ▸ h), ?_⟩
    · rw [encodeChars_toList]
      exact (encode_placeholder token ht).2
    · rintro ⟨p, q, rfl⟩
      exact ⟨encodeChars p, encodeChars q, by simp [encodeChars_toList]⟩
  simp only [placeholders, List.forall_mem_cons] at hiff
  simp only [HasPlaceholder, placeholders, List.mem_cons, List.not_mem_nil, or_false,
    exists_eq_or_imp, exists_eq_left, hiff.1, hiff.2.1]

theorem encode_join (parts : List String) :
    encode (String.join parts) = (parts.map encode).flatten := by
  rw [← encodeChars_toList, String.toList_join]
  induction parts with
  | nil => rfl
  | cons part parts ih => rw [List.flatMap_cons, encodeChars_append, ih, encodeChars_toList,
      List.map_cons, List.flatten_cons]

/-! ### Templates with each placeholder once -/

section Template

variable {token before behind : List Char}

/-- Behind the one place of a token there is no other. -/
theorem LeftToRight.not_infix_behind
    (h : LeftToRight token (before ++ (token ++ behind)) [before.length]) :
    ¬token <:+: behind := by
  rintro ⟨s, t, rfl⟩
  obtain ⟨q, hq, -, hlt⟩ := h.covers (before.length + (token.length + s.length)) (by simp)
  obtain rfl := List.mem_singleton.1 hq
  omega

/-- Nor is there one before it. -/
theorem LeftToRight.not_infix_before (ht : token ≠ [])
    (h : LeftToRight token (before ++ (token ++ behind)) [before.length]) :
    ¬token <:+: before := by
  rintro ⟨s, t, rfl⟩
  obtain ⟨q, hq, hle, -⟩ := h.covers s.length (by simp)
  obtain rfl := List.mem_singleton.1 hq
  have := List.length_pos_of_ne_nil ht
  simp only [List.length_append] at hle
  omega

/-- If two tokens have one place each, neither stands in what is around them. -/
theorem not_infix_of_single {first second a b c : List Char} (hf : first ≠ []) (hs : second ≠ [])
    (hfirst : LeftToRight first (a ++ (first ++ (b ++ (second ++ c)))) [a.length])
    (hsecond : LeftToRight second (a ++ (first ++ (b ++ (second ++ c))))
      [a.length + first.length + b.length]) :
    ∀ part ∈ [a, b, c], ¬first <:+: part ∧ ¬second <:+: part := by
  have hregroup : a ++ (first ++ (b ++ (second ++ c))) = (a ++ (first ++ b)) ++ (second ++ c) := by
    simp
  have hlength : a.length + first.length + b.length = (a ++ (first ++ b)).length := by
    simp [Nat.add_assoc]
  rw [hregroup, hlength] at hsecond
  have hbehind := hfirst.not_infix_behind
  have hbefore := hsecond.not_infix_before hs
  have hb : b <:+: b ++ (second ++ c) := (List.prefix_append _ _).isInfix
  have hc : c <:+: b ++ (second ++ c) := ⟨b ++ second, [], by simp⟩
  have ha : a <:+: a ++ (first ++ b) := (List.prefix_append _ _).isInfix
  have hb' : b <:+: a ++ (first ++ b) := ⟨a ++ first, [], by simp⟩
  simp only [List.forall_mem_cons, List.not_mem_nil, IsEmpty.forall_iff, implies_true, and_true]
  exact ⟨⟨hfirst.not_infix_before hf, fun h => hbefore (h.trans ha)⟩,
    ⟨fun h => hbehind (h.trans hb), fun h => hbefore (h.trans hb')⟩,
    fun h => hbehind (h.trans hc), hsecond.not_infix_behind⟩

/-- A template cut at its placeholders, with two texts in their places. -/
inductive Parts (template header implementation : String) : List String → Prop
  /-- The place for the definitions comes first. -/
  | headerFirst (a b c : String)
    (h : template = String.join [a, headerPlaceholder, b, implementationPlaceholder, c]) :
    Parts template header implementation [a, header, b, implementation, c]
  /-- The place for the implementation comes first. -/
  | implementationFirst (a b c : String)
    (h : template = String.join [a, implementationPlaceholder, b, headerPlaceholder, c]) :
    Parts template header implementation [a, implementation, b, header, c]

/-- A module is a template cut at its placeholders, and no part of the template holds another
    one. -/
theorem exists_parts {template implementation module : String} {declarations : List Declaration}
    (h : synthesize template declarations implementation = .ok module) :
    ∃ parts, Parts template (headerDefinitions declarations) implementation parts ∧
      module = String.join parts ∧ ∀ part ∈ parts,
        part = headerDefinitions declarations ∨ part = implementation ∨ ¬HasPlaceholder part := by
  have hsynthesis := synthesis_synthesize template declarations implementation
  have hheader := (leftToRight_iff headerToken_ne_nil template.toList _).2 rfl
  have himplementation := (leftToRight_iff implementationToken_ne_nil template.toList _).2 rfl
  rw [h] at hsynthesis
  generalize occurrences headerToken template.toList = hs at hsynthesis hheader
  generalize occurrences implementationToken template.toList = ks at hsynthesis himplementation
  cases hsynthesis with
  | headerFirst a b c htext =>
    rw [htext] at hheader himplementation
    have hnone := not_infix_of_single headerToken_ne_nil implementationToken_ne_nil hheader
      himplementation
    refine ⟨_, .headerFirst (.ofList a) (.ofList b) (.ofList c) ?_, ?_, ?_⟩
    · exact String.toList_injective (by simp [htext])
    · exact String.toList_injective (by simp)
    · simp only [List.forall_mem_cons, List.not_mem_nil, IsEmpty.forall_iff, implies_true,
        and_true] at hnone
      simp [hasPlaceholder_ofList_iff, hnone]
  | implementationFirst a b c htext =>
    rw [htext] at hheader himplementation
    have hnone := not_infix_of_single implementationToken_ne_nil headerToken_ne_nil himplementation
      hheader
    refine ⟨_, .implementationFirst (.ofList a) (.ofList b) (.ofList c) ?_, ?_, ?_⟩
    · exact String.toList_injective (by simp [htext])
    · exact String.toList_injective (by simp)
    · simp only [List.forall_mem_cons, List.not_mem_nil, IsEmpty.forall_iff, implies_true,
        and_true] at hnone
      simp [hasPlaceholder_ofList_iff, hnone]

/-- Across no junction of sealed texts and a template does a placeholder stand. -/
theorem Parts.not_across_junction {template header implementation : String} {parts : List String}
    (h : Parts template header implementation parts) (hheader : Sealed header)
    (himplementation : Sealed implementation) {token : String} (ht : token ∈ placeholders) {p : Nat}
    (hp : encode token <+: (parts.map encode).flatten.drop p) :
    ¬∃ n ∈ junctions (parts.map encode), p < n ∧ n < p + (encode token).length := by
  cases h with
  | headerFirst a b c => exact (hheader token ht).not_across_junction (himplementation token ht) hp
  | implementationFirst a b c =>
    exact (himplementation token ht).not_across_junction (hheader token ht) hp

/-- If neither the definitions nor the implementation holds a placeholder, one stands in the module
    only across a junction of the template and what is put in; and there is none if neither text
    makes one up with what it is put next to. -/
theorem placeholder_at_junction (template : String) (declarations : List Declaration)
    (implementation module : String) (hheader : ¬HasPlaceholder (headerDefinitions declarations))
    (himplementation : ¬HasPlaceholder implementation)
    (h : synthesize template declarations implementation = .ok module) :
    (∃ parts, Parts template (headerDefinitions declarations) implementation parts ∧
      module = String.join parts ∧ (∀ part ∈ parts, ¬HasPlaceholder part) ∧
      ∀ token ∈ placeholders, ∀ p, encode token <+: (encode module).drop p →
        ∃ n ∈ junctions (parts.map encode), p < n ∧ n < p + (encode token).length) ∧
    (Sealed (headerDefinitions declarations) → Sealed implementation → ¬HasPlaceholder module) := by
  obtain ⟨parts, hparts, rfl, hnone⟩ := exists_parts h
  have hclean : ∀ part ∈ parts, ¬HasPlaceholder part := by
    intro part hpart
    rcases hnone part hpart with rfl | rfl | hnone
    · exact hheader
    · exact himplementation
    · exact hnone
  have hcrosses : ∀ token ∈ placeholders, ∀ p,
      encode token <+: (encode (String.join parts)).drop p →
        ∃ n ∈ junctions (parts.map encode), p < n ∧ n < p + (encode token).length := by
    intro token ht p hp
    rw [encode_join] at hp
    refine (infix_or_crosses hp (encode_placeholder token ht).1).resolve_left ?_
    rintro ⟨bs, hbs, hinfix⟩
    obtain ⟨part, hpart, rfl⟩ := List.mem_map.1 hbs
    exact hclean part hpart ⟨token, ht, hinfix⟩
  refine ⟨⟨parts, hparts, rfl, hclean, hcrosses⟩, ?_⟩
  rintro hsealed hsealed' ⟨token, ht, s, t, hinfix⟩
  have hp : encode token <+: (encode (String.join parts)).drop s.length := by
    rw [← hinfix, List.append_assoc, List.drop_left]
    exact List.prefix_append _ _
  exact hparts.not_across_junction hsealed hsealed' ht (encode_join parts ▸ hp)
    (hcrosses token ht _ hp)

/-- No placeholder is left where a prototype and a function are put in. -/
theorem placeholder_at_junction_prototype :
    ¬HasPlaceholder (headerDefinitions [⟨.prototype, "int f(void);", 0⟩]) ∧
      ¬HasPlaceholder "int f(void) { return 1; }" ∧
      synthesize "__HEADER_DEFINITIONS____FUNCTIONS_IMPLEMENTATION__"
        [⟨.prototype, "int f(void);", 0⟩] "int f(void) { return 1; }" =
          .ok "int f(void);int f(void) { return 1; }" ∧
      ¬HasPlaceholder "int f(void);int f(void) { return 1; }" := by
  have hheader : ¬HasPlaceholder (headerDefinitions [⟨.prototype, "int f(void);", 0⟩]) := by
    decide +kernel
  have himplementation : ¬HasPlaceholder "int f(void) { return 1; }" := by decide +kernel
  have hmodule : synthesize "__HEADER_DEFINITIONS____FUNCTIONS_IMPLEMENTATION__"
      [⟨.prototype, "int f(void);", 0⟩] "int f(void) { return 1; }" =
        .ok "int f(void);int f(void) { return 1; }" := by decide +kernel
  exact ⟨hheader, himplementation, hmodule,
    (placeholder_at_junction _ _ _ _ hheader himplementation hmodule).2 (by decide +kernel)
      (by decide +kernel)⟩

/-- An implementation that holds no placeholder ends one that the template starts. -/
theorem placeholder_across_junction :
    ¬∀ template declarations implementation module,
      ¬HasPlaceholder (headerDefinitions declarations) → ¬HasPlaceholder implementation →
        synthesize template declarations implementation = .ok module → ¬HasPlaceholder module := by
  intro h
  exact h "__HEADER__FUNCTIONS_IMPLEMENTATION__ __HEADER_DEFINITIONS__" [] "_DEFINITIONS__"
    "__HEADER_DEFINITIONS__ " (by decide +kernel) (by decide +kernel) (by decide +kernel)
    (by decide +kernel)

end Template

end TestBench
