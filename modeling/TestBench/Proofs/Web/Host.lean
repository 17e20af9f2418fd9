import TestBench.Proofs.Text.Decoding
import TestBench.Web.Host

/-!
# Names that lead to a host

The form of a domain name in ASCII spells the labels that are beyond ASCII with a mark in front, in
which there is an `x`. So a host without an `x` in its name is reached by a domain name if and only
if mapping and composing the name give the host (`toAscii_eq_some_iff`); no label of it was spelled.
What is written as a host may hold bytes as percent signs with two digits (`Leads`), and the number
of a machine is no name.

* `toAscii_eq_some_iff`: which domain names have such a form;
* `parse_iff_leads`: what is read as a host with such a name;
* `leads_iff_of_ascii`: in ASCII, only capital letters make a difference.
-/

namespace TestBench.Web

namespace Domain

variable {name d : List Char} {ps : List (List Char)} {labels : List Label}

/-! ### Labels -/

theorem written_of_readLabel {p : List Char} {l : Label} (h : readLabel p = some l) :
    l.written = p := by
  unfold readLabel at h
  dsimp only at h
  split at h
  · split at h
    · cases h
    · split at h
      · cases h
      · split at h
        · cases h
        · split at h
          · exact Option.some.inj h ▸ rfl
          · cases h
  · exact Option.some.inj h ▸ rfl

theorem map_written (h : ps.mapM readLabel = some labels) : labels.map Label.written = ps := by
  induction ps generalizing labels with
  | nil =>
    obtain rfl := Option.some.inj h
    rfl
  | cons p ps ih =>
    rw [List.mapM_cons] at h
    obtain ⟨l, hl, h⟩ := Option.bind_eq_some_iff.1 h
    obtain ⟨ls, hls, h⟩ := Option.bind_eq_some_iff.1 h
    obtain rfl := Option.some.inj h
    rw [List.map_cons, written_of_readLabel hl, ih hls]

/-- A label that spells nothing is read as it is. -/
theorem mapM_readLabel (h : ∀ p ∈ ps, ¬spellingMark.isPrefixOf p) :
    ps.mapM readLabel = some (ps.map fun p => ⟨p, p⟩) := by
  induction ps with
  | nil => rfl
  | cons p ps ih =>
    rw [List.forall_mem_cons] at h
    rw [List.mapM_cons, readLabel, if_neg h.1, ih h.2]
    rfl

theorem mapM_asciiOf (h : ∀ l ∈ labels, l.written.all isPlain) :
    labels.mapM Label.asciiOf = some (labels.map Label.written) := by
  induction labels with
  | nil => rfl
  | cons l labels ih =>
    rw [List.forall_mem_cons] at h
    rw [List.mapM_cons, asciiOf_of_plain h.1, ih h.2]
    rfl

/-- A label whose form has no `x` was not spelled. -/
theorem written_of_asciiOf {l : Label} {a : List Char} (h : l.asciiOf = some a) (hx : 'x' ∉ a) :
    a = l.written := by
  unfold Label.asciiOf at h
  split at h
  · exact (Option.some.inj h).symm
  · split at h
    · cases h
    · obtain rfl := Option.some.inj h
      exact absurd (List.mem_append_left _ (by decide)) hx

theorem map_written_of_mapM_asciiOf {as : List (List Char)}
    (h : labels.mapM Label.asciiOf = some as) (hx : ∀ a ∈ as, 'x' ∉ a) :
    as = labels.map Label.written := by
  induction labels generalizing as with
  | nil =>
    obtain rfl := Option.some.inj h
    rfl
  | cons l labels ih =>
    rw [List.mapM_cons] at h
    obtain ⟨a, ha, h⟩ := Option.bind_eq_some_iff.1 h
    obtain ⟨bs, hbs, h⟩ := Option.bind_eq_some_iff.1 h
    obtain rfl := Option.some.inj h
    rw [List.forall_mem_cons] at hx
    rw [List.map_cons, ← written_of_asciiOf ha hx.1, ← ih hbs hx.2]

theorem mem_intercalate {separator a : List Char} {as : List (List Char)} {c : Char} (ha : a ∈ as)
    (hc : c ∈ a) : c ∈ separator.intercalate as := by
  induction as with
  | nil => cases ha
  | cons b as ih =>
    cases as with
    | nil => simp_all [List.intercalate]
    | cons b' as =>
      rw [List.intercalate_cons_cons, List.mem_append, List.mem_append]
      rcases List.mem_cons.1 ha with rfl | ha
      · exact .inl (.inl hc)
      · exact .inr (ih ha)

/-! ### The form in ASCII -/

/-- Whether a text is a domain name that is its own form: its characters are plain and not
    forbidden, and no label of it is spelled. -/
structure IsOwnForm (d : List Char) : Prop where
  plain : ∀ c ∈ d, isPlain c
  allowed : ∀ c ∈ d, isForbidden c = false
  unspelled : 'x' ∉ d

/-- A domain name has a form of its own if and only if mapping and composing it give that form. -/
theorem toAscii_eq_some_iff (hd : IsOwnForm d) :
    toAscii name = some d ↔
      ∃ mapped, mapAll name = some mapped ∧ Text.Normal.compose mapped = d := by
  rw [toAscii]
  cases hmapped : mapAll name with
  | none => simp
  | some mapped =>
  simp only [Option.some.injEq, exists_eq_left']
  constructor
  · intro h
    split at h
    · cases h
    next labels hlabels =>
      split at h
      · obtain ⟨as, has, rfl⟩ := Option.map_eq_some_iff.1 h
        have hx : ∀ a ∈ as, 'x' ∉ a := fun a ha hx => hd.unspelled (mem_intercalate ha hx)
        rw [map_written_of_mapM_asciiOf has hx, map_written hlabels]
        exact (Text.intercalate_pieces _ _).symm
      · cases h
  · rintro rfl
    generalize Text.Normal.compose mapped = d at hd
    have hmem : ∀ p ∈ Text.pieces '.' d, ∀ c ∈ p, c ∈ d := fun p hp c hc =>
      Text.mem_of_mem_piecesBy hp hc
    have hplain : ∀ p ∈ Text.pieces '.' d, ∀ c ∈ p, c.toNat < 0x80 := fun p hp c hc =>
      decide_eq_true_iff.1 (hd.plain c (hmem p hp c hc))
    have hread : (Text.pieces '.' d).mapM readLabel =
        some ((Text.pieces '.' d).map fun p => ⟨p, p⟩) := by
      refine mapM_readLabel fun p hp hmark => hd.unspelled (hmem p hp 'x' ?_)
      obtain ⟨rest, rfl⟩ := List.isPrefixOf_iff_prefix.1 hmark
      exact List.mem_append_left _ (by decide)
    rw [hread]
    dsimp only
    generalize hlabels : (Text.pieces '.' d).map (fun p => (⟨p, p⟩ : Label)) = labels
    have hlabel : ∀ l ∈ labels, l.written ∈ Text.pieces '.' d ∧ l.text = l.written := by
      intro l hl
      obtain ⟨p, hp, rfl⟩ := List.mem_map.1 (hlabels ▸ hl)
      exact ⟨hp, rfl⟩
    have hvalid : (labels.all Label.isValid && directionsFit (labels.map Label.text)) = true := by
      rw [Bool.and_eq_true, List.all_eq_true]
      refine ⟨fun l hl => ?_, directionsFit_of_plain fun p hp => ?_⟩
      · obtain ⟨hp, htext⟩ := hlabel l hl
        have hallowed : l.written.any isForbidden = false := by
          rw [List.any_eq_false]
          exact fun c hc => by rw [hd.allowed c (hmem _ hp c hc)]; exact Bool.false_ne_true
        rw [Label.isValid, htext, hallowed, startsWell_of_plain (hplain _ hp),
          joinersFit_of_plain (hplain _ hp)]
        rfl
      · obtain ⟨l, hl, rfl⟩ := List.mem_map.1 hp
        rw [(hlabel l hl).2]
        exact hplain _ (hlabel l hl).1
    rw [if_pos hvalid, mapM_asciiOf]
    · rw [← hlabels, List.map_map]
      simpa [Function.comp_def] using Text.intercalate_pieces '.' d
    · intro l hl
      rw [List.all_eq_true]
      exact fun c hc => hd.plain c (hmem _ (hlabel l hl).1 c hc)

end Domain

namespace Host

variable {cs d : List Char}

/-- Whether what is written as a host leads to a name: its bytes spell a text, and mapping and
    composing that text give the name. -/
def Leads (cs d : List Char) : Prop :=
  ∃ name mapped, Utf8.decode (decodePercent cs) = .ok name ∧
    Domain.mapAll name.toList = some mapped ∧ Text.Normal.compose mapped = d

/-- The number of a machine is shown in figures. -/
theorem isDigit_of_mem_display {address : Nat} {c : Char}
    (h : c ∈ (Ipv4.display address).toList) : c.isDigit ∨ c = '.' := by
  have hdigits : ∀ n : Nat, c ∈ (toString n).toList → c.isDigit := by
    intro n hc
    rw [show toString n = n.repr from rfl, Nat.repr, String.toList_ofList] at hc
    exact Nat.isDigit_of_mem_toDigits (by decide) (by decide) hc
  have hdot : c ∈ ".".toList → c = '.' := by simp
  simp only [Ipv4.display, String.toList_append, List.mem_append] at h
  rcases h with ((((((h | h) | h) | h) | h) | h) | h)
  exacts [.inl (hdigits _ h), .inr (hdot h), .inl (hdigits _ h), .inr (hdot h), .inl (hdigits _ h),
    .inr (hdot h), .inl (hdigits _ h)]

/-- The letters are those from `A` to `Z` and from `a` to `z`. -/
theorem isAlpha_iff {c : Char} :
    c.isAlpha ↔ 65 ≤ c.toNat ∧ c.toNat ≤ 90 ∨ 97 ≤ c.toNat ∧ c.toNat ≤ 122 := by
  change (decide ('A'.val ≤ c.val ∧ c.val ≤ 'Z'.val) ||
    decide ('a'.val ≤ c.val) && decide (c.val ≤ 'z'.val)) = true ↔ _
  simp only [Bool.or_eq_true, Bool.and_eq_true, decide_eq_true_eq, UInt32.le_iff_toNat_le]
  rfl

theorem not_isAlpha_of_mem_display {address : Nat} {c : Char}
    (h : c ∈ (Ipv4.display address).toList) : ¬c.isAlpha := by
  rcases isDigit_of_mem_display h with hdigit | rfl
  · rw [isAlpha_iff]
    simp only [Char.isDigit, Bool.and_eq_true, decide_eq_true_eq, UInt32.le_iff_toNat_le] at hdigit
    simp at hdigit
    omega
  · decide

/-- In brackets stands a number, which is shown with them. -/
theorem head_ne_of_parse (hd : Domain.IsOwnForm d) {h : Host} (hparse : parse cs = .ok h)
    (htext : h.text = String.ofList d) : cs.head? ≠ some '[' := by
  intro hhead
  obtain ⟨rest, rfl⟩ := List.head?_eq_some_iff.1 hhead
  rw [parse, bracketed] at hparse
  split at hparse
  · cases hparse
  · split at hparse
    · obtain rfl := Except.ok.inj hparse
      have hmem : '[' ∈ d := by
        have := congrArg String.toList htext
        rw [String.toList_ofList, text, String.toList_append, String.toList_append] at this
        rw [← this]
        simp
      exact absurd (hd.allowed _ hmem) (by decide)
    · cases hparse

/-- A number is shown in figures, so that what is shown with a letter is a name. -/
theorem eq_of_named {form : List Char} {h : Host} (hletter : ∃ c ∈ d, c.isAlpha)
    (hnamed : named form = .ok h) (htext : h.text = String.ofList d) : form = d := by
  rw [named] at hnamed
  split at hnamed
  · cases hnamed
  split at hnamed
  · split at hnamed
    next address _ =>
      obtain rfl := Except.ok.inj hnamed
      obtain ⟨letter, hletter, halpha⟩ := hletter
      have hmem : letter ∈ (Ipv4.display address).toList := by
        rw [← text, htext, String.toList_ofList]
        exact hletter
      exact absurd halpha (not_isAlpha_of_mem_display hmem)
    next => cases hnamed
  · obtain rfl := Except.ok.inj hnamed
    exact String.ofList_injective htext

theorem ne_cons_of_head (hhead : cs.head? ≠ some '[') (rest : List Char) : cs ≠ '[' :: rest := by
  rintro rfl
  exact hhead rfl

theorem leads_of_parse (hd : Domain.IsOwnForm d) (hletter : ∃ c ∈ d, c.isAlpha) {h : Host}
    (hparse : parse cs = .ok h) (htext : h.text = String.ofList d) : Leads cs d := by
  rw [parse.eq_2 cs (ne_cons_of_head (head_ne_of_parse hd hparse htext))] at hparse
  cases hname : Utf8.decode (decodePercent cs) with
  | error fault =>
    rw [hname] at hparse
    cases hparse
  | ok name =>
  rw [hname] at hparse
  dsimp only at hparse
  cases hascii : Domain.toAscii name.toList with
  | none =>
    rw [hascii] at hparse
    cases hparse
  | some form =>
  rw [hascii] at hparse
  rw [eq_of_named hletter hparse htext] at hascii
  obtain ⟨mapped, hmapped, hcompose⟩ := (Domain.toAscii_eq_some_iff hd).1 hascii
  exact ⟨name, mapped, hname, hmapped, hcompose⟩

theorem parse_of_leads (hd : Domain.IsOwnForm d) (hnumber : ¬Ipv4.endsInNumber d) (hne : d ≠ [])
    (hhead : cs.head? ≠ some '[') (hleads : Leads cs d) : parse cs = .ok (.domain d) := by
  obtain ⟨name, mapped, hname, hmapped, hcompose⟩ := hleads
  rw [parse.eq_2 cs (ne_cons_of_head hhead), hname]
  dsimp only
  rw [(Domain.toAscii_eq_some_iff hd).2 ⟨mapped, hmapped, hcompose⟩]
  dsimp only
  rw [named, if_neg (by simpa using hne), if_neg hnumber]

/-- What is read as a host with a name. -/
theorem parse_iff_leads (hd : Domain.IsOwnForm d) (hnumber : ¬Ipv4.endsInNumber d)
    (hletter : ∃ c ∈ d, c.isAlpha) :
    (∃ h, parse cs = .ok h ∧ h.text = String.ofList d) ↔ cs.head? ≠ some '[' ∧ Leads cs d := by
  constructor
  · rintro ⟨h, hparse, htext⟩
    exact ⟨head_ne_of_parse hd hparse htext, leads_of_parse hd hletter hparse htext⟩
  · rintro ⟨hhead, hleads⟩
    obtain ⟨letter, hmem, -⟩ := hletter
    exact ⟨_, parse_of_leads hd hnumber (List.ne_nil_of_mem hmem) hhead hleads, rfl⟩

theorem toLower_ascii {c : Char} (h : c.toNat < 0x80) : c.toLower.toNat < 0x80 := by
  have hall : ∀ n < 0x80, (Char.ofNat n).toLower.toNat < 0x80 := by decide +kernel
  have := hall c.toNat h
  rwa [Char.ofNat_toNat] at this

/-- In ASCII, what is written as a host leads to itself in small letters. -/
theorem leads_iff_of_ascii (h : ∀ c ∈ cs, c.toNat < 0x80) (hpercent : '%' ∉ cs) :
    Leads cs d ↔ cs.map Char.toLower = d := by
  have hname : Utf8.decode (decodePercent cs) = .ok (String.ofList cs) := by
    rw [decodePercent_of_plain hpercent]
    exact Utf8.decode_encodeChars cs
  have hmapped : Domain.mapAll cs = some (cs.map Char.toLower) := by
    have hmapM : cs.mapM Domain.mapped = some (cs.map fun c => [c.toLower]) := by
      clear hname hpercent
      induction cs with
      | nil => rfl
      | cons c cs ih =>
        rw [List.forall_mem_cons] at h
        rw [List.mapM_cons, Domain.mapped, if_pos h.1, ih h.2]
        rfl
    rw [Domain.mapAll, hmapM, Option.map_some, ← List.flatMap_def, List.map_eq_flatMap]
  have hcompose : Text.Normal.compose (cs.map Char.toLower) = cs.map Char.toLower := by
    refine Text.Normal.compose_of_plain ?_
    rw [List.all_map, List.all_eq_true]
    intro c hc
    have := toLower_ascii (h c hc)
    simp only [Function.comp_apply, Text.Normal.isPlain, decide_eq_true_eq]
    omega
  constructor
  · rintro ⟨name, mapped, hname', hmapped', rfl⟩
    obtain rfl := Except.ok.inj (hname.symm.trans hname')
    rw [String.toList_ofList, hmapped] at hmapped'
    obtain rfl := Option.some.inj hmapped'
    exact hcompose.symm
  · rintro rfl
    exact ⟨_, _, hname, by rw [String.toList_ofList, hmapped], hcompose⟩

end Host

end TestBench.Web
