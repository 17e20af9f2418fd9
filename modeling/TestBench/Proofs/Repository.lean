import TestBench.Proofs.Path
import TestBench.Proofs.Web.Address
import TestBench.Repository

/-!
# Which addresses are accepted

An address is accepted for what it leads to, and not for how it is written. So besides the short
form, which is compared character by character, an address is accepted in every spelling in which
it leads to a page with an organisation and a repository on the supported host (`IsPage`): with
blanks around it, with capital letters and turned slashes, with the name of a user and with a port.
Only where none of these liberties is taken, the address starts with the scheme and the host as they
are (`complain_plain_iff`).

* `complain_eq_none_iff`: there is nothing to complain about the short form and about such pages;
* `check_accepts`: what is accepted, and what of it is written in the plain way.
-/

namespace TestBench.Repository

open Web Web.Address

variable {cs host path : List Char}

/-- Whether a text is the short form of an address, with an organisation and a repository. -/
def IsShort (cs : List Char) : Prop :=
  ∃ organisation repository, cs = shortStart ++ organisation ++ '/' :: repository ∧
    isName organisation ∧ isName repository

/-- Whether a text, without what does not count, is an address that leads to a page on the supported
    host, with an organisation and a repository. -/
def IsPage (cs : List Char) : Prop :=
  ∃ path, IsHttps supportedHost.toList path (significant cs) ∧ 2 ≤ named (segmentsOf .web path)

/-! ### The short form -/

theorem slash_notMem_of_isName {name : List Char} (h : isName name) : '/' ∉ name := by
  intro hmem
  rw [isName, Bool.and_eq_true, List.all_eq_true] at h
  exact absurd (h.2 _ hmem) (by decide)

theorem isShortForm_iff : isShortForm cs ↔ IsShort cs := by
  rw [isShortForm, Bool.and_eq_true]
  constructor
  · rintro ⟨hstart, hnames⟩
    obtain ⟨rest, rfl⟩ := List.isPrefixOf_iff_prefix.1 hstart
    rw [List.drop_left] at hnames
    split at hnames
    next organisation repository hpieces =>
      rw [Bool.and_eq_true] at hnames
      refine ⟨organisation, repository, ?_, hnames.1, hnames.2⟩
      rw [← Text.intercalate_pieces '/' rest, hpieces]
      simp [List.intercalate]
    next => cases hnames
  · rintro ⟨organisation, repository, rfl, ho, hr⟩
    rw [List.append_assoc, List.drop_left, Text.pieces_append,
      Path.pieces_of_slash_notMem (slash_notMem_of_isName ho),
      Path.pieces_of_slash_notMem (slash_notMem_of_isName hr)]
    refine ⟨List.isPrefixOf_iff_prefix.2 (List.prefix_append _ _), ?_⟩
    rw [List.singleton_append, Bool.and_eq_true]
    exact ⟨ho, hr⟩

/-! ### Pages -/

theorem complainOfPage_eq_none_iff {a : Address} :
    complainOfPage a = none ↔ a.scheme = "https" ∧ a.host.map Host.text = some supportedHost ∧
      2 ≤ named (a.segments.getD []) := by
  rw [complainOfPage]
  by_cases hscheme : a.scheme = "https"
  · by_cases hhost : a.host.map Host.text = some supportedHost
    · rw [if_neg (not_not.2 hscheme), if_neg (not_not.2 hhost)]
      rw [← Nat.not_lt, named]
      split
      next hlt => simp [hlt]
      next hlt => simp [hlt, hscheme, hhost]
    · rw [if_neg (not_not.2 hscheme), if_pos hhost]
      simp [hhost]
  · rw [if_pos hscheme]
    simp [hscheme]

theorem isOwnForm_supportedHost : Domain.IsOwnForm supportedHost.toList :=
  ⟨List.all_eq_true.1 (by decide), by simp [supportedHost, Domain.isForbidden], by decide⟩

theorem isPage_iff : IsPage cs ↔ ∃ a, parse cs = .ok a ∧ complainOfPage a = none := by
  have hiff : ∀ segments, (∃ a, parse cs = .ok a ∧ a.scheme = "https" ∧
      a.host.map Host.text = some supportedHost ∧ a.segments = some segments) ↔
      ∃ path, IsHttps supportedHost.toList path (significant cs) ∧
        segments = segmentsOf .web path := by
    intro segments
    have h := @parse_https_iff cs _ isOwnForm_supportedHost (by decide +kernel)
      ⟨'g', by decide, by decide⟩ segments
    rwa [String.ofList_toList] at h
  constructor
  · rintro ⟨path, h, hle⟩
    obtain ⟨a, hparse, hscheme, hhost, hsegments⟩ := (hiff _).2 ⟨path, h, rfl⟩
    exact ⟨a, hparse, complainOfPage_eq_none_iff.2 ⟨hscheme, hhost, by rw [hsegments]; exact hle⟩⟩
  · rintro ⟨a, hparse, hnone⟩
    obtain ⟨hscheme, hhost, hle⟩ := complainOfPage_eq_none_iff.1 hnone
    cases hsegments : a.segments with
    | none =>
      rw [hsegments] at hle
      exact absurd hle (by decide)
    | some segments =>
      obtain ⟨path, h, rfl⟩ := (hiff segments).1 ⟨a, hparse, hscheme, hhost, hsegments⟩
      rw [hsegments] at hle
      exact ⟨path, h, hle⟩

/-! ### What is accepted -/

theorem not_isBlank_of_isAlpha {c : Char} (h : c.isAlpha) : ¬Text.isBlank c := by
  have hletter := Host.isAlpha_iff.1 h
  simp only [Text.isBlank, Bool.or_eq_true, Bool.and_eq_true, decide_eq_true_eq, beq_iff_eq]
  omega

/-- The address of a page starts with the scheme, as far as it counts. -/
theorem exists_of_isPage (h : IsPage cs) :
    ∃ c rest, significant cs = c :: rest ∧ c.toLower = 'h' := by
  obtain ⟨path, h, -⟩ := h
  generalize significant cs = text at h
  cases h with
  | @mk scheme slashes user host port hscheme =>
    cases scheme with
    | nil => cases hscheme
    | cons c scheme => exact ⟨c, _, rfl, (List.cons.inj hscheme).1⟩

theorem mem_of_mem_significant {c : Char} (h : c ∈ significant cs) : c ∈ cs := by
  have hmem := List.mem_reverse.1 ((List.dropWhile_suffix _).subset
    (List.mem_reverse.1 (List.mem_filter.1 h).1))
  exact (List.dropWhile_suffix _).subset hmem

/-- What is not padding counts in front. -/
theorem exists_significant_cons {c : Char} (hpadding : isPadding c = false)
    (hskipped : isSkipped c = false) (cs : List Char) :
    ∃ rest, significant (c :: cs) = c :: rest := by
  obtain ⟨rest, hrest⟩ : ∃ rest, ((c :: cs).reverse.dropWhile isPadding).reverse = c :: rest := by
    rw [List.reverse_cons, List.dropWhile_append]
    split
    · exact ⟨[], by simp [hpadding]⟩
    · exact ⟨_, by rw [List.reverse_append]; rfl⟩
  refine ⟨rest.filter (!isSkipped ·), ?_⟩
  rw [significant, List.dropWhile_cons_of_neg (by simp [hpadding]), hrest,
    List.filter_cons_of_pos (by simp [hskipped])]

/-- There is nothing to complain about the short form and about a page, however it is spelled. -/
theorem complain_eq_none_iff {text : String} :
    complain text = none ↔ IsShort text.toList ∨ IsPage text.toList := by
  rw [complain]
  generalize text.toList = cs
  have hshort : IsShort cs → shortMark <+: cs := by
    rintro ⟨organisation, repository, rfl, -⟩
    rw [List.append_assoc]
    exact List.IsPrefix.trans (by decide) (List.prefix_append shortStart _)
  split
  next hblank =>
    rw [List.all_eq_true] at hblank
    refine iff_of_false nofun ?_
    rintro (h | h)
    · have hg : 'g' ∈ cs := (hshort h).subset (by decide)
      exact absurd (hblank _ hg) (by decide)
    · obtain ⟨c, rest, hsignificant, hc⟩ := exists_of_isPage h
      have hmem : c ∈ cs := mem_of_mem_significant (by rw [hsignificant]; exact List.mem_cons_self)
      exact not_isBlank_of_isAlpha (isAlpha_of_toLower (by rw [hc]; decide)) (hblank c hmem)
  next =>
    split
    next hmark =>
      have hpage : ¬IsPage cs := by
        intro h
        obtain ⟨c, rest, hsignificant, hc⟩ := exists_of_isPage h
        obtain ⟨behind, rfl⟩ := List.isPrefixOf_iff_prefix.1 hmark
        obtain ⟨rest', hrest'⟩ := exists_significant_cons (c := 'g') (by decide) (by decide)
          ("it@".toList ++ behind)
        rw [show shortMark ++ behind = 'g' :: ("it@".toList ++ behind) from rfl,
          hrest'] at hsignificant
        rw [← (List.cons.inj hsignificant).1] at hc
        exact absurd hc (by decide)
      rw [or_iff_left hpage, ← isShortForm_iff]
      split <;> simp_all
    next hmark =>
      rw [or_iff_right fun h => hmark (List.isPrefixOf_iff_prefix.2 (hshort h)), isPage_iff]
      cases parse cs with
      | error fault => simp
      | ok a => simp

/-! ### What is written in the plain way -/

/-- Whether a character may stand in a host that is written in the plain way: it is a visible one of
    ASCII, no capital letter, and none that has a meaning in an address. -/
def IsPlain (c : Char) : Prop :=
  0x20 < c.toNat ∧ c.toNat < 0x7F ∧ c.toLower = c ∧
    c ∉ ['%', '@', ':', '[', '/', '\\', '?', '#']

theorem endsAuthority_of_isPlain {c : Char} (h : IsPlain c) : endsAuthority .web c = false := by
  obtain ⟨-, -, -, hmem⟩ := h
  simp only [List.mem_cons, List.not_mem_nil, or_false, not_or] at hmem
  simp [endsAuthority, isSlash, hmem]

/-- The host without a port is all that is in front of the path. -/
theorem splitPort_of_isPlain (h : ∀ c ∈ host, IsPlain c) : splitPort false host = (host, []) := by
  induction host with
  | nil => rfl
  | cons c host ih =>
    rw [List.forall_mem_cons] at h
    have hmem := h.1.2.2.2
    simp only [List.mem_cons, List.not_mem_nil, or_false, not_or] at hmem
    rw [splitPort, if_neg (by simp [hmem]), if_neg hmem.2.2.2.1, ite_self]
    dsimp only
    rw [ih h.2]

/-- What is in front of the path is the host, and it leads to itself. -/
theorem leads_iff_of_isPlain {d : List Char} (h : ∀ c ∈ host, IsPlain c) :
    Host.Leads host d ↔ host = d := by
  have hlower : host.map Char.toLower = host := by
    rw [List.map_congr_left fun c hc => (h c hc).2.2.1, List.map_id']
  rw [Host.leads_iff_of_ascii, hlower]
  · exact fun c hc => Nat.lt_succ_of_lt (h c hc).2.1
  · exact fun hmem => (h _ hmem).2.2.2 (by simp)

/-- What is written in the plain way can be taken apart in one way only. -/
theorem isHttps_plain_iff {d behind : List Char} (hd : d ≠ []) (hhost : ∀ c ∈ host, IsPlain c)
    (hne : host ≠ []) :
    IsHttps d behind ("https://".toList ++ (host ++ '/' :: path)) ↔
      host = d ∧ behind = '/' :: path := by
  have hends : ∀ c ∈ host, endsAuthority .web c = false := fun c hc =>
    endsAuthority_of_isPlain (hhost c hc)
  have hnot : ∀ c ∈ ['@', ':', '['], c ∉ host := fun c hc hmem => (hhost c hmem).2.2.2 (by
    simp only [List.mem_cons, List.not_mem_nil, or_false] at hc ⊢
    tauto)
  have hslash : endsAuthority .web '/' = true := by decide
  have hstart : ∀ {front behind : List Char}, front ≠ [] →
      (∀ c ∈ front, endsAuthority .web c = false) →
      ∀ c ∈ (front ++ behind).head?, isSlash .web c = false := by
    intro front behind hfront hends c hc
    rw [List.head?_append_of_ne_nil _ hfront] at hc
    exact not_isSlash_of_not_endsAuthority (hends c (List.mem_of_mem_head? hc))
  constructor
  · intro h
    generalize htext : "https://".toList ++ (host ++ '/' :: path) = text at h
    cases h with
    | @mk scheme slashes user host' port hscheme hslashes huser hhost' hport hsplit hends' hpath =>
    have hlength : "https".toList.length = scheme.length := by
      rw [← hscheme, List.length_map]
    have hne' : host' ≠ [] := by
      rintro rfl
      exact hd ((Host.leads_iff_of_ascii (by simp) (by simp)).1 hhost'.2.2).symm
    rw [show "https://".toList = "https".toList ++ ':' :: "//".toList by decide, List.append_assoc,
      List.cons_append] at htext
    have hbehind := (List.cons.inj (List.append_inj htext hlength).2).2
    -- The slashes end where the host starts, and what names the host where the path starts.
    have hfront : host ++ '/' :: path = user ++ (host' ++ port) ++ behind := by
      have hslash : ∀ c ∈ "//".toList, isSlash .web c := List.all_eq_true.1 (by decide)
      rw [← (takeWhile_dropWhile_append hslash (hstart hne hends)).2, hbehind]
      exact (takeWhile_dropWhile_append (fun c hc => (isSlash_web c).2 (hslashes c hc))
        (hstart (by simp [hne']) hends')).2
    have hfrontApart := takeWhile_dropWhile_append (p := fun c => !endsAuthority .web c)
      (fun c hc => by rw [hends c hc]; rfl)
      (show ∀ c ∈ ('/' :: path).head?, _ from fun c hc => by
        obtain rfl := Option.some.inj hc
        rw [hslash]
        rfl)
    have hbehindApart := takeWhile_dropWhile_append (p := fun c => !endsAuthority .web c)
      (fun c hc => by rw [hends' c hc]; rfl) (fun c hc => by rw [hpath c hc]; rfl)
    rw [hfront] at hfrontApart
    have hnames := hbehindApart.1.symm.trans hfrontApart.1
    obtain rfl : user = [] := by
      rcases huser with rfl | ⟨u, rfl⟩
      · rfl
      · exact absurd (by rw [← hnames]; simp) (hnot '@' (by simp))
    obtain rfl : port = [] := by
      rcases hport with rfl | ⟨digits, n, rfl, -⟩
      · rfl
      · exact absurd (by rw [← hnames]; simp) (hnot ':' (by simp))
    rw [List.nil_append, List.append_nil] at hnames
    obtain rfl := hnames
    exact ⟨(leads_iff_of_isPlain hhost).1 hhost'.2.2, hbehindApart.2.symm.trans hfrontApart.2⟩
  · rintro ⟨rfl, rfl⟩
    have hleads := (leads_iff_of_isPlain hhost).2 rfl
    have hhead : host.head? ≠ some '[' := fun h => hnot '[' (by simp) (List.mem_of_mem_head? h)
    have h : IsHttps host ('/' :: path)
        ("https".toList ++ ':' :: ("//".toList ++ ([] ++ (host ++ []) ++ '/' :: path))) :=
      .mk (by decide) (by simp) (.inl rfl) ⟨hnot '@' (by simp), hhead, hleads⟩ (.inl rfl)
        (by rw [List.append_nil]; exact splitPort_of_isPlain hhost) (by simpa using hends)
        (by simp [endsAuthority, isSlash])
    simpa using h

/-- An address that is written in the plain way is accepted if and only if its host is the supported
    one, and its path names an organisation and a repository. -/
theorem complain_plain_iff {text : String}
    (htext : text.toList = "https://".toList ++ (host ++ '/' :: path))
    (hsignificant : significant text.toList = text.toList) (hhost : ∀ c ∈ host, IsPlain c)
    (hne : host ≠ []) :
    complain text = none ↔
      host = supportedHost.toList ∧ 2 ≤ named (segmentsOf .web ('/' :: path)) := by
  have hshort : ¬IsShort text.toList := by
    rintro ⟨organisation, repository, h, -⟩
    rw [htext] at h
    exact absurd (List.cons.inj h).1 (by decide)
  rw [complain_eq_none_iff, or_iff_right hshort, IsPage, hsignificant, htext]
  simp only [isHttps_plain_iff (show supportedHost.toList ≠ [] by decide) hhost hne]
  constructor
  · rintro ⟨behind, ⟨rfl, rfl⟩, hle⟩
    exact ⟨rfl, hle⟩
  · rintro ⟨rfl, hle⟩
    exact ⟨_, ⟨rfl, rfl⟩, hle⟩

/-- Without turned slashes, a path is cut at the slashes. -/
theorem piecesBy_isSlash (h : '\\' ∉ cs) :
    Text.piecesBy (isSlash .web) cs = Text.pieces '/' cs := by
  rw [Text.pieces]
  induction cs with
  | nil => rfl
  | cons c cs ih =>
    rw [List.mem_cons, not_or] at h
    have hc : isSlash .web c = (c == '/') := by
      simp [isSlash, Ne.symm h.1]
    rw [Text.piecesBy, Text.piecesBy, hc, ih h.2]

/-- The segments of a path that have a name are written there. -/
theorem named_segmentsOf_slash_le (h : '\\' ∉ path) :
    named (segmentsOf .web ('/' :: path)) ≤ named (Text.pieces '/' (pathPart path)) := by
  have hpart : pathPart ('/' :: path) = '/' :: pathPart path := rfl
  have hslash : '\\' ∉ pathPart path := fun hmem => h ((List.takeWhile_prefix _).subset hmem)
  refine (named_segmentsOf_le _ _).trans ?_
  rw [hpart, Text.piecesBy, if_pos (by decide), piecesBy_isSlash hslash, named_cons]
  exact Nat.le_of_eq (Nat.zero_add _)

/-- The value of a field is accepted as an address if and only if it is the short form, or leads to
    a page on the supported host, however it is spelled. If it is written in the plain way, it
    starts with the scheme and the host, and at least two segments of its path have a name. -/
theorem check_accepts (field text : String) :
    (check field text = .ok () ↔ IsShort text.toList ∨ IsPage text.toList) ∧
    ∀ host path, text.toList = "https://".toList ++ (host ++ '/' :: path) →
      significant text.toList = text.toList → (∀ c ∈ host, IsPlain c) → host ≠ [] →
      '\\' ∉ path → check field text = .ok () →
      host = "github.com".toList ∧ 2 ≤ named (Text.pieces '/' (pathPart path)) := by
  rw [check_eq_ok_iff]
  refine ⟨complain_eq_none_iff, fun host path htext hsignificant hhost hne hslash h => ?_⟩
  obtain ⟨rfl, hle⟩ := (complain_plain_iff htext hsignificant hhost hne).1 h
  exact ⟨rfl, hle.trans (named_segmentsOf_slash_le hslash)⟩

/-- An address with a blank in front of it, capital letters, turned slashes, the name of a user with
    a secret and a port is accepted, as it leads to the same page as the plain one. -/
theorem check_accepts_spelling :
    check "git_repo_url" " HTTPS:\\\\user:secret@GitHub.com:8443/org/repo" = .ok () ∧
    IsPage " HTTPS:\\\\user:secret@GitHub.com:8443/org/repo".toList ∧
    check "git_repo_url" "https://github.com/org/repo" = .ok () ∧
    significant "https://github.com/org/repo".toList = "https://github.com/org/repo".toList ∧
    (∀ c ∈ "github.com".toList, IsPlain c) ∧
    2 ≤ named (Text.pieces '/' (pathPart "org/repo".toList)) := by
  have hspelling :
      check "git_repo_url" " HTTPS:\\\\user:secret@GitHub.com:8443/org/repo" = .ok () := by
    decide +kernel
  have hplain : check "git_repo_url" "https://github.com/org/repo" = .ok () := by decide +kernel
  have hsignificant : significant "https://github.com/org/repo".toList =
      "https://github.com/org/repo".toList := by decide
  have hhost : ∀ c ∈ "github.com".toList, IsPlain c := by
    simp [IsPlain]
  have hpage := ((check_accepts _ _).1.1 hspelling).resolve_left (by
    rintro ⟨organisation, repository, h, -⟩
    exact absurd (List.cons.inj h).1 (by decide))
  exact ⟨hspelling, hpage, hplain, hsignificant, hhost,
    ((check_accepts _ _).2 "github.com".toList "org/repo".toList (by decide) hsignificant hhost
      (by decide) (by decide) hplain).2⟩

end TestBench.Repository
