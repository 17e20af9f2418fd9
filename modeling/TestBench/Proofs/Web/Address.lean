import Mathlib.Data.List.TakeWhile
import TestBench.Proofs.Web.Host
import TestBench.Web.Address

/-!
# What an address is made of

An address of the web is taken apart from the left: the scheme up to the first colon, slashes, what
names the host up to the next slash, and the path. In what names the host, the name of a user ends
at the last `@`, and the port starts at the first colon that is not in brackets. Each part is told
by how it is written (`splitScheme_https_iff`, `splitUser_iff`, `checkPort_iff`), and so the whole.

* `parse_https_iff`: what an address with the scheme `https` is made of;
* `length_segmentsOf_le`: following the dots of a path adds no segment with a name.
-/

namespace TestBench.Web.Address

variable {cs rest name scheme authority user host port digits path : List Char} {c : Char}
  {more hasUser : Bool} {n : Nat} {kind : SchemeKind}

/-! ### The scheme -/

/-- A capital letter or a small one is a letter. -/
theorem isAlpha_of_toLower (h : c.toLower.isAlpha) : c.isAlpha := by
  unfold Char.toLower at h
  split at h
  next hupper =>
    rw [Host.isAlpha_iff]
    exact .inl ⟨UInt32.le_iff_toNat_le.1 hupper.1, UInt32.le_iff_toNat_le.1 hupper.2⟩
  next => exact h

theorem isSchemeChar_of_isAlpha (h : c.isAlpha) : isSchemeChar c := by
  simp [isSchemeChar, Char.isAlphanum, h]

/-- A scheme of letters ends at the first colon. -/
theorem splitScheme_iff (hletters : ∀ c ∈ name, c.isAlpha) (hne : name ≠ []) :
    splitScheme cs = some (name, rest) ↔
      ∃ scheme, cs = scheme ++ ':' :: rest ∧ scheme.map Char.toLower = name := by
  constructor
  · intro h
    cases cs with
    | nil => cases h
    | cons c cs =>
      rw [splitScheme] at h
      split at h
      · cases h
      split at h
      next behind hbehind =>
        obtain ⟨hname, rfl⟩ := Prod.mk.inj (Option.some.inj h)
        refine ⟨_, ?_, hname⟩
        rw [← hbehind, List.takeWhile_append_dropWhile]
      next => cases h
  · rintro ⟨scheme, rfl, rfl⟩
    have halpha : ∀ c ∈ scheme, c.isAlpha := fun c hc =>
      isAlpha_of_toLower (hletters _ (List.mem_map_of_mem hc))
    have hscheme : ∀ c ∈ scheme, isSchemeChar c := fun c hc => isSchemeChar_of_isAlpha (halpha c hc)
    obtain ⟨c, scheme, rfl⟩ :=
      List.exists_cons_of_ne_nil (mt (congrArg (List.map Char.toLower)) hne)
    have hcolon : isSchemeChar ':' = false := by decide
    rw [List.cons_append, splitScheme, if_neg, ← List.cons_append,
      List.dropWhile_append_of_pos hscheme, List.takeWhile_append_of_pos hscheme]
    · simp [hcolon]
    · simp [halpha c List.mem_cons_self]

/-! ### What names the host -/

theorem splitUser_append (hat : '@' ∉ host) :
    splitUser (user ++ '@' :: host) more =
      if user.isEmpty then
        if host.isEmpty && more then .error .emptyHost else .ok (false, host)
      else .ok (user != [':'], host) := by
  have hall : ∀ c ∈ host.reverse, (c != '@') = true := by
    intro c hc
    rw [bne_iff_ne]
    rintro rfl
    exact hat (List.mem_reverse.1 hc)
  have hreverse : (user ++ '@' :: host).reverse = host.reverse ++ '@' :: user.reverse := by simp
  rw [splitUser, if_pos (by simp), hreverse, List.takeWhile_append_of_pos hall,
    List.dropWhile_append_of_pos hall]
  simp

/-- The name of a user ends at the last `@`. -/
theorem splitUser_iff (hne : host ≠ []) :
    (∃ hasUser, splitUser authority more = .ok (hasUser, host)) ↔
      ∃ user, authority = user ++ host ∧ '@' ∉ host ∧ (user = [] ∨ ∃ u, user = u ++ ['@']) := by
  constructor
  · rintro ⟨hasUser, h⟩
    by_cases hat : '@' ∈ authority
    · obtain ⟨behind, before, hreverse, hbehind⟩ :=
        List.eq_append_cons_of_mem (List.mem_reverse.2 hat)
      obtain rfl : authority = before.reverse ++ '@' :: behind.reverse := by
        rw [← List.reverse_reverse authority, hreverse]
        simp
      have hbehind' : '@' ∉ behind.reverse := by simpa using hbehind
      rw [splitUser_append hbehind'] at h
      obtain rfl : behind.reverse = host := by
        split at h
        · split at h
          · cases h
          · exact (Prod.mk.inj (Except.ok.inj h)).2
        · exact (Prod.mk.inj (Except.ok.inj h)).2
      exact ⟨before.reverse ++ ['@'], by simp, hbehind', .inr ⟨_, rfl⟩⟩
    · rw [splitUser, if_neg (by simpa using hat)] at h
      obtain rfl := (Prod.mk.inj (Except.ok.inj h)).2
      exact ⟨[], rfl, hat, .inl rfl⟩
  · rintro ⟨user, rfl, hat, rfl | ⟨u, rfl⟩⟩
    · exact ⟨false, by rw [splitUser, if_neg (by simpa using hat)]; rfl⟩
    · rw [List.append_assoc, List.singleton_append, splitUser_append hat]
      split
      · rw [if_neg (by simp [hne])]
        exact ⟨_, rfl⟩
      · exact ⟨_, rfl⟩

/-- What is split at the colon of the port. -/
theorem eq_append_of_splitPort {inBrackets : Bool} (h : splitPort inBrackets cs = (host, port)) :
    cs = host ++ port ∧ (port = [] ∨ ∃ digits, port = ':' :: digits) := by
  induction cs generalizing inBrackets host with
  | nil =>
    obtain ⟨rfl, rfl⟩ := Prod.mk.inj h
    exact ⟨rfl, .inl rfl⟩
  | cons c cs ih =>
    rw [splitPort] at h
    split at h
    next hcolon =>
      obtain ⟨rfl, rfl⟩ := Prod.mk.inj h
      simp only [Bool.and_eq_true, decide_eq_true_eq] at hcolon
      exact ⟨rfl, .inr ⟨cs, by rw [hcolon.1]⟩⟩
    next =>
      obtain ⟨rfl, rfl⟩ := Prod.mk.inj h
      obtain ⟨hcs, hport⟩ := ih (Prod.eta _).symm
      exact ⟨by rw [List.cons_append, ← hcs], hport⟩

theorem digit?_ten (c : Char) :
    Text.digit? 10 c = if c.isDigit then some (c.toNat - '0'.toNat) else none := by
  have hdigit : c.isDigit ↔ 48 ≤ c.toNat ∧ c.toNat ≤ 57 := by
    simp only [Char.isDigit, Bool.and_eq_true, decide_eq_true_eq, ge_iff_le, UInt32.le_iff_toNat_le]
    rfl
  have hle : ∀ a b : Char, a ≤ b ↔ a.toNat ≤ b.toNat := fun a b => UInt32.le_iff_toNat_le
  have hzero : '0'.toNat = 48 := rfl
  have hnine : '9'.toNat = 57 := rfl
  have ha : 'a'.toNat = 97 := rfl
  have hA : 'A'.toNat = 65 := rfl
  simp only [Text.digit?, Bool.and_eq_true, decide_eq_true_eq, hle, hdigit, hzero, hnine, ha, hA]
  by_cases h : 48 ≤ c.toNat ∧ c.toNat ≤ 57
  · rw [if_pos h, if_pos h, if_pos (by omega)]
  · rw [if_neg h, if_neg h, if_neg]
    split
    · omega
    · split <;> omega

/-- Digits that follow do not make a number less. -/
theorem le_of_numberFrom {m : Nat} (h : Text.numberFrom? 10 n digits = some m) : n ≤ m := by
  induction digits generalizing n with
  | nil => exact Nat.le_of_eq (Option.some.inj h)
  | cons c digits ih =>
    rw [Text.numberFrom?] at h
    split at h
    · have := ih h
      omega
    · cases h

theorem isDigit_of_numberFrom {m : Nat} (h : Text.numberFrom? 10 n digits = some m) :
    ∀ c ∈ digits, c.isDigit := by
  induction digits generalizing n with
  | nil => exact List.forall_mem_nil _
  | cons c digits ih =>
    rw [Text.numberFrom?, digit?_ten] at h
    by_cases hdigit : c.isDigit
    · rw [if_pos hdigit] at h
      exact List.forall_mem_cons.2 ⟨hdigit, ih h⟩
    · rw [if_neg hdigit] at h
      cases h

/-- A port is a number that is not too large. -/
theorem checkPort_iff (hslash : '\\' ∉ digits) (hn : n ≤ maxPort) :
    checkPort n digits = .ok () ↔ ∃ m, Text.numberFrom? 10 n digits = some m ∧ m ≤ maxPort := by
  induction digits generalizing n with
  | nil => exact iff_of_true rfl ⟨n, rfl, hn⟩
  | cons c digits ih =>
    rw [List.mem_cons, not_or] at hslash
    rw [checkPort, Text.numberFrom?, digit?_ten]
    by_cases hdigit : c.isDigit
    · rw [if_pos hdigit, if_pos hdigit]
      dsimp only
      by_cases hlarge : maxPort < n * 10 + (c.toNat - '0'.toNat)
      · rw [if_pos hlarge]
        refine iff_of_false (fun h => by cases h) ?_
        rintro ⟨m, hm, hle⟩
        have := le_of_numberFrom hm
        omega
      · rw [if_neg hlarge]
        exact ih hslash.2 (by omega)
    · rw [if_neg hdigit, if_neg hdigit, if_neg (Ne.symm hslash.1)]
      simp

/-- A host of the web is not empty, and its port is checked. -/
theorem hostOf_web_iff {result : Option Host} (hsplit : splitPort false cs = (host, port)) :
    hostOf .web hasUser cs = .ok result ↔
      host ≠ [] ∧ (∃ h, Host.parse host = .ok h ∧ result = some h) ∧
        checkPort 0 port.tail = .ok () := by
  rw [hostOf, hsplit]
  by_cases hne : host = []
  · subst hne
    simp [throw, throwThe, MonadExceptOf.throw, bind, Except.bind]
  · have hempty : host.isEmpty = false := by simpa using hne
    cases hparse : Host.parse host with
    | error fault => simp [hempty, hparse, bind, Except.bind]
    | ok h =>
      cases hport : checkPort 0 port.tail with
      | error fault => simp [hempty, hparse, hport, bind, Except.bind]
      | ok _ =>
        simp [hne, hempty, hparse, hport, bind, Except.bind, pure, Except.pure, eq_comm]

theorem withAuthority_eq_ok_iff {scheme : String} {a : Address} :
    withAuthority scheme kind cs = .ok a ↔ ∃ hasUser host h,
      splitUser (cs.takeWhile (!endsAuthority kind ·))
        (!(cs.dropWhile (!endsAuthority kind ·)).isEmpty) = .ok (hasUser, host) ∧
      hostOf kind hasUser host = .ok h ∧
      a = ⟨scheme, h, some (segmentsOf kind (cs.dropWhile (!endsAuthority kind ·)))⟩ := by
  rw [withAuthority]
  cases huser : splitUser (cs.takeWhile (!endsAuthority kind ·))
      (!(cs.dropWhile (!endsAuthority kind ·)).isEmpty) with
  | error fault => simp [bind, Except.bind]
  | ok found =>
    obtain ⟨hasUser, host⟩ := found
    cases hhost : hostOf kind hasUser host with
    | error fault => simp [hhost, bind, Except.bind]
    | ok h => simp [hhost, bind, Except.bind, pure, Except.pure, eq_comm]

/-! ### The whole -/

theorem scheme_ofFile {a : Address} (h : ofFile cs = .ok a) : a.scheme = "file" := by
  unfold ofFile at h
  split at h
  · split at h
    · dsimp only at h
      split at h
      · exact Except.ok.inj h ▸ rfl
      · split at h
        · exact Except.ok.inj h ▸ rfl
        · split at h
          · cases h
          · exact Except.ok.inj h ▸ rfl
    · exact Except.ok.inj h ▸ rfl
  · exact Except.ok.inj h ▸ rfl

/-- An address with the scheme `https` names a host behind the slashes. -/
theorem parse_iff_withAuthority {text : List Char} {a : Address} :
    parse text = .ok a ∧ a.scheme = "https" ↔ ∃ rest,
      splitScheme (significant text) = some ("https".toList, rest) ∧
      withAuthority "https" .web (rest.dropWhile (isSlash .web)) = .ok a := by
  have hkind : kindOfScheme "https".toList = .web := by decide
  have hofList : String.ofList "https".toList = "https" := String.ofList_toList
  constructor
  · rintro ⟨h, hscheme⟩
    rw [parse] at h
    split at h
    · cases h
    next name rest hsplit =>
    have hname : String.ofList name = "https" → name = "https".toList := by
      rintro hname
      rw [← hname, String.toList_ofList]
    dsimp only at h
    split at h
    · obtain ⟨hasUser, host, found, huser, hhost, rfl⟩ := withAuthority_eq_ok_iff.1 h
      obtain rfl := hname hscheme
      exact ⟨rest, hsplit, by rwa [hofList] at h⟩
    · rw [scheme_ofFile h] at hscheme
      exact absurd hscheme (by decide)
    next hother =>
      have hscheme' : String.ofList name = "https" := by
        split at h
        · obtain ⟨hasUser, host, found, huser, hhost, rfl⟩ := withAuthority_eq_ok_iff.1 h
          exact hscheme
        · obtain rfl := Except.ok.inj h
          exact hscheme
        · obtain rfl := Except.ok.inj h
          exact hscheme
      rw [hname hscheme', hkind] at hother
      cases hother
  · rintro ⟨rest, hsplit, h⟩
    obtain ⟨hasUser, host, found, huser, hhost, rfl⟩ := withAuthority_eq_ok_iff.1 h
    refine ⟨?_, rfl⟩
    rw [parse, hsplit]
    dsimp only
    rw [hkind, hofList]
    exact h

/-- What an address with the scheme `https` and a host is made of. Letters in the scheme may be
    capital ones, and the slashes may be turned and of any number. The name of a user and a port may
    be there. -/
inductive IsHttps (d : List Char) (path : List Char) : List Char → Prop
  | mk {scheme slashes user host port : List Char}
    (hscheme : scheme.map Char.toLower = "https".toList)
    (hslashes : ∀ c ∈ slashes, c = '/' ∨ c = '\\')
    (huser : user = [] ∨ ∃ u, user = u ++ ['@'])
    (hhost : '@' ∉ host ∧ host.head? ≠ some '[' ∧ Host.Leads host d)
    (hport : port = [] ∨ ∃ digits n, port = ':' :: digits ∧ Text.number? 10 digits = some n ∧
      n ≤ maxPort)
    (hsplit : splitPort false (host ++ port) = (host, port))
    (hauthority : ∀ c ∈ user ++ (host ++ port), endsAuthority .web c = false)
    (hpath : ∀ c ∈ path.head?, endsAuthority .web c) :
    IsHttps d path (scheme ++ ':' :: (slashes ++ (user ++ (host ++ port) ++ path)))

/-- A list is taken apart where a predicate fails first. -/
theorem takeWhile_dropWhile_append {p : Char → Bool} (h : ∀ c ∈ cs, p c)
    (hrest : ∀ c ∈ rest.head?, p c = false) :
    (cs ++ rest).takeWhile p = cs ∧ (cs ++ rest).dropWhile p = rest := by
  rw [List.takeWhile_append_of_pos h, List.dropWhile_append_of_pos h]
  cases rest with
  | nil => simp
  | cons c rest =>
    have hc := hrest c rfl
    simp [hc]

theorem endsAuthority_dropWhile (cs : List Char) :
    ∀ c ∈ (cs.dropWhile (!endsAuthority kind ·)).head?, endsAuthority kind c := by
  intro c hc
  have := List.head?_dropWhile_not (!endsAuthority kind ·) cs
  rw [hc] at this
  simpa using this

theorem isSlash_web (c : Char) : isSlash .web c ↔ c = '/' ∨ c = '\\' := by
  simp [isSlash]

theorem not_isSlash_of_not_endsAuthority (h : endsAuthority kind c = false) :
    isSlash kind c = false := by
  rw [endsAuthority, Bool.or_eq_false_iff, Bool.or_eq_false_iff] at h
  exact h.1.1

/-- A port that is checked is a number that is not too large. -/
theorem port_of_check {port : List Char} (hport : port = [] ∨ ∃ digits, port = ':' :: digits)
    (hends : ∀ c ∈ port, endsAuthority .web c = false) (hcheck : checkPort 0 port.tail = .ok ()) :
    port = [] ∨ ∃ digits n, port = ':' :: digits ∧ Text.number? 10 digits = some n ∧
      n ≤ maxPort := by
  refine hport.imp_right ?_
  rintro ⟨digits, rfl⟩
  have hslash : '\\' ∉ digits := fun hmem => absurd (hends '\\' (by simp [hmem])) (by decide)
  obtain ⟨n, hn, hle⟩ := (checkPort_iff hslash (by decide)).1 hcheck
  exact ⟨digits, n, rfl, hn, hle⟩

theorem check_of_port {port : List Char} (h : port = [] ∨ ∃ digits n, port = ':' :: digits ∧
      Text.number? 10 digits = some n ∧ n ≤ maxPort) :
    checkPort 0 port.tail = .ok () ∧ '@' ∉ port := by
  rcases h with rfl | ⟨digits, n, rfl, hn, hle⟩
  · exact ⟨rfl, List.not_mem_nil⟩
  · have hdigits := isDigit_of_numberFrom hn
    refine ⟨(checkPort_iff (fun hmem => ?_) (by decide)).2 ⟨n, hn, hle⟩, ?_⟩
    · exact absurd (hdigits _ hmem) (by decide)
    · rw [List.mem_cons, not_or]
      exact ⟨by decide, fun hmem => absurd (hdigits _ hmem) (by decide)⟩

section Https

variable {text d path : List Char} (hd : Domain.IsOwnForm d) (hnumber : ¬Ipv4.endsInNumber d)
  (hletter : ∃ c ∈ d, c.isAlpha)

theorem alpha_of_mem_https : ∀ c ∈ "https".toList, c.isAlpha :=
  List.all_eq_true.1 (by decide)

include hd hnumber hletter

theorem exists_isHttps_of_parse {a : Address} (hparse : parse text = .ok a)
    (hscheme : a.scheme = "https") (hname : a.host.map Host.text = some (String.ofList d)) :
    ∃ path, IsHttps d path (significant text) ∧ a.segments = some (segmentsOf .web path) := by
  obtain ⟨rest, hsplit, hauthority⟩ := parse_iff_withAuthority.1 ⟨hparse, hscheme⟩
  obtain ⟨scheme, htext, hlower⟩ := (splitScheme_iff alpha_of_mem_https (by decide)).1 hsplit
  obtain ⟨hasUser, behind, h, huser, hhost, rfl⟩ := withAuthority_eq_ok_iff.1 hauthority
  obtain ⟨host, port, hport⟩ : ∃ host port, splitPort false behind = (host, port) := ⟨_, _, rfl⟩
  obtain ⟨hne, ⟨h, hread, rfl⟩, hcheck⟩ := (hostOf_web_iff hport).1 hhost
  obtain ⟨rfl, hdigits⟩ := eq_append_of_splitPort hport
  obtain ⟨user, hfront, hat, huser⟩ := (splitUser_iff (by simp [hne])).1 ⟨hasUser, huser⟩
  obtain ⟨hbracket, hleads⟩ :=
    (Host.parse_iff_leads hd hnumber hletter).1 ⟨h, hread, Option.some.inj hname⟩
  have hends : ∀ c ∈ user ++ (host ++ port), endsAuthority .web c = false := by
    intro c hc
    rw [← hfront] at hc
    simpa using List.mem_takeWhile_imp hc
  refine ⟨_, ?_, rfl⟩
  have hbody : rest = rest.takeWhile (isSlash .web) ++ (user ++ (host ++ port) ++
      (rest.dropWhile (isSlash .web)).dropWhile (!endsAuthority .web ·)) := by
    rw [← hfront, List.takeWhile_append_dropWhile, List.takeWhile_append_dropWhile]
  have hslashes : ∀ c ∈ rest.takeWhile (isSlash .web), c = '/' ∨ c = '\\' := fun c hc =>
    (isSlash_web c).1 (List.mem_takeWhile_imp hc)
  have hwhole := IsHttps.mk hlower hslashes huser
    ⟨fun hmem => hat (by simp [hmem]), hbracket, hleads⟩
    (port_of_check hdigits (fun c hc => hends c (by simp [hc])) hcheck) hport hends
    (endsAuthority_dropWhile (rest.dropWhile (isSlash .web)))
  rwa [← hbody, ← htext] at hwhole

theorem exists_parse_of_isHttps (h : IsHttps d path (significant text)) :
    ∃ a, parse text = .ok a ∧ a.scheme = "https" ∧
      a.host.map Host.text = some (String.ofList d) ∧ a.segments = some (segmentsOf .web path) := by
  generalize hsignificant : significant text = cs at h
  cases h with
  | @mk scheme slashes user host port hscheme hslashes huser hhost hport hsplit hends hpath =>
  obtain ⟨hat, hhost⟩ := hhost
  obtain ⟨h, hread, hname⟩ := (Host.parse_iff_leads hd hnumber hletter).2 hhost
  have hne : host ≠ [] := by
    rintro rfl
    obtain ⟨c, hc, -⟩ := hletter
    have hnil := (Host.leads_iff_of_ascii (by simp) (by simp)).1 hhost.2
    exact List.ne_nil_of_mem hc hnil.symm
  have hcheck := check_of_port hport
  have hbehind : '@' ∉ host ++ port := by
    rw [List.mem_append, not_or]
    exact ⟨hat, hcheck.2⟩
  obtain ⟨hasUser, huser⟩ := (splitUser_iff (by simp [hne])).2 ⟨user, rfl, hbehind, huser⟩
  -- What names the host starts behind all slashes, and ends where the path starts.
  have hstart : ∀ c ∈ (user ++ (host ++ port) ++ path).head?, isSlash .web c = false := by
    intro c hc
    refine not_isSlash_of_not_endsAuthority (hends c ?_)
    rw [List.head?_append_of_ne_nil _ (by simp [hne])] at hc
    exact List.mem_of_mem_head? hc
  have hbody := (takeWhile_dropWhile_append (fun c hc => (isSlash_web c).2 (hslashes c hc))
    hstart).2
  obtain ⟨hfront, hback⟩ := takeWhile_dropWhile_append (p := fun c => !endsAuthority .web c)
    (fun c hc => by rw [hends c hc]; rfl) (fun c hc => by rw [hpath c hc]; rfl)
  have hwith : withAuthority "https" .web (user ++ (host ++ port) ++ path) =
      .ok ⟨"https", some h, some (segmentsOf .web path)⟩ := by
    refine withAuthority_eq_ok_iff.2 ⟨hasUser, host ++ port, some h, ?_, ?_, ?_⟩
    · rw [hfront, hback]
      exact huser
    · exact (hostOf_web_iff hsplit).2 ⟨hne, ⟨h, hread, rfl⟩, hcheck.1⟩
    · rw [hback]
  have hcut := (splitScheme_iff alpha_of_mem_https (by decide)).2 ⟨scheme, hsignificant, hscheme⟩
  obtain ⟨hparse, -⟩ := parse_iff_withAuthority.2 ⟨_, hcut, by rw [hbody]; exact hwith⟩
  exact ⟨_, hparse, rfl, congrArg some hname, rfl⟩

/-- What is read as an address with the scheme `https` and a host with a name. -/
theorem parse_https_iff {segments : List (List Char)} :
    (∃ a, parse text = .ok a ∧ a.scheme = "https" ∧
      a.host.map Host.text = some (String.ofList d) ∧ a.segments = some segments) ↔
    ∃ path, IsHttps d path (significant text) ∧ segments = segmentsOf .web path := by
  constructor
  · rintro ⟨a, hparse, hscheme, hname, hsegments⟩
    obtain ⟨path, hpath, hsplit⟩ :=
      exists_isHttps_of_parse hd hnumber hletter hparse hscheme hname
    exact ⟨path, hpath, Option.some.inj (hsegments.symm.trans hsplit)⟩
  · rintro ⟨path, hpath, rfl⟩
    exact exists_parse_of_isHttps hd hnumber hletter hpath

end Https

/-! ### The path -/

/-- The number of segments that have a name. -/
def named (segments : List (List Char)) : Nat :=
  (segments.filter (!·.isEmpty)).length

theorem named_cons (s : List Char) (segments : List (List Char)) :
    named (s :: segments) = (if s.isEmpty then 0 else 1) + named segments := by
  cases s with
  | nil => simp [named]
  | cons c s => simp [named, Nat.add_comm]

theorem named_up_le (above : List (List Char)) : named (up above) ≤ named above := by
  cases above with
  | nil => exact Nat.le_refl _
  | cons s rest =>
    rw [up]
    split
    · exact Nat.le_refl _
    · rw [named_cons]
      exact Nat.le_add_left _ _

theorem named_reverse (segments : List (List Char)) : named segments.reverse = named segments := by
  rw [named, List.filter_reverse, List.length_reverse, named]

/-- Following the dots adds no segment with a name. -/
theorem named_resolveDots_le (above segments : List (List Char)) :
    named (resolveDots above segments) ≤ named above + named segments := by
  induction segments generalizing above with
  | nil =>
    rw [resolveDots, named_reverse]
    exact Nat.le_add_right _ _
  | cons s rest ih =>
    have habove :
        named (if isDoubleDot s then up above else if isDot s then above else s :: above) ≤
          named above + named [s] := by
      split
      · exact (named_up_le above).trans (Nat.le_add_right _ _)
      · split
        · exact Nat.le_add_right _ _
        · rw [named_cons, named_cons]
          simp [named, Nat.add_comm]
    have hcons : named (s :: rest) = named [s] + named rest := by
      rw [named_cons, named_cons]
      simp [named]
    rw [resolveDots, hcons]
    split
    · rw [named_reverse, named_cons]
      simp only [List.isEmpty_nil, if_true]
      omega
    · have := ih (if isDoubleDot s then up above else if isDot s then above else s :: above)
      omega

/-- The part of an address that is its path ends where a question or a fragment starts. -/
def pathPart (cs : List Char) : List Char :=
  cs.takeWhile fun c => !(c == '?' || c == '#')

/-- A path has as many segments with a name as are written, or fewer. -/
theorem named_segmentsOf_le (kind : SchemeKind) (path : List Char) :
    named (segmentsOf kind path) ≤ named (Text.piecesBy (isSlash kind) (pathPart path)) := by
  have hpart : path.takeWhile (fun c => !(c == '?' || c == '#')) = pathPart path := rfl
  rw [segmentsOf]
  refine (named_resolveDots_le _ _).trans ?_
  simp only [hpart]
  rw [show named [] = 0 from rfl, Nat.zero_add]
  split
  next c rest hpath =>
    split
    next hslash =>
      rw [hpath, Text.piecesBy, if_pos hslash, named_cons]
      exact Nat.le_add_left _ _
    next => rw [hpath]
  next hpath => rw [hpath]

end TestBench.Web.Address
