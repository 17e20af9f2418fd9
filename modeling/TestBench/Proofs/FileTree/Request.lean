import Mathlib.Data.List.TakeWhile
import TestBench.FileTree.Request
import TestBench.Proofs.FileTree.Way
import TestBench.Proofs.Path

/-!
# What requests to a file tree do

A path that leads somewhere has the text of a path and a way that leads there
(`resolve_eq_ok_iff`). The way is that of the names between the slashes; slashes at the end only
ask for a directory. So a request is described by where its path leads.

* `makeDirectories_of_leads`: where a path leads to a directory, none is made;
* `find_of_createFile`: a file that was made is found;
* `removeFile_of_find`: where a file was removed, its path leads to a free name.
-/

namespace TestBench.FileTree

variable {t t' : FileTree} {p : Path} {last : Bool} {l d : Location} {e : Entry} {name : ByteString}

/-- The place that a way leads to, taken or free. -/
def Target.place : Target → Location
  | .found l _ => l
  | .vacant d name => d ++ [name]

/-- Whether a text may be that of a path that leads somewhere. -/
def IsPathText (text : ByteString) : Prop :=
  Char.ofNat 0 ∉ text.toList ∧ text ≠ "" ∧ text.length < pathBytes

instance (text : ByteString) : Decidable (IsPathText text) :=
  inferInstanceAs (Decidable (_ ∧ _ ∧ _))

theorem resolve_of_isPathText (h : IsPathText p.text) :
    t.resolve p last =
      (t.walk last maxLinks (origin p.text t.here) (steps p.text)).mapError .system := by
  rw [resolve, if_neg (by simpa using h.1), if_neg (by simpa using h.2.1),
    if_neg (Nat.not_le.2 h.2.2)]

/-- A text that may not be that of a path leads nowhere, for a reason of its own. -/
theorem resolve_of_not_isPathText (h : ¬IsPathText p.text) :
    ∃ fault, (fault = .zeroInPath ∨ p.text = "" ∨ fault = .system .nameTooLong) ∧
      ∀ (t : FileTree) (last : Bool), t.resolve p last = .error fault := by
  by_cases hzero : Char.ofNat 0 ∈ p.text.toList
  · refine ⟨.zeroInPath, .inl rfl, fun t last => ?_⟩
    rw [resolve, if_pos (by simpa using hzero)]
  by_cases hempty : p.text = ""
  · refine ⟨.system .notFound, .inr (.inl hempty), fun t last => ?_⟩
    rw [resolve, if_neg (by simpa using hzero), if_pos (by simpa using hempty)]
  · have hsize : ¬p.text.length < pathBytes := fun hsize => h ⟨hzero, hempty, hsize⟩
    refine ⟨.system .nameTooLong, .inr (.inr rfl), fun t last => ?_⟩
    rw [resolve, if_neg (by simpa using hzero), if_neg (by simpa using hempty),
      if_pos (Nat.not_lt.1 hsize)]

/-- A path leads where the way of its steps does. -/
theorem resolve_eq_ok_iff {target : Target} :
    t.resolve p last = .ok target ↔
      IsPathText p.text ∧ Leads t last maxLinks (origin p.text t.here) (steps p.text) target := by
  rw [← walk_eq_ok_iff]
  constructor
  · intro h
    have htext : IsPathText p.text := by
      rw [resolve] at h
      split at h
      · cases h
      split at h
      · cases h
      split at h
      · cases h
      next hzero hempty hsize =>
        exact ⟨by simpa using hzero, by simpa using hempty, Nat.not_le.1 hsize⟩
    refine ⟨htext, ?_⟩
    rw [resolve_of_isPathText htext] at h
    cases hw : t.walk last maxLinks (origin p.text t.here) (steps p.text) with
    | error fault => rw [hw] at h; cases h
    | ok found => rw [hw] at h; exact congrArg _ (Except.ok.inj h)
  · rintro ⟨htext, hw⟩
    rw [resolve_of_isPathText htext, hw]
    rfl

/-- The entry that a path leads to is where the path resolves to. -/
theorem find_eq_ok_iff :
    t.find p last = .ok (l, e) ↔ t.resolve p last = .ok (.found l e) := by
  rw [find]
  cases t.resolve p last with
  | error fault => simp
  | ok target => cases target <;> simp

theorem directory_eq_ok_iff : t.directory p = .ok l ↔ t.find p true = .ok (l, .directory) := by
  rw [directory]
  cases t.find p true with
  | error fault => simp
  | ok found =>
    obtain ⟨l', e⟩ := found
    cases e <;> simp

theorem find_of_vacant (h : t.resolve p last = .ok (.vacant d name)) :
    t.find p last = .error (.system .notFound) := by
  rw [find, h]

/-- Where a path leads depends only on what stands where. -/
theorem resolve_congr (hhere : t'.here = t.here) (h : t'.lookup = t.lookup) :
    t'.resolve = t.resolve := by
  funext p last
  rw [resolve, resolve, hhere, walk_congr h]

theorem directory_congr (hhere : t'.here = t.here) (h : t'.lookup = t.lookup) :
    t'.directory = t.directory := by
  funext p
  rw [directory, directory, find, find, resolve_congr hhere h]

/-! ### The names of a path -/

/-- The names between the slashes of a text. -/
def namesOf (text : ByteString) : List ByteString :=
  ((Text.pieces '/' text.toList).filter (!·.isEmpty)).map String.ofList

/-- The step that a slash at the end of a text is. -/
def lastStep (text : ByteString) : List ByteString :=
  if text.toList.getLast? = some '/' then ["."] else []

theorem steps_eq (text : ByteString) : steps text = namesOf text ++ lastStep text :=
  rfl

theorem namesOf_empty : namesOf "" = [] :=
  rfl

theorem namesOf_append_slash (a b : ByteString) :
    namesOf (a ++ "/" ++ b) = namesOf a ++ namesOf b := by
  have ht : (a ++ "/" ++ b).toList = a.toList ++ '/' :: b.toList := by
    simp [String.toList_append]
  rw [namesOf, ht, Text.pieces_append, List.filter_append, List.map_append]
  rfl

/-- A text is what is left of it without the slashes at its end, and slashes. -/
theorem exists_withoutTrailingSlashes (text : ByteString) :
    ∃ k, text = withoutTrailingSlashes text ++ String.ofList (List.replicate k '/') := by
  rw [withoutTrailingSlashes]
  split
  · -- A text of slashes only is left as it is.
    exact ⟨0, by simp⟩
  · refine ⟨(text.toList.reverse.takeWhile (· = '/')).length, ?_⟩
    have hslashes : text.toList.reverse.takeWhile (· = '/') =
        List.replicate (text.toList.reverse.takeWhile (· = '/')).length '/' :=
      List.eq_replicate_of_mem fun c hc => by simpa using List.mem_takeWhile_imp hc
    have hcut := congrArg List.reverse
      (List.takeWhile_append_dropWhile (p := (· = '/')) (l := text.toList.reverse))
    rw [List.reverse_append, List.reverse_reverse, hslashes, List.reverse_replicate] at hcut
    rw [← String.ofList_append, hcut, String.ofList_toList]

/-- Slashes at the end of a text add no name. -/
theorem namesOf_append_slashes (a : ByteString) (k : Nat) :
    namesOf (a ++ String.ofList (List.replicate k '/')) = namesOf a := by
  induction k with
  | zero => simp
  | succ k ih =>
    have ht : a ++ String.ofList (List.replicate (k + 1) '/') =
        a ++ String.ofList (List.replicate k '/') ++ "/" ++ "" := by
      apply String.toList_injective
      simp [String.toList_append, List.replicate_succ']
    rw [ht, namesOf_append_slash, ih, namesOf_empty, List.append_nil]

theorem withoutTrailingSlashes_of_getLast {text : ByteString}
    (h : text.toList.getLast? ≠ some '/') :
    withoutTrailingSlashes text = text := by
  have hkept : text.toList.reverse.dropWhile (· = '/') = text.toList.reverse := by
    cases hr : text.toList.reverse with
    | nil => rfl
    | cons c cs =>
      have hc : c ≠ '/' := by
        rintro rfl
        rw [← List.head?_reverse, hr] at h
        exact h rfl
      exact List.dropWhile_cons_of_neg (by simpa using hc)
  rw [withoutTrailingSlashes]
  simp only [hkept, List.reverse_reverse, String.ofList_toList, ite_self]

theorem withoutTrailingSlashes_ne_empty {text : ByteString} (h : text ≠ "") :
    withoutTrailingSlashes text ≠ "" := by
  rw [withoutTrailingSlashes]
  split
  · exact h
  next hne => simpa using hne

/-- Without the slashes at its end, a path has the same components. -/
theorem components_withoutTrailingSlashes (text : ByteString) :
    (Path.mk (withoutTrailingSlashes text)).components = (Path.mk text).components := by
  by_cases hempty : text = ""
  · rw [hempty]
    rfl
  obtain ⟨k, hk⟩ := exists_withoutTrailingSlashes text
  have hne := withoutTrailingSlashes_ne_empty hempty
  generalize withoutTrailingSlashes text = start at hk hne ⊢
  subst hk
  induction k with
  | zero => simp
  | succ k ih =>
    have ht : start ++ String.ofList (List.replicate (k + 1) '/') =
        start ++ String.ofList (List.replicate k '/') ++ "/" := by
      apply String.toList_injective
      simp [String.toList_append, List.replicate_succ']
    rw [ht, Path.components_append_slash (by simp [hne]), ih (by simp [hne])]

theorem IsPathText.of_append {a b : ByteString} (h : IsPathText (a ++ b)) (ha : a ≠ "") :
    IsPathText a := by
  obtain ⟨hzero, _, hsize⟩ := h
  rw [String.toList_append, List.mem_append, not_or] at hzero
  rw [String.length_append] at hsize
  exact ⟨hzero.1, ha, by omega⟩

theorem origin_append {a : ByteString} (b : ByteString) (base : Location) (ha : a ≠ "") :
    origin (a ++ b) base = origin a base := by
  obtain ⟨c, cs, hc⟩ := List.exists_cons_of_ne_nil (show a.toList ≠ [] by simpa using ha)
  rw [origin, origin, String.toList_append, hc, List.cons_append]
  rfl

/-! ### Making directories -/

/-- Behind a way to a directory, a step that asks for a directory leads there. -/
theorem Leads.lastStep {links : Nat} {base : Location} {way : List ByteString}
    (h : Leads t true links base way (.found d .directory)) (text : ByteString) :
    Leads t true links base (way ++ FileTree.lastStep text) (.found d .directory) ∧
      ∃ l e, Leads t false links base (way ++ FileTree.lastStep text) (.found l e) := by
  rw [FileTree.lastStep]
  split
  · obtain ⟨links', ha⟩ := h.append
    exact ⟨ha (by simp) (.pass .stay .here), d, _, ha (by simp) (.pass .stay .here)⟩
  · rw [List.append_nil]
    exact ⟨h, h.unfollowed⟩

/-- Where the names of a path lead to a directory, something stands in the place of the path
    without the slashes at its end. -/
theorem makeDirectory_of_leads (hp : IsPathText p.text)
    (h : Leads t true maxLinks (origin p.text t.here) (namesOf p.text) (.found d .directory)) :
    t.makeDirectory p = .error (.system .present) := by
  obtain ⟨k, hk⟩ := exists_withoutTrailingSlashes p.text
  have hne := withoutTrailingSlashes_ne_empty hp.2.1
  rw [makeDirectory]
  -- The text without its slashes has the same names, so that its way is the same up to a step
  -- that asks for a directory.
  generalize withoutTrailingSlashes p.text = text at hk hne ⊢
  rw [hk] at hp h
  rw [namesOf_append_slashes, origin_append _ _ hne] at h
  obtain ⟨l, e, hfound⟩ := (h.lastStep text).2
  have hr : t.resolve ⟨text⟩ false = .ok (.found l e) :=
    resolve_eq_ok_iff.2 ⟨hp.of_append hne, hfound⟩
  rw [hr]

/-- Where the names of a path lead to a directory, it is found. -/
theorem ensureDirectory_of_leads (hp : IsPathText p.text)
    (h : Leads t true maxLinks (origin p.text t.here) (namesOf p.text) (.found d .directory)) :
    t.ensureDirectory p = (.ok (), t) := by
  have hfind : t.find p true = .ok (d, .directory) :=
    find_eq_ok_iff.2 (resolve_eq_ok_iff.2 ⟨hp, (h.lastStep p.text).1⟩)
  rw [ensureDirectory, makeDirectory_of_leads hp h, isDirectory, hfind]
  rfl

/-- Where the names of a path lead to a directory, no directory is made. -/
theorem makeDirectories_of_leads (hp : IsPathText p.text)
    (h : Leads t true maxLinks (origin p.text t.here) (namesOf p.text) (.found d .directory)) :
    t.makeDirectories p = (.ok (), t) := by
  have hensure := ensureDirectory_of_leads hp h
  -- Something stands in its place, so that its parent is not asked for.
  rw [makeDirectories]
  cases p.text.length with
  | zero => rw [makeDirectoriesWithin, if_neg (by simpa using hp.2.1), hensure]
  | succ bound =>
    rw [makeDirectoriesWithin, if_neg (by simpa using hp.2.1), makeDirectory_of_leads hp h]
    exact hensure

/-- The empty path asks for no directory. -/
theorem makeDirectories_empty (t : FileTree) : t.makeDirectories ⟨""⟩ = (.ok (), t) :=
  rfl

/-- What every directory that is made keeps, making a directory and those on the way keeps. Each of
    them is a start of the path. -/
theorem makeDirectories_keeps {P : FileTree → Prop} (p : Path)
    (h : ∀ t t' q, q.components <+: p.components → P t → t.makeDirectory q = .ok t' → P t')
    (ht : P t) : P (t.makeDirectories p).2 := by
  have hensure : ∀ t, P t → ∀ q, q.components <+: p.components → P (t.ensureDirectory q).2 := by
    intro t ht q hq
    rw [ensureDirectory]
    cases hm : t.makeDirectory q with
    | ok t' => exact h t t' q hq ht hm
    | error fault =>
      dsimp only
      split <;> exact ht
  have hwithin : ∀ bound t, P t → ∀ q, q.components <+: p.components →
      P (makeDirectoriesWithin bound t q).2 := by
    intro bound
    induction bound with
    | zero =>
      intro t ht q hq
      rw [makeDirectoriesWithin]
      split
      · exact ht
      · exact hensure t ht q hq
    | succ bound ih =>
      intro t ht q hq
      rw [makeDirectoriesWithin]
      split
      · exact ht
      split
      · split
        · exact ht
        next parent hp =>
          have hparent := ih t ht parent ((Path.components_prefix_of_parent hp).trans hq)
          split
          next hr =>
            rw [hr] at hparent
            exact hparent
          next hr =>
            rw [hr] at hparent
            exact hensure _ hparent q hq
      · exact hensure t ht q hq
  exact hwithin _ t ht p List.prefix_rfl

/-- A directory is made at a free name. -/
theorem exists_of_makeDirectory (h : t.makeDirectory p = .ok t') :
    ∃ d name, t.resolve ⟨withoutTrailingSlashes p.text⟩ false = .ok (.vacant d name) ∧
      t' = t.insert (d ++ [name]) .directory := by
  rw [makeDirectory] at h
  split at h
  · cases h
  · cases h
  next d name hr => exact ⟨d, name, hr, (Except.ok.inj h).symm⟩

/-! ### Making and removing a file -/

theorem createFile_of_vacant (h : t.resolve p false = .ok (.vacant d name)) :
    t.createFile p = .ok (t.insert (d ++ [name]) (.file [] false)) := by
  rw [createFile, h]

theorem createFile_of_find (h : t.find p false = .ok (l, e)) :
    t.createFile p = .error (.system .present) := by
  rw [createFile, find_eq_ok_iff.1 h]

/-- A file is made at a free name. -/
theorem exists_of_createFile (h : t.createFile p = .ok t') :
    ∃ d name, t.resolve p false = .ok (.vacant d name) ∧
      t' = t.insert (d ++ [name]) (.file [] false) := by
  rw [createFile] at h
  split at h
  · split at h <;> cases h
  · cases h
  next d name hr => exact ⟨d, name, hr, (Except.ok.inj h).symm⟩

/-- A file that was made is found. -/
theorem find_of_createFile (h : t.createFile p = .ok t') :
    ∃ l, t'.find p false = .ok (l, .file [] false) := by
  obtain ⟨d, name, hr, rfl⟩ := exists_of_createFile h
  rw [resolve_eq_ok_iff] at hr
  exact ⟨d ++ [name], find_eq_ok_iff.2 (resolve_eq_ok_iff.2 ⟨hr.1, hr.2.insert (by simp)⟩)⟩

/-- A file is written at a free name, or in place of a file. -/
theorem exists_of_writeFile {content : List UInt8} (h : t.writeFile p content = .ok t') :
    ∃ target executable, t.resolve p true = .ok target ∧
      t' = t.insert target.place (.file content executable) ∧
      ∀ e, t.lookup target.place = some e → ∃ content executable, e = .file content executable := by
  rw [writeFile] at h
  split at h
  · cases h
  next l old executable hr =>
    refine ⟨_, executable, hr, (Except.ok.inj h).symm, fun e he => ?_⟩
    have hfile := (Leads.lookup_file (resolve_eq_ok_iff.1 hr).2).2
    exact ⟨old, executable, Option.some.inj (he.symm.trans hfile)⟩
  · cases h
  next d name hr =>
    refine ⟨_, false, hr, (Except.ok.inj h).symm, fun e he => ?_⟩
    have hnone := (resolve_eq_ok_iff.1 hr).2.lookup_vacant
    exact absurd (he.symm.trans hnone) (by simp)

/-- The top is a directory, so it is no place where only a file may stand. -/
theorem ne_nil_of_plain
    (h : ∀ e, t.lookup l = some e → ∃ content executable, e = .file content executable) :
    l ≠ [] := by
  rintro rfl
  obtain ⟨_, _, hfile⟩ := h .directory rfl
  cases hfile

/-- Where a file was removed, its path leads to a free name. -/
theorem removeFile_of_find {content : List UInt8} {executable : Bool}
    (h : t.find p false = .ok (l, .file content executable)) :
    ∃ t' d name, t.removeFile p = .ok t' ∧ t'.resolve p false = .ok (.vacant d name) := by
  obtain ⟨htext, hl⟩ := resolve_eq_ok_iff.1 (find_eq_ok_iff.1 h)
  obtain ⟨d, name, herased⟩ := hl.erase
  refine ⟨t.erase l, d, name, ?_, resolve_eq_ok_iff.2 ⟨htext, herased⟩⟩
  rw [removeFile, h]

end TestBench.FileTree
