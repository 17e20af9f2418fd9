import Mathlib.Data.List.Basic
import TestBench.Proofs.FileTree.Part
import TestBench.Proofs.Path
import TestBench.Workspace.Basic

/-!
# The way to the root of a workspace

All paths of a run are the root with a name behind it, and the way to such a place is the way to
the root and one step more. So a request for it is described by where the root is (`RootAt`) and
by what stands there under that name (`resolve_join_iff`).

* `resolve_join_iff`: where the root with a name behind it leads;
* `rootAt_of_resolve`: if it leads anywhere, the root is a directory.
-/

namespace TestBench.Workspace

open FileTree

variable {w : Workspace} {t t' : FileTree} {R R' l : Location} {name : ByteString} {e : Entry}
  {target : Target}

/-! ### The text of a joined path -/

/-- The text of the root with a name behind it: a slash at the end of the root is not written
    twice. -/
theorem join_text (w : Workspace) (hn : '/' ∉ name.toList) :
    w.root.text = "" ∧ (w.root.join name).text = name ∨
      w.root.text ≠ "" ∧ ∃ front, (w.root.text = front ∨ w.root.text = front ++ "/") ∧
        (w.root.join name).text = front ++ "/" ++ name := by
  have hrel : ¬(name.toList.head? == some '/') = true := fun h =>
    hn (List.mem_of_mem_head? (beq_iff_eq.1 h))
  rw [Path.join, if_neg hrel]
  split
  next h =>
    rw [Bool.or_eq_true, String.isEmpty_iff, beq_iff_eq] at h
    rcases h with h | h
    · left
      exact ⟨h, by simp [h]⟩
    · right
      obtain ⟨front, hfront⟩ := List.getLast?_eq_some_iff.1 h
      have hroot : w.root.text = String.ofList front ++ "/" := by
        apply String.toList_injective
        simp [String.toList_append, hfront]
      exact ⟨by simp [hroot], String.ofList front, .inr hroot, by rw [hroot]⟩
  next h =>
    rw [Bool.or_eq_true, not_or, String.isEmpty_iff] at h
    exact .inr ⟨h.1, w.root.text, .inl rfl, rfl⟩

theorem namesOf_name (hn : Path.IsName name) : namesOf name = [name] := by
  have hne : name.toList.isEmpty = false := by
    rw [List.isEmpty_eq_false_iff]
    exact fun h => hn.2.1 (String.toList_inj.1 (h.trans String.toList_empty.symm))
  rw [namesOf, Path.pieces_of_slash_notMem hn.1]
  simp [hne]

/-- No slash is at the end of the text. -/
theorem getLast_join (w : Workspace) (hn : Path.IsName name) :
    (w.root.join name).text.toList.getLast? ≠ some '/' := by
  have hne : name.toList ≠ [] := fun h =>
    hn.2.1 (String.toList_inj.1 (h.trans String.toList_empty.symm))
  have hlast : ∀ front : ByteString, (front ++ name).toList.getLast? ≠ some '/' := by
    intro front
    rw [String.toList_append, List.getLast?_append_of_ne_nil _ hne]
    exact fun h => hn.1 (List.mem_of_getLast? h)
  rcases join_text w hn.1 with ⟨-, h⟩ | ⟨-, front, -, h⟩
  · have := hlast ""
    rwa [String.empty_append, ← h] at this
  · rw [h]
    exact hlast _

/-- The names of a place in the root are those of the root, and its own. -/
theorem namesOf_join (w : Workspace) (hn : Path.IsName name) :
    namesOf (w.root.join name).text = namesOf w.root.text ++ [name] := by
  rcases join_text w hn.1 with ⟨hroot, h⟩ | ⟨hne, front, hroot, h⟩
  · rw [hroot, h, namesOf_name hn]
    rfl
  · have hnames : namesOf w.root.text = namesOf front := by
      rcases hroot with hroot | hroot
      · rw [hroot]
      · rw [hroot]
        exact namesOf_append_slashes front 1
    rw [h, namesOf_append_slash, hnames, namesOf_name hn]

/-- The steps to a place in the root are its names. -/
theorem steps_join (w : Workspace) (hn : Path.IsName name) :
    steps (w.root.join name).text = namesOf w.root.text ++ [name] := by
  rw [steps_eq, namesOf_join w hn, lastStep, if_neg (getLast_join w hn), List.append_nil]

/-- The way to a place in the root starts where the way to the root does, and as far as there is
    one, the root may be the text of a path as well. -/
theorem join_starts_as_root (w : Workspace) (hn : '/' ∉ name.toList) (base : Location) :
    origin (w.root.join name).text base = origin w.root.text base ∧
      (w.root.text ≠ "" → IsPathText (w.root.join name).text → IsPathText w.root.text) := by
  rcases join_text w hn with ⟨hroot, h⟩ | ⟨hne, front, hroot, h⟩
  · rw [hroot, h]
    refine ⟨?_, fun hne => absurd rfl hne⟩
    have hrel : name.toList.head? ≠ some '/' := fun h => hn (List.mem_of_mem_head? h)
    rw [origin, if_neg hrel]
    rfl
  · have hrest : ∃ rest, (w.root.join name).text = w.root.text ++ rest := by
      rcases hroot with hroot | hroot
      · exact ⟨"/" ++ name, by rw [h, hroot, String.append_assoc]⟩
      · exact ⟨name, by rw [h, hroot]⟩
    obtain ⟨rest, hrest⟩ := hrest
    rw [hrest]
    exact ⟨origin_append rest base hne, fun _ htext => htext.of_append hne⟩

/-- The steps of a path with names behind it. -/
theorem steps_foldl_join {names : List ByteString} (hnames : ∀ name ∈ names, Path.IsName name)
    (hne : names ≠ []) (p : Path) : steps (names.foldl Path.join p).text = namesOf p.text ++ names ∧
      ∀ base, origin (names.foldl Path.join p).text base = origin p.text base := by
  -- A path is the root of some workspace.
  induction names generalizing p with
  | nil => exact absurd rfl hne
  | cons name names ih =>
    rw [List.forall_mem_cons] at hnames
    have hsteps := steps_join ⟨p, "", ""⟩ hnames.1
    have horigin := fun base => (join_starts_as_root ⟨p, "", ""⟩ hnames.1.1 base).1
    cases names with
    | nil => exact ⟨hsteps, horigin⟩
    | cons next rest =>
      obtain ⟨hsteps', horigin'⟩ := ih hnames.2 (by simp) (p.join name)
      have hjoin : namesOf (p.join name).text = _ := namesOf_join ⟨p, "", ""⟩ hnames.1
      refine ⟨?_, fun base => ?_⟩
      · rw [List.foldl_cons, hsteps', hjoin, List.append_assoc]
        rfl
      · rw [List.foldl_cons, horigin', horigin]

/-! ### Where the root is -/

/-- Whether the names of the root lead to a directory. -/
def RootAt (w : Workspace) (t : FileTree) (R : Location) : Prop :=
  Leads t true maxLinks (origin w.root.text t.here) (namesOf w.root.text) (.found R .directory)

theorem RootAt.unique (h : w.RootAt t R) (h' : w.RootAt t R') : R = R' :=
  (Target.found.inj (Leads.unique h h')).1

theorem RootAt.of_part (ht : Part t' t) (h : w.RootAt t' R) : w.RootAt t R := by
  rw [RootAt, ht.here] at h
  exact h.of_part ht

theorem RootAt.of_hasWays (ht : HasWays t' t) (h : w.RootAt t R) : w.RootAt t' R := by
  rw [RootAt, ht.here]
  exact Leads.of_hasWays ht h

/-- The path of the root leads where its names do, if it may be the text of a path. -/
theorem directory_root_iff :
    t.directory w.root = .ok R ↔ IsPathText w.root.text ∧ w.RootAt t R := by
  rw [directory_eq_ok_iff, find_eq_ok_iff, resolve_eq_ok_iff]
  refine and_congr_right fun _ => ⟨fun h => ?_, fun h => (Leads.lastStep h _).1⟩
  -- A slash behind the names only asks for a directory.
  have hnames : ∃ d, w.RootAt t d := by
    by_cases hlast : lastStep w.root.text = []
    · rw [steps_eq, hlast, List.append_nil] at h
      exact ⟨R, h⟩
    · obtain ⟨d, -, hd, -⟩ := h.exists_of_append hlast
      exact ⟨d, hd⟩
  obtain ⟨d, hd⟩ := hnames
  obtain rfl := (Target.found.inj (Leads.unique h (Leads.lastStep hd _).1)).1
  exact hd

/-! ### What stands in the root -/

/-- What stands under a name in a directory. -/
def targetAt (t : FileTree) (R : Location) (name : ByteString) : Target :=
  match t.lookup (R ++ [name]) with
  | none => .vacant R name
  | some e => .found (R ++ [name]) e

theorem leads_one_iff {links : Nat} (hn : Path.IsName name) :
    Leads t false links R [name] target ↔ IsEntryName name ∧ target = targetAt t R name := by
  constructor
  · intro h
    cases h with
    | pass hp h =>
      cases hp with
      | stay => exact absurd rfl hn.2.2.1
      | up => exact absurd rfl hn.2.2.2
      | down hname hl =>
        cases h
        exact ⟨hname, by rw [targetAt, hl]⟩
    | through _ _ hr _ => exact absurd (hr rfl) Bool.false_ne_true
    | free hname hl => exact ⟨hname, by rw [targetAt, hl]⟩
    | stop hname hl => exact ⟨hname, by rw [targetAt, hl]⟩
  · rintro ⟨hname, rfl⟩
    rw [targetAt]
    cases hl : t.lookup (R ++ [name]) with
    | none => exact .free hname hl
    | some e =>
      by_cases hd : e = .directory
      · subst hd
        exact .pass (.down hname hl) .here
      · exact .stop hname hl hd fun _ _ => rfl

/-- The root with a name behind it leads to what stands there under that name, if the root leads
    anywhere. -/
theorem resolve_join_iff (hn : Path.IsName name) :
    t.resolve (w.root.join name) false = .ok target ↔
      (IsPathText (w.root.join name).text ∧ IsEntryName name) ∧
        ∃ R, w.RootAt t R ∧ target = targetAt t R name := by
  rw [resolve_eq_ok_iff, steps_join w hn, (join_starts_as_root w hn.1 t.here).1, and_assoc]
  refine and_congr_right fun _ => ⟨fun h => ?_, ?_⟩
  · obtain ⟨R, links, hroot, hstep⟩ := h.exists_of_append (by simp)
    obtain ⟨hname, htarget⟩ := (leads_one_iff hn).1 hstep
    exact ⟨hname, R, hroot, htarget⟩
  · rintro ⟨hname, R, hroot, rfl⟩
    obtain ⟨links, happend⟩ := Leads.append hroot
    exact happend (by simp) ((leads_one_iff hn).2 ⟨hname, rfl⟩)

/-- If a link at the end is followed, the root with a name behind it still leads to the place of
    that name, unless a link stands there. -/
theorem place_join (hn : Path.IsName name)
    (h : t.resolve (w.root.join name) true = .ok target) :
    ∃ R, w.RootAt t R ∧
      (target.place = R ++ [name] ∨ ∃ text, t.lookup (R ++ [name]) = some (.link text)) := by
  obtain ⟨-, h⟩ := resolve_eq_ok_iff.1 h
  rw [steps_join w hn, (join_starts_as_root w hn.1 t.here).1] at h
  obtain ⟨R, links, hroot, hstep⟩ := h.exists_of_append (by simp)
  refine ⟨R, hroot, ?_⟩
  cases hstep with
  | pass hp h =>
    cases hp with
    | stay => exact absurd rfl hn.2.2.1
    | up => exact absurd rfl hn.2.2.2
    | down =>
      cases h
      exact .inl rfl
  | through _ hl => exact .inr ⟨_, hl⟩
  | free => exact .inl rfl
  | stop => exact .inl rfl

/-- What stands in the root is found under its name, if the name and the path are such as the system
    lets have. -/
theorem find_join_of_rootAt (hn : Path.IsName name) (hname : IsEntryName name)
    (htext : IsPathText (w.root.join name).text) (hroot : w.RootAt t R) :
    t.find (w.root.join name) false =
      match t.lookup (R ++ [name]) with
      | none => .error (.system .notFound)
      | some e => .ok (R ++ [name], e) := by
  rw [find, (resolve_join_iff hn).2 ⟨⟨htext, hname⟩, R, hroot, rfl⟩, targetAt]
  cases t.lookup (R ++ [name]) <;> rfl

/-- What is found under a name stands in the root. -/
theorem find_join (hn : Path.IsName name) (h : t.find (w.root.join name) false = .ok (l, e)) :
    ∃ R, w.RootAt t R ∧ l = R ++ [name] ∧ t.lookup (R ++ [name]) = some e := by
  obtain ⟨-, R, hroot, htarget⟩ := (resolve_join_iff hn).1 (find_eq_ok_iff.1 h)
  rw [targetAt] at htarget
  cases hl : t.lookup (R ++ [name]) with
  | none => rw [hl] at htarget; cases htarget
  | some e' =>
    rw [hl, Target.found.injEq] at htarget
    exact ⟨R, hroot, htarget.1, htarget.2 ▸ hl⟩

/-- What is free under a name is free in the root. -/
theorem vacant_join (hn : Path.IsName name) {d : Location} {name' : ByteString}
    (h : t.resolve (w.root.join name) false = .ok (.vacant d name')) :
    w.RootAt t d ∧ name' = name ∧ t.lookup (d ++ [name]) = none := by
  obtain ⟨-, R, hroot, htarget⟩ := (resolve_join_iff hn).1 h
  rw [targetAt] at htarget
  cases hl : t.lookup (R ++ [name]) with
  | none =>
    rw [hl, Target.vacant.injEq] at htarget
    obtain ⟨rfl, rfl⟩ := htarget
    exact ⟨hroot, rfl, hl⟩
  | some e => rw [hl] at htarget; cases htarget

/-- What is removed under a name stands in the root, and is no directory. -/
theorem exists_of_removeFile_join (hn : Path.IsName name)
    (h : t.removeFile (w.root.join name) = .ok t') :
    ∃ R e, w.RootAt t R ∧ t.lookup (R ++ [name]) = some e ∧ e ≠ .directory ∧
      t' = t.erase (R ++ [name]) := by
  rw [removeFile] at h
  split at h
  · cases h
  · cases h
  next l e hdir hf =>
    obtain ⟨R, hroot, rfl, hl⟩ := find_join hn hf
    exact ⟨R, e, hroot, hl, hdir, (Except.ok.inj h).symm⟩

/-- Whether all names that the system lets have fit behind the root. -/
def HasRoom (w : Workspace) : Prop :=
  w.root.text.length + maxNameBytes + 1 < pathBytes

/-- Where there is room, a path to a place in the root is as good as the path of the root. -/
theorem isPathText_join (hroom : w.HasRoom) (hroot : IsPathText w.root.text)
    (hn : '/' ∉ name.toList) (hzero : Char.ofNat 0 ∉ name.toList)
    (hsize : name.length ≤ maxNameBytes) : IsPathText (w.root.join name).text := by
  rcases join_text w hn with ⟨h, -⟩ | ⟨hne, front, hfront, h⟩
  · exact absurd h hroot.2.1
  · have hrest : front.length ≤ w.root.text.length ∧
        Char.ofNat 0 ∉ front.toList := by
      have hz := hroot.1
      rcases hfront with hfront | hfront
      · rw [hfront] at hz ⊢
        exact ⟨Nat.le_refl _, hz⟩
      · rw [hfront, String.toList_append, List.mem_append, not_or] at hz
        rw [hfront, String.length_append]
        exact ⟨Nat.le_add_right _ _, hz.1⟩
    rw [HasRoom] at hroom
    refine ⟨?_, ?_, ?_⟩
    · rw [h, String.toList_append, String.toList_append]
      simp only [List.mem_append, not_or]
      exact ⟨⟨hrest.2, by decide⟩, hzero⟩
    · rw [h]
      simp
    · have hslash : ("/" : ByteString).length = 1 := by decide
      rw [h, String.length_append, String.length_append, hslash]
      omega

end TestBench.Workspace
