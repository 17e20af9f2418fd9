import TestBench.Options.Reading
import TestBench.Proofs.ByteString
import TestBench.Proofs.Options.Variables
import TestBench.Proofs.Toml.Document

/-!
# What the value of a variable can change

Variables are replaced in the text of a configuration, before it is read. So a value may end the
quoted text that it is put into, and go on with options of its own. If it does not end it, it
changes nothing but the option that it is written in.

* `RepositoryAt`: where a configuration gives the repository;
* `read_agrees`: what is read with two values of a variable in it.
-/

namespace TestBench.Options

open Toml

variable {t t' : Table} {o o' : Options} {path : List String} {pre post u w x z : List Char}
  {r r' : String}

/-! ### Options of two tables -/

/-- Whether options are the same but for the repository. -/
structure DifferInRepository (r r' : String) (o o' : Options) : Prop where
  left : o.repository = some r
  right : o'.repository = some r'
  other : o' = { o with repository := o'.repository }

/-- The repository comes first, and changes nothing else. -/
theorem ofValues?_cons (v : Option Value) (vs : List (Option Value)) :
    ofValues? (v :: vs) = (optional text? v).bind fun r =>
      (ofValues? (Option.none :: vs)).map fun o => { o with repository := r } := by
  rw [ofValues?.eq_def]
  split
  next heq =>
    cases heq
    simp only [ofValues?, optional, Option.map_bind, Option.bind_eq_bind, Option.pure_def,
      Function.comp_def, Option.map_some, Option.bind_some]
  next hne =>
    rw [ofValues?.eq_2]
    · simp
    · intro _ _ _ _ _ _ _ _ _ _ heq
      cases heq
      exact hne _ _ _ _ _ _ _ _ _ _ rfl

theorem differInRepository_of_ofValues? {vs : List (Option Value)}
    (ho : ofValues? (some (.string r) :: vs) = some o)
    (ho' : ofValues? (some (.string r') :: vs) = some o') : DifferInRepository r r' o o' := by
  rw [ofValues?_cons] at ho ho'
  obtain ⟨p, hp, rfl⟩ := Option.map_eq_some_iff.1 ho
  obtain ⟨p', hp', rfl⟩ := Option.map_eq_some_iff.1 ho'
  obtain rfl := Option.some.inj (hp.symm.trans hp')
  exact ⟨rfl, rfl, rfl⟩

/-- Tables that differ in the repository give options that do. -/
theorem differInRepository_of_ofTable?
    (h : Table.DifferAt (.string r) (.string r') ["git_repo_url"] t t')
    (ho : ofTable? t = some o) (ho' : ofTable? t' = some o') : DifferInRepository r r' o o' := by
  obtain ⟨hother, hv, hv', hentry⟩ := h
  have hrest : (keys.drop 1).map t.find? = (keys.drop 1).map t'.find? :=
    List.map_congr_left fun key hkey => hother key (by rintro rfl; revert hkey; decide)
  have hkeys : ∀ t : Table,
      keys.map t.find? = t.find? "git_repo_url" :: (keys.drop 1).map t.find? := fun _ => rfl
  rw [ofTable?, hkeys] at ho ho'
  cases hentry with
  | here =>
    rw [hv, hrest] at ho
    rw [hv'] at ho'
    exact differInRepository_of_ofValues? ho ho'
  | table _ h => nomatch h
  | tables _ _ h => nomatch h

theorem ofConfiguration_eq_ok_iff :
    ofConfiguration t = .ok o ↔ ∃ v, t.find? "project" = some v ∧ ofValue? v = some o := by
  rw [ofConfiguration]
  cases t.find? "project" with
  | none => simp
  | some v => cases h : ofValue? v <;> simp [h]

/-- Only the value of the project counts. -/
theorem differAt_of_ofConfiguration {a b : Value}
    (h : Table.DifferAt a b ("project" :: path) t t') (ho : ofConfiguration t = .ok o)
    (ho' : ofConfiguration t' = .ok o') :
    ∃ v v', Value.DifferAt a b path v v' ∧ ofValue? v = some o ∧ ofValue? v' = some o' := by
  obtain ⟨v, hv, ho⟩ := ofConfiguration_eq_ok_iff.1 ho
  obtain ⟨v', hv', ho'⟩ := ofConfiguration_eq_ok_iff.1 ho'
  obtain ⟨-, hfind, hfind', hentry⟩ := h
  obtain rfl := Option.some.inj (hv.symm.trans hfind)
  obtain rfl := Option.some.inj (hv'.symm.trans hfind')
  exact ⟨v, v', hentry, ho, ho'⟩

/-- Configurations that differ in the repository, as the value of a key, give options that do. -/
theorem differInRepository_of_key
    (h : Table.DifferAt (.string r) (.string r') ["project", "git_repo_url"] t t')
    (ho : ofConfiguration t = .ok o) (ho' : ofConfiguration t' = .ok o') :
    DifferInRepository r r' o o' := by
  obtain ⟨v, v', hentry, ho, ho'⟩ := differAt_of_ofConfiguration h ho ho'
  cases hentry with
  | table _ h => exact differInRepository_of_ofTable? h ho ho'
  | tables => cases ho

/-- And so do those that differ in the first value of an array of all options. -/
theorem differInRepository_of_position {vs : List Value}
    (h : Table.DifferAt (.array (.string r :: vs)) (.array (.string r' :: vs)) ["project"] t t')
    (ho : ofConfiguration t = .ok o) (ho' : ofConfiguration t' = .ok o') :
    DifferInRepository r r' o o' := by
  obtain ⟨v, v', hentry, ho, ho'⟩ := differAt_of_ofConfiguration h ho ho'
  cases hentry with
  | here => exact differInRepository_of_ofValues? ho ho'
  | table _ h => nomatch h
  | tables _ _ h => nomatch h

/-! ### The repository in a text -/

/-- A quoted text by itself. -/
def quoted (x : List Char) : Tree :=
  .leaf (.quoted x)

/-- An array that starts with a quoted text. -/
def firstOf (gap gap' back : List Tree) (x : List Char) : Tree :=
  .group .square (gap ++ [quoted x] ++ gap' ++ back)

/-- Where a configuration gives the repository as a text between double quotes: as the value of its
    key, or as the first value in an array of all options. -/
inductive RepositoryAt (pre post : List Char) : Prop
  | key (h : TextAt quoted ["project", "git_repo_url"] pre post)
  | position {gap gap' back : List Tree} (hgap : ∀ t ∈ gap, t.isGap) (hgap' : ∀ t ∈ gap', t.isGap)
      (hback : StartsIn (.leaf .comma) back)
      (h : TextAt (firstOf gap gap' back) ["project"] pre post)

theorem isLeaf_quoted : IsLeaf quoted where
  isValue _ := rfl
  isTable x v h := by
    rw [quoted, valueAt_quoted] at h
    cases h
    rfl

theorem isLeaf_firstOf {gap gap' back : List Tree} (hgap : ∀ t ∈ gap, t.isGap)
    (hgap' : ∀ t ∈ gap', t.isGap) (hback : StartsIn (.leaf .comma) back) :
    IsLeaf (firstOf gap gap' back) where
  isValue _ := rfl
  isTable x v h := by
    obtain ⟨vs, hvs⟩ := exists_array hback hgap hgap'
    rw [hvs x v h]
    rfl

theorem ofText_eq_ok_iff {text : String} :
    ofText text = .ok o ↔ ∃ t, Toml.read text = .ok t ∧ ofConfiguration t = .ok o := by
  rw [ofText]
  cases Toml.read text <;> simp

/-- Two texts in the place of the repository make a difference in the repository only, as far as
    they do not go beyond this place. -/
theorem RepositoryAt.differInRepository {cs cs' : List Char} (h : RepositoryAt pre post)
    (hends : EndsAtQuote cs post) (hends' : EndsAtQuote cs' post)
    (ho : ofText (String.ofList (pre ++ '"' :: (cs ++ '"' :: post))) = .ok o)
    (ho' : ofText (String.ofList (pre ++ '"' :: (cs' ++ '"' :: post))) = .ok o') :
    ∃ z z', Written cs z ∧ Written cs' z' ∧
      DifferInRepository (String.ofList z) (String.ofList z') o o' := by
  obtain ⟨t, ht, ho⟩ := ofText_eq_ok_iff.1 ho
  obtain ⟨t', ht', ho'⟩ := ofText_eq_ok_iff.1 ho'
  cases h with
  | key h =>
    obtain ⟨z, z', a, b, hz, hz', ha, hb, hdiffer⟩ :=
      read_differAt isLeaf_quoted h hends hends' ht ht'
    rw [quoted, valueAt_quoted] at ha hb
    cases ha
    cases hb
    exact ⟨z, z', hz, hz', differInRepository_of_key hdiffer ho ho'⟩
  | position hgap hgap' hback h =>
    obtain ⟨z, z', a, b, hz, hz', ha, hb, hdiffer⟩ :=
      read_differAt (isLeaf_firstOf hgap hgap' hback) h hends hends' ht ht'
    obtain ⟨vs, hvs⟩ := exists_array hback hgap hgap'
    obtain rfl := hvs z a ha
    obtain rfl := hvs z' b hb
    exact ⟨z, z', hz, hz', differInRepository_of_position hdiffer ho ho'⟩

/-! ### Variables in the place of the repository -/

open Variables

variable {vs vs' : Variables} {name : List Char} {value value' : String}

theorem read_eq_ok_iff {text : String} : read vs text = .ok o ↔
    ofText (String.ofList (vs.substitute text.toList)) = .ok o := by
  rw [read]
  cases ofText (String.ofList (vs.substitute text.toList)) <;> simp [Except.mapError]

/-- What is read is the text with the value in place of the reference. -/
theorem read_reference (hne : name ≠ []) (hbrace : '\x7d' ∉ name)
    (hone : references (pre ++ '"' :: (u ++ reference name ++ w ++ '"' :: post)) =
      [String.ofList name])
    (hset : vs.value? (String.ofList name) = some value) :
    read vs (String.ofList (pre ++ '"' :: (u ++ reference name ++ w ++ '"' :: post))) = .ok o ↔
      ofText (String.ofList (pre ++ '"' :: (u ++ value.toList ++ w ++ '"' :: post))) = .ok o := by
  have hcut : ∀ cs : List Char, pre ++ '"' :: (u ++ cs ++ w ++ '"' :: post) =
      pre ++ '"' :: u ++ cs ++ (w ++ '"' :: post) := fun cs => by simp
  rw [hcut] at hone
  rw [read_eq_ok_iff, String.toList_ofList, hcut,
    substitute_of_references hne hbrace hset hone, ← hcut]

/-! ### A text and two values -/

/-- The start of a text that gives the repository. -/
def repositoryStart : List Char :=
  "project.git_repo_url=".toList

/-- What follows a quoted text, and gives the workspace. -/
def workspaceStart : List Char :=
  "\nproject.workspace_dir=".toList

theorem tokens_repositoryStart (rest : List Char) :
    tokens (skipMark repositoryStart ++ rest) = (tokens rest).map
      ([.word "project".toList, .dot, .word "git_repo_url".toList, .equals] ++ ·) := by
  unfold repositoryStart
  simp [skipMark, tokens, continuesWord, isControl, List.dropWhile, List.takeWhile]
  rfl

theorem tokens_workspaceStart (rest : List Char) :
    tokens (workspaceStart ++ rest) = (tokens rest).map
      ([.newline, .word "project".toList, .dot, .word "workspace_dir".toList, .equals] ++ ·) := by
  unfold workspaceStart
  simp [tokens, continuesWord, isControl, List.dropWhile, List.takeWhile]
  rfl

theorem repositoryAt_start : RepositoryAt repositoryStart [] := by
  have hkey : IsKey
      [.leaf (.word "project".toList), .leaf .dot, .leaf (.word "git_repo_url".toList)]
      ["project"] "git_repo_url" := ⟨by simp [Tree.isGap], rfl⟩
  have hline : PairAt quoted ["project", "git_repo_url"] _ := .leaf hkey (List.forall_mem_nil _)
  exact .key (@TextAt.intro quoted _ _ _ _ [] [] _ _ tokens_repositoryStart tokens.eq_1 (by simp)
    (fun _ => rfl) hline)

theorem ofText_repository {x z : List Char} (hx : Written x z) :
    ofText (String.ofList (repositoryStart ++ '"' :: (x ++ ['"']))) =
      .ok { none with repository := some (String.ofList z) } := by
  have htokens := tokens_around tokens_repositoryStart tokens.eq_1 (by simp) hx
  rw [ofText, Toml.read, String.toList_ofList, htokens]
  rfl

theorem ofText_repository_workspace {x z y w : List Char} (hx : Written x z) (hy : Written y w) :
    ofText (String.ofList
        (repositoryStart ++ '"' :: (x ++ '"' :: (workspaceStart ++ '"' :: (y ++ ['"']))))) =
      .ok { none with repository := some (String.ofList z)
                      workspaceRoot := some (.ofText (String.ofList w)) } := by
  have hpost : tokens (workspaceStart ++ '"' :: (y ++ ['"'])) = some
      [.newline, .word "project".toList, .dot, .word "workspace_dir".toList, .equals,
        .quoted w] := by
    rw [tokens_workspaceStart, tokens_quoted hy (by simp), tokens.eq_1]
    rfl
  have htokens := tokens_around tokens_repositoryStart hpost (fun h => by cases h) hx
  rw [ofText, Toml.read, String.toList_ofList, htokens]
  rfl

theorem references_repository : references
    (repositoryStart ++ '"' :: ([] ++ reference ['V'] ++ [] ++ ['"'])) = [String.ofList ['V']] := by
  have hclosed : Closed (repositoryStart ++ ['"']) := closed_of_no_dollar (by decide)
  have haround := references_around hclosed (show ['V'] ≠ [] by decide) (by decide) ['"']
  have hstart : references (repositoryStart ++ ['"']) = [] := references_of_no_dollar (by decide)
  rw [hstart, references_of_no_dollar (show '$' ∉ ['"'] by decide)] at haround
  simpa using haround

theorem read_repository (hset : vs.value? "V" = some value) :
    read vs (String.ofList (repositoryStart ++ '"' :: ([] ++ reference ['V'] ++ [] ++ ['"']))) =
      .ok o ↔
    ofText (String.ofList (repositoryStart ++ '"' :: (value.toList ++ ['"']))) = .ok o := by
  rw [read_reference (by decide) (by decide) references_repository hset, List.nil_append,
    List.append_nil]

/-! ### Two values of a variable -/

/-- Whether a value holds neither double quotes nor backslashes. -/
def IsPlain (value : String) : Prop :=
  '"' ∉ value.toList ∧ '\\' ∉ value.toList

/-- If a text refers to one variable, in the place of the repository, and is read with two values of
    it that do not end this place, the options are the same but for the repository, which is what is
    written there with the value in place of the reference. A value without quotes and backslashes
    does not end it, and stands for itself. -/
theorem read_agrees (hplace : RepositoryAt pre post) (hne : name ≠ []) (hbrace : '\x7d' ∉ name)
    (hone : references (pre ++ '"' :: (u ++ reference name ++ w ++ '"' :: post)) =
      [String.ofList name])
    (hset : vs.value? (String.ofList name) = some value)
    (hset' : vs'.value? (String.ofList name) = some value')
    (ho : read vs (String.ofList (pre ++ '"' :: (u ++ reference name ++ w ++ '"' :: post))) = .ok o)
    (ho' : read vs' (String.ofList (pre ++ '"' :: (u ++ reference name ++ w ++ '"' :: post))) =
      .ok o') :
    (EndsAtQuote (u ++ value.toList ++ w) post → EndsAtQuote (u ++ value'.toList ++ w) post →
      ∃ z z', Written (u ++ value.toList ++ w) z ∧ Written (u ++ value'.toList ++ w) z' ∧
        DifferInRepository (String.ofList z) (String.ofList z') o o') ∧
    ∀ u' w', Written u u' → Written w w' → IsPlain value → IsPlain value' →
      DifferInRepository (String.ofList (u' ++ value.toList ++ w'))
        (String.ofList (u' ++ value'.toList ++ w')) o o' := by
  rw [read_reference hne hbrace hone hset] at ho
  rw [read_reference hne hbrace hone hset'] at ho'
  refine ⟨fun hends hends' => hplace.differInRepository hends hends' ho ho',
    fun u' w' hu hw hplain hplain' => ?_⟩
  obtain ⟨z, z', hz, hz', hdiffer⟩ := hplace.differInRepository
    (endsAtQuote_around hu hw hplain.1 hplain.2 post)
    (endsAtQuote_around hu hw hplain'.1 hplain'.2 post) ho ho'
  rwa [hz.eq_around hu hw hplain.1 hplain.2, hz'.eq_around hu hw hplain'.1 hplain'.2] at hdiffer

/-- Two plain values, in the place of the repository. -/
theorem read_agrees_plain :
    RepositoryAt repositoryStart [] ∧ ['V'] ≠ [] ∧ '\x7d' ∉ ['V'] ∧
    references (repositoryStart ++ '"' :: ([] ++ reference ['V'] ++ [] ++ ['"'])) =
      [String.ofList ['V']] ∧
    value? [("V", "a")] (String.ofList ['V']) = some "a" ∧
    value? [("V", "b")] (String.ofList ['V']) = some "b" ∧
    read [("V", "a")]
        (String.ofList (repositoryStart ++ '"' :: ([] ++ reference ['V'] ++ [] ++ ['"']))) =
      .ok { none with repository := some "a" } ∧
    read [("V", "b")]
        (String.ofList (repositoryStart ++ '"' :: ([] ++ reference ['V'] ++ [] ++ ['"']))) =
      .ok { none with repository := some "b" } ∧
    IsPlain "a" ∧ IsPlain "b" ∧
    DifferInRepository "a" "b" { none with repository := some "a" }
      { none with repository := some "b" } := by
  have hset : value? [("V", "a")] (String.ofList ['V']) = some "a" := by decide
  have hset' : value? [("V", "b")] (String.ofList ['V']) = some "b" := by decide
  have ho := (read_repository hset).2 (ofText_repository (written_self (by simp [isControl])))
  have ho' := (read_repository hset').2 (ofText_repository (written_self (by simp [isControl])))
  have ha : IsPlain "a" := ⟨by decide, by decide⟩
  have hb : IsPlain "b" := ⟨by decide, by decide⟩
  have hagrees := (read_agrees repositoryAt_start (by decide) (by decide) references_repository hset
    hset' ho ho').2 [] [] .nil .nil ha hb
  exact ⟨repositoryAt_start, by decide, by decide, references_repository, hset, hset', ho, ho', ha,
    hb, hagrees⟩

/-- A value with a quote in it ends the text it is put into, and gives the workspace as well. -/
theorem read_value_with_quote :
    RepositoryAt repositoryStart [] ∧
    references (repositoryStart ++ '"' :: ([] ++ reference ['V'] ++ [] ++ ['"'])) =
      [String.ofList ['V']] ∧
    value? [("V", "a")] (String.ofList ['V']) = some "a" ∧
    value? [("V", "a\"\nproject.workspace_dir=\"b")] (String.ofList ['V']) =
      some "a\"\nproject.workspace_dir=\"b" ∧
    read [("V", "a")]
        (String.ofList (repositoryStart ++ '"' :: ([] ++ reference ['V'] ++ [] ++ ['"']))) =
      .ok { none with repository := some "a" } ∧
    read [("V", "a\"\nproject.workspace_dir=\"b")]
        (String.ofList (repositoryStart ++ '"' :: ([] ++ reference ['V'] ++ [] ++ ['"']))) =
      .ok { none with repository := some "a", workspaceRoot := some ⟨"b"⟩ } ∧
    ∀ r r', ¬DifferInRepository r r' { none with repository := some "a" }
      { none with repository := some "a", workspaceRoot := some ⟨"b"⟩ } := by
  have hset : value? [("V", "a")] (String.ofList ['V']) = some "a" := by decide
  have hset' : value? [("V", "a\"\nproject.workspace_dir=\"b")] (String.ofList ['V']) =
    some "a\"\nproject.workspace_dir=\"b" := by decide
  refine ⟨repositoryAt_start, references_repository, hset, hset', ?_, ?_, ?_⟩
  · exact (read_repository hset).2 (ofText_repository (written_self (by simp [isControl])))
  · have htext : "a\"\nproject.workspace_dir=\"b".toList ++ ['"'] =
        "a".toList ++ '"' :: (workspaceStart ++ '"' :: ("b".toList ++ ['"'])) := by decide
    have hroot : Path.ofText "b" = ⟨"b"⟩ := by
      rw [Path.ofText, ByteString.ofText_of_ascii (by decide)]
    rw [read_repository hset', htext, ← hroot]
    exact ofText_repository_workspace (written_self (by simp [isControl]))
      (written_self (by simp [isControl]))
  · rintro r r' ⟨-, -, hother⟩
    cases hother

end TestBench.Options
