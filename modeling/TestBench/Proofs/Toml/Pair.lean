import TestBench.Proofs.Toml.Item
import TestBench.Proofs.Toml.Quoted
import TestBench.Proofs.Toml.Table

/-!
# Pairs that differ in one value

A line of a configuration, or a member of a table in braces, gives a key a value. If a text stands
in the value (`PairAt`), by itself or in a table in braces, nothing but this value depends on it.

* `pairOf_line`: what a pair is;
* `exists_array`: the rest of an array that starts with a text is the same whatever the text is;
* `PairAt.exists_differAt`: pairs that are read with one text and with another one.
-/

namespace TestBench.Toml

variable {a b v v' : Value} {i : Item} {t : Tree} {is items : List Item} {left blank : List Tree}
  {path inner : List String} {key : String}

/-! ### Values -/

/-- The value that a gathered token is. -/
def valueAt (t : Tree) : Option Value :=
  (itemOf t).bind fun i => valueOf [i]

theorem valueAt_quoted (x : List Char) :
    valueAt (.leaf (.quoted x)) = some (.string (String.ofList x)) := by
  rw [valueAt, itemOf]
  rfl

theorem valueAt_brace (inside : List Tree) :
    valueAt (.group .brace inside) = (itemsOf inside).bind tableOf := by
  rw [valueAt, itemOf]
  cases (itemsOf inside).bind tableOf <;> rfl

theorem valueAt_square (inside : List Tree) :
    valueAt (.group .square inside) = (itemsOf inside).bind arrayOf := by
  rw [valueAt, itemOf]
  cases (itemsOf inside).bind arrayOf <;> rfl

theorem valueOf_blanks_append {bs : List Item} (hbs : ∀ b ∈ bs, b.isBlank)
    (hi : i.isBlank = false) : valueOf (bs ++ [i]) = valueOf [i] := by
  have htrim : ∀ {bs : List Item}, (∀ b ∈ bs, b.isBlank) →
      trimBy Item.isBlank (bs ++ [i]) = [i] := by
    intro bs hbs
    rw [← List.append_nil (bs ++ [i])]
    exact trimBy_around (List.cons_ne_nil i []) hbs (by simp) (by simpa using hi)
      (by simpa using hi)
  have hself : trimBy Item.isBlank [i] = [i] := @htrim [] (by simp)
  rw [valueOf, valueOf, htrim hbs, hself]

theorem exists_of_tableOf (h : tableOf items = some v) : ∃ pairs t,
    (members items).mapM pairOf = some pairs ∧ Table.assignAll pairs [] = some t ∧
      v = .table .braces t := by
  rw [tableOf] at h
  split at h
  next pairs hpairs =>
    obtain ⟨t, ht, rfl⟩ := Option.map_eq_some_iff.1 h
    exact ⟨pairs, t, hpairs, ht, rfl⟩
  next => cases h

theorem exists_of_arrayOf (h : arrayOf items = some v) :
    ∃ vs, (members items).mapM valueOf = some vs ∧ v = .array vs := by
  obtain ⟨vs, hvs, rfl⟩ := Option.map_eq_some_iff.1 h
  exact ⟨vs, hvs, rfl⟩

/-- An array that starts with a quoted text, and goes on in the same way whatever the text is. -/
theorem exists_array {gap gap' back : List Tree} (hback : StartsIn (.leaf .comma) back)
    (hgap : ∀ t ∈ gap, t.isGap) (hgap' : ∀ t ∈ gap', t.isGap) :
    ∃ vs, ∀ x v, valueAt (.group .square (gap ++ [.leaf (.quoted x)] ++ gap' ++ back)) = some v →
      v = .array (.string (String.ofList x) :: vs) := by
  obtain ⟨before, after, hnil, hmembers⟩ :=
    exists_members_of_itemsOf (.inl rfl) hback hgap hgap'
  obtain rfl := hnil rfl
  refine ⟨(after.mapM valueOf).getD [], fun x v hv => ?_⟩
  rw [valueAt_square] at hv
  obtain ⟨items, hitems, hv⟩ := Option.bind_eq_some_iff.1 hv
  have hmember : ∀ is, itemsOf [.leaf (.quoted x)] = some is → IsMember is := by
    rintro is his
    cases his
    exact ⟨by simp, by simp [Item.isGap], by simp [Item.isGap], by simp [Item.isComma]⟩
  obtain ⟨is, his, heq⟩ := hmembers hmember hitems
  cases his
  obtain ⟨vs, hvs, rfl⟩ := exists_of_arrayOf hv
  rw [heq] at hvs
  obtain ⟨front, w, vs, rfl, hfront, hw, hafter⟩ := exists_of_mapM hvs
  cases hfront
  cases hw
  rw [hafter]
  rfl

/-! ### Pairs -/

/-- Whether gathered tokens are the key in front of an equals sign. -/
structure IsKey (left : List Tree) (path : List String) (key : String) : Prop where
  start : ∀ t ∈ left.head?, t.isGap = false
  key : (itemsOf left).bind keyOf = some (path, key)

/-- Before the first equals sign there is the key, and behind it the value. -/
theorem pairOf_append {left right : List Item} (hkey : keyOf left = some (path, key)) :
    pairOf (left ++ .token .equals :: right) = (valueOf right).map (path, key, ·) := by
  have hleft : ∀ i ∈ left, i ≠ .token .equals := by
    rintro i hi rfl
    cases isKeyPart_of_keyOf hkey _ hi
  rw [pairOf, List.dropWhile_append_of_pos, List.takeWhile_append_of_pos]
  · simp only [Bool.not_true, Bool.false_eq_true, not_false_eq_true, List.dropWhile_cons_of_neg,
      List.takeWhile_cons_of_neg, List.append_nil, hkey]
    cases valueOf right <;> rfl
  all_goals
    intro i hi
    rw [Bool.not_eq_true']
    dsimp only
    split
    · exact absurd rfl (hleft _ hi)
    · rfl

/-- What a pair is, as far as its value is one token or a group. -/
theorem pairOf_line (hkey : IsKey left path key) (hblank : ∀ t ∈ blank, t.isBlank)
    (ht : t.isValue) : (itemsOf (left ++ .leaf .equals :: (blank ++ [t]))).bind pairOf =
      (valueAt t).map (path, key, ·) := by
  obtain ⟨is, his, hk⟩ := Option.bind_eq_some_iff.1 hkey.key
  obtain ⟨bs, hbs, hall⟩ := exists_itemsOf (fun _ => exists_itemOf_of_isBlank) hblank
  rw [itemsOf_append, itemsOf_cons, itemsOf_append, itemsOf_cons, his, hbs, itemOf, itemsOf,
    valueAt]
  cases hi : itemOf t with
  | none => rfl
  | some i =>
    simp only [Option.bind_some, Option.map_some]
    have hblank : i.isBlank = false :=
      isBlank_of_isGap ((isGap_of_itemOf hi).trans (isGap_of_isValue ht))
    rw [pairOf_append hk, valueOf_blanks_append hall hblank]

/-- A key, an equals sign and a value are a member. -/
theorem isMember_of_itemsOf (hkey : IsKey left path key) (hblank : ∀ t ∈ blank, t.isBlank)
    (ht : t.isValue) (h : itemsOf (left ++ .leaf .equals :: (blank ++ [t])) = some is) :
    IsMember is := by
  obtain ⟨is', his, hk⟩ := Option.bind_eq_some_iff.1 hkey.key
  obtain ⟨bs, hbs, hall⟩ := exists_itemsOf (fun _ => exists_itemOf_of_isBlank) hblank
  rw [itemsOf_append, itemsOf_cons, itemsOf_append, itemsOf_cons, his, hbs, itemOf, itemsOf] at h
  cases hi : itemOf t with
  | none =>
    rw [hi] at h
    cases h
  | some i =>
    rw [hi] at h
    obtain rfl : is' ++ .token .equals :: (bs ++ [i]) = is := Option.some.inj h
    refine ⟨by simp, ?_, ?_, ?_⟩
    · cases left with
      | nil =>
        cases his
        simp [Item.isGap]
      | cons t left =>
        rw [itemsOf_cons] at his
        obtain ⟨j, hj, his⟩ := Option.bind_eq_some_iff.1 his
        obtain ⟨js, -, rfl⟩ := Option.map_eq_some_iff.1 his
        simpa using (isGap_of_itemOf hj).trans (hkey.start t rfl)
    · rw [← List.cons_append, ← List.append_assoc, List.getLast?_concat]
      simpa using (isGap_of_itemOf hi).trans (isGap_of_isValue ht)
    · intro j hj
      simp only [List.mem_append, List.mem_cons, List.not_mem_nil, or_false] at hj
      rcases hj with hj | rfl | hj | rfl
      · exact isComma_of_isKeyPart (isKeyPart_of_keyOf hk j hj)
      · rfl
      · exact isComma_of_isGap (isGap_of_isBlank (hall j hj))
      · exact isComma_of_isValue ht hi

/-! ### Texts in a pair -/

/-- Where in a line, or in a member of a table in braces, a text is given for a path. Whatever the
    text is, the value at the path is what `leaf` makes of it. -/
inductive PairAt (leaf : List Char → Tree) : List String → (List Char → List Tree) → Prop
  | leaf {left blank : List Tree} {path : List String} {key : String} (hkey : IsKey left path key)
      (hblank : ∀ t ∈ blank, t.isBlank) :
      PairAt leaf (path ++ [key]) fun x => left ++ .leaf .equals :: (blank ++ [leaf x])
  | braces {left blank front gap gap' back : List Tree} {path inner : List String} {key : String}
      {pair : List Char → List Tree} (hkey : IsKey left path key) (hblank : ∀ t ∈ blank, t.isBlank)
      (hfront : EndsIn (.leaf .comma) front)
      (hback : StartsIn (.leaf .comma) back)
      (hgap : ∀ t ∈ gap, t.isGap) (hgap' : ∀ t ∈ gap', t.isGap) (hpair : PairAt leaf inner pair) :
      PairAt leaf (path ++ key :: inner) fun x => left ++ .leaf .equals ::
        (blank ++ [.group .brace (front ++ (gap ++ pair x ++ gap') ++ back)])

/-- Whether trees are values, and none of them a table. -/
structure IsLeaf (leaf : List Char → Tree) : Prop where
  isValue : ∀ x, (leaf x).isValue
  isTable : ∀ x v, valueAt (leaf x) = some v → v.isTable = false

theorem PairAt.isMember {leaf : List Char → Tree} {p : List String} {pair : List Char → List Tree}
    (hleaf : IsLeaf leaf) (h : PairAt leaf p pair) (x : List Char)
    (h' : itemsOf (pair x) = some is) : IsMember is := by
  cases h with
  | leaf hkey hblank => exact isMember_of_itemsOf hkey hblank (hleaf.isValue x) h'
  | braces hkey hblank => exact isMember_of_itemsOf hkey hblank rfl h'

/-- Pairs that are read with one text and with another one have the same key, and values that differ
    in these texts only. -/
theorem PairAt.exists_differAt {leaf : List Char → Tree} {p : List String}
    {pair : List Char → List Tree} {x y : List Char} {path' : List String} {key' : String}
    (hleaf : IsLeaf leaf) (h : PairAt leaf p pair)
    (hx : (itemsOf (pair x)).bind pairOf = some (path, key, v))
    (hy : (itemsOf (pair y)).bind pairOf = some (path', key', v')) :
    ∃ a b inner, valueAt (leaf x) = some a ∧ valueAt (leaf y) = some b ∧ path' = path ∧ key' = key ∧
      p = path ++ key :: inner ∧ Value.DifferAt a b inner v v' := by
  induction h generalizing path key v path' key' v' with
  | leaf hkey hblank =>
    rw [pairOf_line hkey hblank (hleaf.isValue _)] at hx hy
    obtain ⟨v, hv, heq⟩ := Option.map_eq_some_iff.1 hx
    obtain ⟨v', hv', heq'⟩ := Option.map_eq_some_iff.1 hy
    cases heq
    cases heq'
    exact ⟨v, v', [], hv, hv', rfl, rfl, rfl, .here⟩
  | braces hkey hblank hfront hback hgap hgap' hpair ih =>
    rw [pairOf_line hkey hblank rfl, valueAt_brace] at hx hy
    obtain ⟨v, hv, heq⟩ := Option.map_eq_some_iff.1 hx
    obtain ⟨v', hv', heq'⟩ := Option.map_eq_some_iff.1 hy
    cases heq
    cases heq'
    obtain ⟨before, after, -, hmembers⟩ := exists_members_of_itemsOf hfront hback hgap hgap'
    obtain ⟨items, hitems, hv⟩ := Option.bind_eq_some_iff.1 hv
    obtain ⟨items', hitems', hv'⟩ := Option.bind_eq_some_iff.1 hv'
    obtain ⟨is, his, heq⟩ := hmembers (fun _ => hpair.isMember hleaf _) hitems
    obtain ⟨is', his', heq'⟩ := hmembers (fun _ => hpair.isMember hleaf _) hitems'
    obtain ⟨pairs, t, hpairs, ht, rfl⟩ := exists_of_tableOf hv
    obtain ⟨pairs', t', hpairs', ht', rfl⟩ := exists_of_tableOf hv'
    rw [heq] at hpairs
    rw [heq'] at hpairs'
    obtain ⟨ps, ⟨pathx, keyx, vx⟩, qs, rfl, hps, hp, hqs⟩ := exists_of_mapM hpairs
    obtain ⟨ps', ⟨pathy, keyy, vy⟩, qs', rfl, hps', hp', hqs'⟩ := exists_of_mapM hpairs'
    obtain rfl := Option.some.inj (hps.symm.trans hps')
    obtain rfl := Option.some.inj (hqs.symm.trans hqs')
    obtain ⟨a, b, inner, ha, hb, hpath, hkey, rfl, hdiffer⟩ :=
      ih (Option.bind_eq_some_iff.2 ⟨is, his, hp⟩) (Option.bind_eq_some_iff.2 ⟨is', his', hp'⟩)
    obtain ⟨rfl, rfl⟩ := And.intro hpath hkey
    exact ⟨a, b, _, ha, hb, rfl, rfl, rfl,
      .table .braces (Table.differAt_assignAll (hleaf.isTable _ _ ha) hdiffer ht ht')⟩

end TestBench.Toml
