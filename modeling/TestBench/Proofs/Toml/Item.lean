import Mathlib.Data.List.TakeWhile
import TestBench.Toml.Document

/-!
# Items of a line

The items of a line, or of a group in brackets, are read part by part. What stands in front of an
equals sign is a key; what stands between two commas is a member of the group, and does not depend
on the others.

* `isKeyPart_of_keyOf`: what a key consists of;
* `exists_members_of_itemsOf`: the other members of a group are the same whatever one of them is.
-/

namespace TestBench.Toml

variable {i : Item} {t : Tree} {is items : List Item} {ts : List Tree} {path : List String}
  {key : String}

/-! ### Lists -/

theorem mapM_eq_some_iff {α β : Type} {f : α → Option β} {as : List α} {bs : List β} :
    as.mapM f = some bs ↔ as.map f = bs.map some := by
  induction as generalizing bs with
  | nil => cases bs <;> simp
  | cons a as ih =>
    rw [List.mapM_cons, List.map_cons]
    cases bs with
    | nil => cases f a <;> cases as.mapM f <;> simp
    | cons b bs =>
      rw [List.map_cons, List.cons.injEq, ← ih]
      cases f a <;> cases as.mapM f <;> simp

/-- What is made of the members of a list is cut where the list is. -/
theorem exists_of_mapM {α β : Type} {f : α → Option β} {front back : List α} {a : α} {bs : List β}
    (h : (front ++ a :: back).mapM f = some bs) :
    ∃ front' b back', bs = front' ++ b :: back' ∧ front.mapM f = some front' ∧ f a = some b ∧
      back.mapM f = some back' := by
  simp only [mapM_eq_some_iff, List.map_append, List.map_cons] at h ⊢
  obtain ⟨front', rest, rfl, hfront, hrest⟩ := List.map_eq_append_iff.1 h.symm
  obtain ⟨b, back', rfl, hb, hback⟩ := List.map_eq_cons_iff.1 hrest
  exact ⟨front', b, back', rfl, hfront.symm, hb.symm, hback.symm⟩

/-- What is trimmed off a list satisfies the condition. -/
theorem exists_trimBy {α : Type} (p : α → Bool) (as : List α) : ∃ front back,
    as = front ++ trimBy p as ++ back ∧ (∀ x ∈ front, p x) ∧ ∀ x ∈ back, p x := by
  refine ⟨as.takeWhile p, ((as.dropWhile p).reverse.takeWhile p).reverse, ?_, ?_, ?_⟩
  · rw [trimBy, List.append_assoc, ← List.reverse_append, List.takeWhile_append_dropWhile,
      List.reverse_reverse, List.takeWhile_append_dropWhile]
  · exact fun x hx => List.mem_takeWhile_imp hx
  · exact fun x hx => List.mem_takeWhile_imp (List.mem_reverse.1 hx)

/-- A list that neither starts nor ends with what is trimmed off is all that is left. -/
theorem trimBy_around {α : Type} {p : α → Bool} {front back as : List α} (hne : as ≠ [])
    (hfront : ∀ x ∈ front, p x) (hback : ∀ x ∈ back, p x) (hhead : ∀ x ∈ as.head?, p x = false)
    (hlast : ∀ x ∈ as.getLast?, p x = false) : trimBy p (front ++ as ++ back) = as := by
  have hdrop : ∀ {bs cs : List α}, bs ≠ [] → (∀ x ∈ bs.head?, p x = false) →
      (bs ++ cs).dropWhile p = bs ++ cs := by
    intro bs cs hne hhead
    obtain ⟨b, bs, rfl⟩ := List.exists_cons_of_ne_nil hne
    rw [List.cons_append, List.dropWhile_cons_of_neg (by simp [hhead b rfl])]
  rw [trimBy, List.append_assoc, List.dropWhile_append_of_pos hfront, hdrop hne hhead,
    List.reverse_append, List.dropWhile_append_of_pos (by simpa using hback)]
  have hreverse := @hdrop as.reverse [] (by simpa using hne)
    (by simpa [List.head?_reverse] using hlast)
  rw [List.append_nil] at hreverse
  rw [hreverse, List.reverse_reverse]

/-- Whether a list is empty or ends with a separator. -/
def EndsIn {α : Type} (a : α) (front : List α) : Prop :=
  front = [] ∨ ∃ f, front = f ++ [a]

/-- Whether a list is empty or starts with a separator. -/
def StartsIn {α : Type} (a : α) (back : List α) : Prop :=
  back = [] ∨ ∃ b, back = a :: b

/-- Around a piece, the others are the same whatever it is. -/
theorem exists_piecesBy {α : Type} {separates : α → Bool} {a : α} (ha : separates a)
    {front back : List α} (hfront : EndsIn a front) (hback : StartsIn a back) :
    ∃ before after, (front = [] → before = []) ∧ ∀ piece, (∀ c ∈ piece, separates c = false) →
      Text.piecesBy separates (front ++ piece ++ back) = before ++ piece :: after := by
  obtain ⟨after, hafter⟩ : ∃ after, ∀ piece, (∀ c ∈ piece, separates c = false) →
      Text.piecesBy separates (piece ++ back) = piece :: after := by
    rcases hback with rfl | ⟨b, rfl⟩
    · exact ⟨[], fun piece hpiece => by rw [List.append_nil, Text.piecesBy_of_forall hpiece]⟩
    · refine ⟨Text.piecesBy separates b, fun piece hpiece => ?_⟩
      rw [Text.piecesBy_append ha, Text.piecesBy_of_forall hpiece]
      rfl
  rcases hfront with rfl | ⟨f, rfl⟩
  · exact ⟨[], after, fun _ => rfl, hafter⟩
  · refine ⟨Text.piecesBy separates f, after, fun h => by simp at h, fun piece hpiece => ?_⟩
    rw [List.append_assoc, List.append_assoc, List.singleton_append, Text.piecesBy_append ha,
      hafter piece hpiece]

/-! ### Kinds of items -/

/-- Whether a gathered token is blank or the end of a line. -/
def Tree.isGap : Tree → Bool
  | .leaf (.blank _) => true
  | .leaf .newline => true
  | _ => false

/-- Whether a gathered token may be a value by itself. -/
def Tree.isValue : Tree → Bool
  | .leaf (.quoted _) => true
  | .group _ _ => true
  | _ => false

/-- Whether an item may stand in a key. -/
def Item.isKeyPart : Item → Bool
  | .token (.blank _) => true
  | .token .dot => true
  | .token (.word _) => true
  | .token (.quoted _) => true
  | _ => false

/-- Whether an item is a comma. -/
def Item.isComma : Item → Bool
  | .token .comma => true
  | _ => false

theorem isGap_of_isBlank (h : i.isBlank) : i.isGap := by
  cases i with
  | token token => cases token <;> first | rfl | cases h
  | value => cases h

theorem isBlank_of_isGap (h : i.isGap = false) : i.isBlank = false := by
  cases i with
  | token token => cases token <;> first | rfl | exact h
  | value => rfl

theorem isComma_of_isGap (h : i.isGap) : i.isComma = false := by
  cases i with
  | token token => cases token <;> first | rfl | cases h
  | value => rfl

theorem isComma_of_isKeyPart (h : i.isKeyPart) : i.isComma = false := by
  cases i with
  | token token => cases token <;> first | rfl | cases h
  | value => rfl

theorem isGap_of_isValue (h : t.isValue) : t.isGap = false := by
  unfold Tree.isValue at h
  split at h
  · rfl
  · rfl
  · cases h

/-! ### Items of gathered tokens -/

theorem itemsOf_cons (t : Tree) (ts : List Tree) :
    itemsOf (t :: ts) = (itemOf t).bind fun i => (itemsOf ts).map (i :: ·) := by
  rw [itemsOf]
  cases itemOf t <;> cases itemsOf ts <;> rfl

theorem itemsOf_append (ts us : List Tree) :
    itemsOf (ts ++ us) = (itemsOf ts).bind fun is => (itemsOf us).map (is ++ ·) := by
  induction ts with
  | nil => simp [itemsOf]
  | cons t ts ih =>
    rw [List.cons_append, itemsOf_cons, itemsOf_cons, ih]
    cases itemOf t <;> cases itemsOf ts <;> cases itemsOf us <;> rfl

/-- What becomes of gathered tokens of a kind is of the like kind. -/
theorem exists_itemsOf {p : Tree → Bool} {q : Item → Bool}
    (hpq : ∀ t, p t → ∃ i, itemOf t = some i ∧ q i) (hts : ∀ t ∈ ts, p t) :
    ∃ is, itemsOf ts = some is ∧ ∀ i ∈ is, q i := by
  induction ts with
  | nil => exact ⟨[], rfl, by simp⟩
  | cons t ts ih =>
    rw [List.forall_mem_cons] at hts
    obtain ⟨i, hi, hqi⟩ := hpq t hts.1
    obtain ⟨is, his, hqis⟩ := ih hts.2
    refine ⟨i :: is, ?_, List.forall_mem_cons.2 ⟨hqi, hqis⟩⟩
    rw [itemsOf_cons, hi, his]
    rfl

theorem exists_itemOf_of_isGap (ht : t.isGap) : ∃ i, itemOf t = some i ∧ i.isGap := by
  unfold Tree.isGap at ht
  split at ht
  · exact ⟨_, rfl, rfl⟩
  · exact ⟨_, rfl, rfl⟩
  · cases ht

theorem exists_itemOf_of_isBlank (ht : t.isBlank) : ∃ i, itemOf t = some i ∧ i.isBlank := by
  unfold Tree.isBlank at ht
  split at ht
  · exact ⟨_, rfl, rfl⟩
  · cases ht

theorem isGap_of_itemOf (h : itemOf t = some i) : i.isGap = t.isGap := by
  cases t with
  | leaf token =>
    rw [itemOf] at h
    cases h
    cases token <;> rfl
  | group bracket inside =>
    cases bracket <;>
    · rw [itemOf] at h
      obtain ⟨v, -, rfl⟩ := Option.map_eq_some_iff.1 h
      rfl

theorem isComma_of_isValue (ht : t.isValue) (h : itemOf t = some i) : i.isComma = false := by
  unfold Tree.isValue at ht
  split at ht
  · rw [itemOf] at h
    cases h
    rfl
  next bracket inside =>
    cases bracket <;>
    · rw [itemOf] at h
      obtain ⟨v, -, rfl⟩ := Option.map_eq_some_iff.1 h
      rfl
  · cases ht

theorem EndsIn.itemsOf {token : Token} (hts : EndsIn (.leaf token) ts)
    (his : Toml.itemsOf ts = some is) : EndsIn (.token token) is := by
  rcases hts with rfl | ⟨f, rfl⟩
  · cases his
    exact .inl rfl
  · rw [itemsOf_append, itemsOf_cons, itemOf, Toml.itemsOf] at his
    obtain ⟨fs, -, heq⟩ := Option.bind_eq_some_iff.1 his
    cases heq
    exact .inr ⟨fs, rfl⟩

theorem StartsIn.itemsOf {token : Token} (hts : StartsIn (.leaf token) ts)
    (his : Toml.itemsOf ts = some is) : StartsIn (.token token) is := by
  rcases hts with rfl | ⟨b, rfl⟩
  · cases his
    exact .inl rfl
  · rw [itemsOf_cons, itemOf] at his
    obtain ⟨bs, -, rfl⟩ := Option.map_eq_some_iff.1 his
    exact .inr ⟨bs, rfl⟩

/-! ### Keys -/

theorem isKeyPart_of_keyPart (h : keyPart items = some key) : ∀ i ∈ items, i.isKeyPart := by
  obtain ⟨front, back, heq, hfront, hback⟩ := exists_trimBy Item.isBlank items
  have hblank : ∀ {i : Item}, i.isBlank → i.isKeyPart := by
    intro i hi
    unfold Item.isBlank at hi
    split at hi
    · rfl
    · cases hi
  have hmiddle : ∀ i ∈ trimBy Item.isBlank items, i.isKeyPart := by
    rw [keyPart] at h
    split at h
    next heq =>
      rw [heq]
      simp [Item.isKeyPart]
    next heq =>
      rw [heq]
      simp [Item.isKeyPart]
    next => cases h
  intro i hi
  rw [heq, List.mem_append, List.mem_append] at hi
  rcases hi with (hi | hi) | hi
  · exact hblank (hfront i hi)
  · exact hmiddle i hi
  · exact hblank (hback i hi)

/-- A key consists of what may stand in it. -/
theorem isKeyPart_of_keyOf (h : keyOf items = some (path, key)) : ∀ i ∈ items, i.isKeyPart := by
  intro i hi
  rw [keyOf] at h
  split at h
  next parts hparts =>
    have hpart : ∀ {separates : Item → Bool}, separates i = false →
        (Text.piecesBy separates items).mapM keyPart = some parts → i.isKeyPart := by
      intro separates hseparates hparts
      rw [mapM_eq_some_iff] at hparts
      obtain ⟨p, hp, hip⟩ := Text.exists_mem_piecesBy hi hseparates
      obtain ⟨part, -, hpart⟩ := List.mem_map.1 (hparts ▸ List.mem_map_of_mem hp)
      exact isKeyPart_of_keyPart hpart.symm i hip
    by_cases hdot : i = .token .dot
    · rw [hdot]
      rfl
    · refine hpart ?_ hparts
      split
      · exact absurd rfl hdot
      · rfl
  next => cases h

/-! ### Members -/

/-- Whether items neither start nor end with a gap, and are not separated by commas. -/
structure IsMember (is : List Item) : Prop where
  ne_nil : is ≠ []
  start : ∀ i ∈ is.head?, i.isGap = false
  last : ∀ i ∈ is.getLast?, i.isGap = false
  isComma : ∀ i ∈ is, i.isComma = false

/-- A list without the empty list at its end. -/
def dropLastEmpty (each : List (List Item)) : List (List Item) :=
  match each.getLast? with
  | some [] => each.dropLast
  | _ => each

theorem members_eq (items : List Item) : members items =
    dropLastEmpty ((Text.piecesBy Item.isComma items).map (trimBy Item.isGap)) :=
  rfl

theorem dropLastEmpty_append {member : List Item} (hne : member ≠ [])
    (before after : List (List Item)) :
    dropLastEmpty (before ++ member :: after) = before ++ member :: dropLastEmpty after := by
  obtain ⟨i, is, rfl⟩ := List.exists_cons_of_ne_nil hne
  rcases List.eq_nil_or_concat after with rfl | ⟨after, last, rfl⟩
  · simp [dropLastEmpty]
  · have hconcat : before ++ (i :: is) :: (after.concat last) =
        before ++ (i :: is) :: after ++ [last] := by simp
    rw [hconcat, List.concat_eq_append, dropLastEmpty, dropLastEmpty, List.getLast?_append,
      List.getLast?_append]
    cases last <;> simp [List.dropLast_cons_of_ne_nil]

/-- Around a member of a group, the others are the same whatever it is. -/
theorem exists_members {front back : List Item}
    (hfront : EndsIn (.token .comma) front)
    (hback : StartsIn (.token .comma) back) :
    ∃ before after, (front = [] → before = []) ∧ ∀ member, (∀ i ∈ member, i.isComma = false) →
      trimBy Item.isGap member ≠ [] →
      members (front ++ member ++ back) = before ++ trimBy Item.isGap member :: after := by
  obtain ⟨before, after, hnil, hpieces⟩ :=
    exists_piecesBy (show Item.isComma (.token .comma) from rfl) hfront hback
  refine ⟨before.map (trimBy Item.isGap), dropLastEmpty (after.map (trimBy Item.isGap)),
    fun h => by rw [hnil h, List.map_nil], fun member hmember hne => ?_⟩
  rw [members_eq, hpieces member hmember, List.map_append, List.map_cons, dropLastEmpty_append hne]

/-- Around a member of a group in brackets, the others are the same whatever it is. -/
theorem exists_members_of_itemsOf {front gap gap' back : List Tree}
    (hfront : EndsIn (.leaf .comma) front) (hback : StartsIn (.leaf .comma) back)
    (hgap : ∀ t ∈ gap, t.isGap) (hgap' : ∀ t ∈ gap', t.isGap) :
    ∃ before after, (front = [] → before = []) ∧ ∀ {member items},
      (∀ is, itemsOf member = some is → IsMember is) →
      itemsOf (front ++ (gap ++ member ++ gap') ++ back) = some items →
      ∃ is, itemsOf member = some is ∧ members items = before ++ is :: after := by
  obtain ⟨gs, hgs, hallgs⟩ := exists_itemsOf (fun _ => exists_itemOf_of_isGap) hgap
  obtain ⟨gs', hgs', hallgs'⟩ := exists_itemsOf (fun _ => exists_itemOf_of_isGap) hgap'
  cases hfs : itemsOf front with
  | none => exact ⟨[], [], fun _ => rfl, fun _ h => by simp [itemsOf_append, hfs] at h⟩
  | some fs =>
  cases hbs : itemsOf back with
  | none => exact ⟨[], [], fun _ => rfl, fun _ h => by simp [itemsOf_append, hbs] at h⟩
  | some bs =>
  obtain ⟨before, after, hnil, hmembers⟩ := exists_members (hfront.itemsOf hfs) (hback.itemsOf hbs)
  refine ⟨before, after, fun h => hnil ?_, fun {member items} hmember hitems => ?_⟩
  · rw [h] at hfs
    exact (Option.some.inj hfs).symm
  · simp only [itemsOf_append, hfs, hbs, hgs, hgs', Option.bind_some] at hitems
    cases his : itemsOf member with
    | none => simp [his] at hitems
    | some is =>
      simp only [his, Option.bind_some, Option.map_some, Option.some.injEq] at hitems
      obtain ⟨hne, hstart, hlast, hcomma⟩ := hmember is his
      have htrim := trimBy_around hne hallgs hallgs' hstart hlast
      refine ⟨is, rfl, ?_⟩
      rw [← hitems, hmembers, htrim]
      · intro i hi
        simp only [List.mem_append] at hi
        rcases hi with (hi | hi) | hi
        · exact isComma_of_isGap (hallgs i hi)
        · exact hcomma i hi
        · exact isComma_of_isGap (hallgs' i hi)
      · rwa [htrim]

end TestBench.Toml
