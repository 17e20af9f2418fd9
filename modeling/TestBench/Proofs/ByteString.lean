import TestBench.ByteString
import TestBench.Proofs.Text.Decoding

/-!
# Texts as byte strings

A text is got back from its byte string, and from no other (`text?_eq_some_iff`). The byte string is
made of pieces, one for each character of the text; that of an ASCII character is the character,
and in the others there is none. So a text in ASCII is its own byte string (`ofText_of_ascii`), and
what is said of slashes and dots may be said of the text or of the byte string.

* `text?_eq_some_iff`: which byte strings are texts;
* `toList_ofText`, `mem_spelled_iff`: the characters of the byte string of a text.
-/

namespace TestBench.ByteString

variable {s t : String} {b : ByteString} {c : Char} {cs : List Char}

/-! ### Bytes and characters -/

theorem toNat_char (b : UInt8) : (char b).toNat = b.toNat := by
  have hvalid : b.toNat.isValidChar := .inl (Nat.lt_trans b.toNat_lt (by decide))
  rw [char, Char.ofNat, dif_pos hvalid]
  rfl

theorem byte_char (b : UInt8) : byte (char b) = b := by
  rw [byte, toNat_char, UInt8.ofNat_toNat]

theorem char_byte (h : c.toNat < 256) : char (byte c) = c := by
  rw [char, byte, UInt8.toNat_ofNat', Nat.mod_eq_of_lt h, Char.ofNat_toNat]

theorem bytes_ofBytes (bs : List UInt8) : (ofBytes bs).bytes = bs := by
  rw [ofBytes, bytes, String.toList_ofList, List.map_map]
  exact (List.map_congr_left fun b _ => byte_char b).trans (List.map_id bs)

theorem ofBytes_bytes (h : b.isBytes) : ofBytes b.bytes = b := by
  rw [isBytes, List.all_eq_true] at h
  apply String.toList_injective
  rw [ofBytes, bytes, String.toList_ofList, List.map_map]
  exact (List.map_congr_left fun c hc => char_byte (of_decide_eq_true (h c hc))).trans
    (List.map_id _)

theorem isBytes_ofBytes (bs : List UInt8) : (ofBytes bs).isBytes := by
  rw [isBytes, ofBytes, String.toList_ofList, List.all_map, List.all_eq_true]
  exact fun b _ => decide_eq_true (by rw [toNat_char]; exact b.toNat_lt)

/-! ### Back to the text -/

theorem bytes_ofText (s : String) : (ofText s).bytes = Utf8.encode s := by
  rw [ofText, bytes_ofBytes]

/-- A text is got back from its byte string. -/
@[simp]
theorem text?_ofText (s : String) : (ofText s).text? = some s := by
  rw [text?, ofText, if_pos (isBytes_ofBytes _), bytes_ofBytes, Utf8.decode_encode]
  rfl

/-- A byte string is a text if it is the one of that text. -/
theorem text?_eq_some_iff : b.text? = some s ↔ b = ofText s := by
  refine ⟨fun h => ?_, fun h => by rw [h, text?_ofText]⟩
  rw [text?] at h
  split at h
  next hbytes =>
    cases hdecode : Utf8.decode b.bytes with
    | error fault =>
      rw [hdecode] at h
      cases h
    | ok text =>
      rw [hdecode] at h
      obtain rfl := Option.some.inj h
      rw [ofText, Utf8.encode_of_decode hdecode, ofBytes_bytes hbytes]
  next => cases h

/-- A text that says something, read off what need not be there nor be a text. -/
theorem getD_bind_text?_iff {found : Option ByteString} (h : s ≠ "") :
    (found.bind text?).getD "" = s ↔ found = some (ofText s) := by
  cases found with
  | none => simpa using h.symm
  | some b =>
    rw [Option.bind_some, Option.some_inj, ← text?_eq_some_iff]
    cases b.text? with
    | none => simpa using h.symm
    | some text => simp

/-- The byte string of a text is shown as the text. -/
@[simp]
theorem display_ofText (s : String) : (ofText s).display = s := by
  rw [display, bytes_ofText, Utf8.lossy_encode]

@[simp]
theorem ofText_inj : ofText s = ofText t ↔ s = t :=
  ⟨fun h => Option.some.inj (by rw [← text?_ofText, h, text?_ofText]), congrArg ofText⟩

/-- ASCII characters of a byte string are shown. -/
theorem mem_display (h : c.toNat < 0x80) (hc : c ∈ b.toList) : c ∈ b.display.toList := by
  obtain ⟨front, rest, hb⟩ := List.append_of_mem hc
  have hbyte : byte c < 0x80 := by
    rw [UInt8.lt_iff_toNat_lt, byte, UInt8.toNat_ofNat', Nat.mod_eq_of_lt (by omega)]
    exact h
  have hchar : Char.ofNat (byte c).toNat = c := char_byte (by omega)
  rw [display, bytes, hb, List.map_append, List.map_cons, Utf8.lossy, String.toList_ofList,
    Utf8.lossyFrom_append_cons hbyte, hchar]
  exact List.mem_append_right _ List.mem_cons_self

/-! ### Character by character -/

/-- Characters as they stand in a byte string. -/
def spelled (cs : List Char) : List Char :=
  cs.flatMap fun c => (String.utf8EncodeChar c).map char

theorem toList_ofText (s : String) : (ofText s).toList = spelled s.toList := by
  rw [ofText, ofBytes, String.toList_ofList, Utf8.encode, List.map_flatMap, spelled]

theorem spelled_append (cs ds : List Char) : spelled (cs ++ ds) = spelled cs ++ spelled ds :=
  List.flatMap_append

theorem spelled_cons (h : c.toNat < 0x80) (cs : List Char) :
    spelled (c :: cs) = c :: spelled cs := by
  have hbyte : String.utf8EncodeChar c = [byte c] := by
    rw [byte, ← Utf8.utf8EncodeChar_ascii _ h, Char.ofNat_toNat]
  rw [spelled, List.flatMap_cons, hbyte, List.map_singleton, char_byte (by omega)]
  rfl

theorem spelled_ne_nil (h : cs ≠ []) : spelled cs ≠ [] := by
  obtain ⟨c, cs, rfl⟩ := List.exists_cons_of_ne_nil h
  obtain ⟨b, bs, hc, -⟩ := Utf8.utf8EncodeChar_eq_cons c
  rw [spelled, List.flatMap_cons, hc]
  exact List.cons_ne_nil _ _

theorem spelled_of_ascii (h : ∀ c ∈ cs, c.toNat < 0x80) : spelled cs = cs := by
  induction cs with
  | nil => rfl
  | cons c cs ih =>
    rw [List.forall_mem_cons] at h
    rw [spelled_cons h.1, ih h.2]

/-- ASCII characters are in the byte string where they are in the text. -/
theorem mem_spelled_iff (h : c.toNat < 0x80) : c ∈ spelled cs ↔ c ∈ cs := by
  rw [spelled, List.mem_flatMap]
  constructor
  · rintro ⟨d, hd, hc⟩
    obtain ⟨b, hb, rfl⟩ := List.mem_map.1 hc
    rw [toNat_char] at h
    obtain rfl := Utf8.eq_of_mem_ascii hb (UInt8.lt_iff_toNat_lt.2 h)
    exact hd
  · intro hc
    have hspelled := spelled_cons h []
    rw [spelled, List.flatMap_singleton] at hspelled
    exact ⟨c, hc, hspelled ▸ List.mem_cons_self⟩

theorem mem_ofText_iff (h : c.toNat < 0x80) : c ∈ (ofText s).toList ↔ c ∈ s.toList := by
  rw [toList_ofText, mem_spelled_iff h]

theorem spelled_injective : Function.Injective spelled := by
  intro cs ds h
  have htext : ofText (String.ofList cs) = ofText (String.ofList ds) := by
    apply String.toList_injective
    rw [toList_ofText, toList_ofText, String.toList_ofList, String.toList_ofList, h]
  exact String.ofList_injective (ofText_inj.1 htext)

/-- A text in ASCII is its own byte string. -/
theorem ofText_of_ascii (h : s.toList.all (·.toNat < 0x80)) : ofText s = s := by
  rw [List.all_eq_true] at h
  apply String.toList_injective
  rw [toList_ofText, spelled_of_ascii fun c hc => of_decide_eq_true (h c hc)]

end TestBench.ByteString
