import TestBench.Proofs.Text.Encoding

/-!
# Bytes that are a text

Where the strict reading does not refuse bytes, they are those of the text that it gives
(`encode_of_decode`): each character is read from the bytes that it is written in. For inside a
character, every byte that is not refused continues it with six bits of its value, and the bounds
for the second byte keep out what has another spelling.

* `exists_of_decodeFrom`: what the strict reading reads first;
* `encode_of_decode`: bytes are those of the text that they spell.
-/

namespace TestBench.Utf8

variable {pos seen owed code n : Nat} {low high b : UInt8} {bs bytes : List UInt8}
  {cs : List Char} {text : String}

/-- The bytes of the character with a valid number. -/
theorem utf8EncodeChar_ofNat (h : n.isValidChar) : String.utf8EncodeChar (Char.ofNat n) =
    if n ≤ 0x7F then [UInt8.ofNat n]
    else if n ≤ 0x7FF then [UInt8.ofNat (n / 64 % 32 + 0xC0), UInt8.ofNat (n % 64 + 0x80)]
    else if n ≤ 0xFFFF then
      [UInt8.ofNat (n / 4096 % 16 + 0xE0), UInt8.ofNat (n / 64 % 64 + 0x80),
        UInt8.ofNat (n % 64 + 0x80)]
    else
      [UInt8.ofNat (n / 262144 % 8 + 0xF0), UInt8.ofNat (n / 4096 % 64 + 0x80),
        UInt8.ofNat (n / 64 % 64 + 0x80), UInt8.ofNat (n % 64 + 0x80)] := by
  have hn : (Char.ofNat n).val.toNat = n := by
    rw [Char.ofNat, dif_pos h]
    rfl
  unfold String.utf8EncodeChar
  rw [hn]

theorem exists_of_map_cons {c : Char} {r : Except Fault (List Char)}
    (h : r.map (c :: ·) = .ok cs) : ∃ cs', r = .ok cs' ∧ cs = c :: cs' := by
  cases r with
  | error fault => cases h
  | ok cs' => exact ⟨cs', rfl, (Except.ok.inj h).symm⟩

/-- Inside a character, a byte that is not refused lies within the bounds. It ends the character,
    or leads on inside it. -/
theorem exists_of_decodeFrom_inside
    (h : decodeFrom pos (.inside seen owed low high code) bs = .ok cs) :
    ∃ b rest, bs = b :: rest ∧ low.toNat ≤ b.toNat ∧ b.toNat ≤ high.toNat ∧
      (owed = 0 → ∃ cs', cs = Char.ofNat (code * 64 + (b.toNat - 0x80)) :: cs' ∧
        decodeFrom (pos + 1) .between rest = .ok cs') ∧
      ∀ k, owed = k + 1 → decodeFrom (pos + 1)
        (.inside (seen + 1) k 0x80 0xBF (code * 64 + (b.toNat - 0x80))) rest = .ok cs := by
  cases bs with
  | nil => cases h
  | cons b rest =>
    by_cases hb : (low ≤ b && b ≤ high) = true
    · have hbounds := hb
      simp only [Bool.and_eq_true, decide_eq_true_eq, UInt8.le_iff_toNat_le] at hbounds
      rw [decodeFrom, State.step, if_pos hb] at h
      refine ⟨b, rest, rfl, hbounds.1, hbounds.2, ?_, ?_⟩
      · rintro rfl
        obtain ⟨cs', hrest, rfl⟩ := exists_of_map_cons h
        exact ⟨cs', rfl, hrest⟩
      · rintro k rfl
        exact h
    · rw [decodeFrom, State.step, if_neg hb] at h
      cases h

/-- Between two characters, the bytes of a character are read first. -/
theorem exists_of_decodeFrom (h : decodeFrom pos .between (b :: bs) = .ok cs) :
    ∃ c cs' rest pos', b :: bs = String.utf8EncodeChar c ++ rest ∧ cs = c :: cs' ∧
      decodeFrom pos' .between rest = .ok cs' := by
  have hb : ∀ k ≤ b.toNat, UInt8.ofNat (b.toNat - k + k) = b := fun k hk => by
    rw [Nat.sub_add_cancel hk, UInt8.ofNat_toNat]
  have hbyte : ∀ {n : Nat} {x : UInt8}, n = x.toNat → UInt8.ofNat n = x := fun h => by
    rw [h, UInt8.ofNat_toNat]
  have hlt := b.toNat_lt
  have hstep : State.step .between b = start b := rfl
  rw [decodeFrom, hstep] at h
  by_cases hone : b < 0x80
  · rw [start_ascii hone] at h
    obtain ⟨cs', hrest, rfl⟩ := exists_of_map_cons h
    rw [UInt8.lt_iff_toNat_lt] at hone
    simp only [UInt8.reduceToNat] at hone
    refine ⟨Char.ofNat b.toNat, cs', bs, pos + 1, ?_, rfl, hrest⟩
    rw [utf8EncodeChar_ofNat (.inl (by omega)), if_pos (by omega), hbyte rfl, List.singleton_append]
  by_cases hnone : b < 0xC2
  · rw [start, if_neg hone, if_pos hnone] at h
    cases h
  rw [UInt8.lt_iff_toNat_lt] at hone hnone
  simp only [UInt8.reduceToNat] at hone hnone
  -- One case for each number of bytes; what is left each time is to take the value apart.
  by_cases htwo : b.toNat < 0xE0
  · have hstart := start_two (b.toNat - 0xC0) (by omega) (by omega)
    rw [hb 0xC0 (by omega)] at hstart
    rw [hstart] at h
    obtain ⟨x, rest, rfl, hxlow, hxhigh, hlast, -⟩ := exists_of_decodeFrom_inside h
    obtain ⟨cs', rfl, hrest⟩ := hlast rfl
    simp only [UInt8.reduceToNat] at hxlow hxhigh
    refine ⟨_, cs', rest, _, ?_, rfl, hrest⟩
    rw [utf8EncodeChar_ofNat (.inl (by omega)), if_neg (by omega), if_pos (by omega),
      hbyte (x := b) (by omega), hbyte (x := x) (by omega)]
    rfl
  by_cases hthree : b.toNat < 0xF0
  · have hstart := start_three (b.toNat - 0xE0) (by omega)
    rw [hb 0xE0 (by omega)] at hstart
    rw [hstart] at h
    obtain ⟨x, rest, rfl, hxlow, hxhigh, -, hmore⟩ := exists_of_decodeFrom_inside h
    obtain ⟨y, rest, rfl, hylow, hyhigh, hlast, -⟩ := exists_of_decodeFrom_inside (hmore 0 rfl)
    obtain ⟨cs', rfl, hrest⟩ := hlast rfl
    rw [apply_ite UInt8.toNat, apply_ite (· ≤ x.toNat), ite_prop_iff_and] at hxlow
    rw [apply_ite UInt8.toNat, apply_ite (x.toNat ≤ ·), ite_prop_iff_and] at hxhigh
    simp only [UInt8.reduceToNat] at hxlow hxhigh hylow hyhigh
    refine ⟨_, cs', rest, _, ?_, rfl, hrest⟩
    rw [utf8EncodeChar_ofNat (by simp only [Nat.isValidChar]; omega), if_neg (by omega),
      if_neg (by omega), if_pos (by omega), hbyte (x := b) (by omega), hbyte (x := x) (by omega),
      hbyte (x := y) (by omega)]
    rfl
  by_cases hfour : b.toNat < 0xF5
  · have hstart := start_four (b.toNat - 0xF0) (by omega)
    rw [hb 0xF0 (by omega)] at hstart
    rw [hstart] at h
    obtain ⟨x, rest, rfl, hxlow, hxhigh, -, hmore⟩ := exists_of_decodeFrom_inside h
    obtain ⟨y, rest, rfl, hylow, hyhigh, -, hmore⟩ := exists_of_decodeFrom_inside (hmore 1 rfl)
    obtain ⟨z, rest, rfl, hzlow, hzhigh, hlast, -⟩ := exists_of_decodeFrom_inside (hmore 0 rfl)
    obtain ⟨cs', rfl, hrest⟩ := hlast rfl
    rw [apply_ite UInt8.toNat, apply_ite (· ≤ x.toNat), ite_prop_iff_and] at hxlow
    rw [apply_ite UInt8.toNat, apply_ite (x.toNat ≤ ·), ite_prop_iff_and] at hxhigh
    simp only [UInt8.reduceToNat] at hxlow hxhigh hylow hyhigh hzlow hzhigh
    refine ⟨_, cs', rest, _, ?_, rfl, hrest⟩
    rw [utf8EncodeChar_ofNat (by simp only [Nat.isValidChar]; omega), if_neg (by omega),
      if_neg (by omega), if_neg (by omega), hbyte (x := b) (by omega), hbyte (x := x) (by omega),
      hbyte (x := y) (by omega), hbyte (x := z) (by omega)]
    rfl
  · have hstart := start_beyond (b.toNat - 0xF5) (by omega)
    rw [hb 0xF5 (by omega)] at hstart
    rw [hstart] at h
    cases h

/-- Bytes are those of the characters that are read. -/
theorem encodeChars_of_decodeFrom (h : decodeFrom pos .between bytes = .ok cs) :
    encodeChars cs = bytes := by
  induction cs generalizing pos bytes with
  | nil =>
    cases bytes with
    | nil => rfl
    | cons b bs =>
      obtain ⟨c, cs', rest, pos', -, hcs, -⟩ := exists_of_decodeFrom h
      cases hcs
  | cons c cs ih =>
    cases bytes with
    | nil => cases h
    | cons b bs =>
      obtain ⟨c', cs', rest, pos', hbytes, hcs, hrest⟩ := exists_of_decodeFrom h
      obtain ⟨rfl, rfl⟩ := List.cons.inj hcs
      rw [hbytes, encodeChars_cons, ih hrest]

/-- Where the strict reading refuses nothing, the lenient one gives the same text. -/
theorem lossy_of_decode (h : decode bytes = .ok text) : lossy bytes = text := by
  rw [decode] at h
  cases hread : decodeFrom 0 .between bytes with
  | error fault =>
    rw [hread] at h
    cases h
  | ok cs =>
    rw [hread] at h
    rw [lossy, lossyFrom_eq_of_decodeFrom hread]
    exact Except.ok.inj h

/-- Bytes are those of the text that they spell. -/
theorem encode_of_decode (h : decode bytes = .ok text) : encode text = bytes := by
  rw [decode] at h
  cases hread : decodeFrom 0 .between bytes with
  | error fault =>
    rw [hread] at h
    cases h
  | ok cs =>
    rw [hread] at h
    rw [← encodeChars_of_decodeFrom hread, ← encode_ofList]
    exact congrArg encode (Except.ok.inj h).symm

end TestBench.Utf8
