import UrlHarvest.Text.Utf8

namespace UrlHarvest.Text.Utf8

theorem toNat_byte (n : Nat) (hn : n < 256) : (UInt8.ofNat n).toNat = n :=
  UInt8.toNat_ofNat_of_lt' hn

-- What a sequence that has begun does with a byte in its range, before the last one and at it.
theorem step_of_more (value due low high n : Nat) (read : Text) (hn : n < 256) (hlow : low ≤ n)
    (hhigh : n ≤ high) :
    Reader.step ⟨some ⟨value, due + 2, low, high⟩, read⟩ (UInt8.ofNat n) =
      ⟨some ⟨64 * value + (n - 0x80), due + 1, 0x80, 0xBF⟩, read⟩ := by
  simp [Reader.step, toNat_byte n hn, hlow, hhigh]

theorem step_of_last (value low high n : Nat) (read : Text) (hn : n < 256) (hlow : low ≤ n)
    (hhigh : n ≤ high) :
    Reader.step ⟨some ⟨value, 1, low, high⟩, read⟩ (UInt8.ofNat n) =
      ⟨none, Char.ofNat (64 * value + (n - 0x80)) :: read⟩ := by
  simp [Reader.step, toNat_byte n hn, hlow, hhigh]

theorem step_of_scalar (n : Nat) (read : Text) (hn : n < 0x80) :
    Reader.step ⟨none, read⟩ (UInt8.ofNat n) = ⟨none, Char.ofNat n :: read⟩ := by
  have hbyte := toNat_byte n (by omega)
  simp [Reader.step, Reader.start, lead, hbyte, hn]

theorem step_of_lead (n : Nat) (sequence : Unfinished) (read : Text) (hn : n < 256)
    (hlead : lead n = .opens sequence) :
    Reader.step ⟨none, read⟩ (UInt8.ofNat n) = ⟨some sequence, read⟩ := by
  simp [Reader.step, Reader.start, toNat_byte n hn, hlead]

theorem lead_two (n : Nat) (hlow : 0xC2 ≤ n) (hhigh : n < 0xE0) :
    lead n = .opens ⟨n - 0xC0, 1, 0x80, 0xBF⟩ := by
  rw [lead, if_neg (by omega), if_neg (by omega), if_pos hhigh]

theorem lead_three (n : Nat) (hlow : 0xE0 ≤ n) (hhigh : n < 0xF0) :
    lead n = .opens ⟨n - 0xE0, 2, if n = 0xE0 then 0xA0 else 0x80,
      if n = 0xED then 0x9F else 0xBF⟩ := by
  rw [lead, if_neg (by omega), if_neg (by omega), if_neg (by omega), if_pos hhigh]

theorem lead_four (n : Nat) (hlow : 0xF0 ≤ n) (hhigh : n < 0xF5) :
    lead n = .opens ⟨n - 0xF0, 3, if n = 0xF0 then 0x90 else 0x80,
      if n = 0xF4 then 0x8F else 0xBF⟩ := by
  rw [lead, if_neg (by omega), if_neg (by omega), if_neg (by omega), if_neg (by omega),
    if_pos hhigh]

-- A code point is below the surrogates or above them.
theorem toNat_lt_or (c : Char) : c.toNat < 0xD800 ∨ 0xDFFF < c.toNat ∧ c.toNat < 0x110000 :=
  c.valid

-- The bytes of a code point are read as that code point, whatever has been read before.
theorem foldl_step_encodeChar (c : Char) (read : Text) :
    (String.utf8EncodeChar c).foldl Reader.step ⟨none, read⟩ = ⟨none, c :: read⟩ := by
  have hvalid := toNat_lt_or c
  have hback : ∀ n, n = c.toNat → Char.ofNat n = c := fun n hn => hn ▸ Char.ofNat_toNat c
  have hval : c.val.toNat = c.toNat := rfl
  simp only [String.utf8EncodeChar, hval]
  generalize c.toNat = v at hvalid hback
  by_cases hone : v ≤ 0x7F
  · rw [if_pos hone, List.foldl_cons, step_of_scalar v read (by omega), hback v rfl]
    rfl
  by_cases htwo : v ≤ 0x7FF
  · have hlead := lead_two (v / 64 % 32 + 192) (by omega) (by omega)
    rw [if_neg hone, if_pos htwo, List.foldl_cons, step_of_lead _ _ read (by omega) hlead,
      List.foldl_cons, step_of_last _ _ _ _ read (by omega) (by omega) (by omega),
      hback _ (by omega)]
    rfl
  by_cases hthree : v ≤ 0xFFFF
  · have hlead := lead_three (v / 4096 % 16 + 224) (by omega) (by omega)
    rw [if_neg hone, if_neg htwo, if_pos hthree, List.foldl_cons,
      step_of_lead _ _ read (by omega) hlead, List.foldl_cons,
      step_of_more _ 0 _ _ _ read (by omega) (by split <;> omega) (by split <;> omega),
      List.foldl_cons, step_of_last _ _ _ _ read (by omega) (by omega) (by omega),
      hback _ (by omega)]
    rfl
  · have hlead := lead_four (v / 262144 % 8 + 240) (by omega) (by omega)
    rw [if_neg hone, if_neg htwo, if_neg hthree, List.foldl_cons,
      step_of_lead _ _ read (by omega) hlead, List.foldl_cons,
      step_of_more _ 1 _ _ _ read (by omega) (by split <;> omega) (by split <;> omega),
      List.foldl_cons, step_of_more _ 0 _ _ _ read (by omega) (by omega) (by omega),
      List.foldl_cons, step_of_last _ _ _ _ read (by omega) (by omega) (by omega),
      hback _ (by omega)]
    rfl

theorem foldl_step_encode (text read : Text) :
    (encode text).foldl Reader.step ⟨none, read⟩ = ⟨none, text.reverse ++ read⟩ := by
  induction text generalizing read with
  | nil => rfl
  | cons c rest ih =>
      rw [encode, List.flatMap_cons, List.foldl_append, foldl_step_encodeChar]
      exact (ih (c :: read)).trans (by simp)

-- Every text is read back from its bytes.
theorem decode_encode (text : Text) : decode (encode text) = text := by
  rw [decode, foldl_step_encode text []]
  simp [Reader.finish]

end UrlHarvest.Text.Utf8
