import VaidSuite.TypeScript.Stringify

/-! What `TextEncoder` writes, `TextDecoder` reads back: any text without a lone surrogate
that does not begin with a byte order mark. -/
namespace VaidSuite.TypeScript

/-- The decoder between two characters. -/
def DecoderState.initial : DecoderState := ⟨0, 0, 0x80, 0xbf⟩

theorem decodeFrom_more {n point : Nat} {lower upper b : UInt8} (low : lower.toNat ≤ b.toNat)
    (high : b.toNat ≤ upper.toNat) (bytes : Bytes) :
    decodeFrom ⟨n + 2, point, lower, upper⟩ (b :: bytes) =
      decodeFrom ⟨n + 1, point * 0x40 + b.toNat % 0x40, 0x80, 0xbf⟩ bytes := by
  have within : ¬ (b < lower ∨ upper < b) := by
    rw [UInt8.lt_iff_toNat_lt, UInt8.lt_iff_toNat_lt]
    omega
  rw [decodeFrom, if_neg (by simp), if_neg within]
  exact if_neg (by simp)

theorem decodeFrom_last {point : Nat} {b : UInt8} (low : 0x80 ≤ b.toNat) (high : b.toNat < 0xc0) (bytes : Bytes) :
    decodeFrom ⟨1, point, 0x80, 0xbf⟩ (b :: bytes) =
      utf16 (Char.ofNat (point * 0x40 + b.toNat % 0x40)) ++ decodeFrom .initial bytes := by
  have within : ¬ (b < 0x80 ∨ 0xbf < b) := by
    simp only [UInt8.lt_iff_toNat_lt, UInt8.reduceToNat]
    omega
  rw [decodeFrom, if_neg (by simp), if_neg within]
  rfl

theorem decodeFrom_lead (b : UInt8) (bytes : Bytes) :
    decodeFrom .initial (b :: bytes) = (leadByte b).1 ++ decodeFrom (leadByte b).2 bytes := by
  rw [decodeFrom]
  rfl

theorem leadByte_one {b : UInt8} (ascii : b.toNat < 0x80) :
    leadByte b = ([Fin.ofNat 0x10000 b.toNat], .initial) :=
  if_pos (UInt8.lt_iff_toNat_lt.mpr ascii)

theorem leadByte_two {b : UInt8} (low : 0xc2 ≤ b.toNat) (high : b.toNat < 0xe0) :
    leadByte b = ([], ⟨1, b.toNat % 0x20, 0x80, 0xbf⟩) := by
  simp only [leadByte, UInt8.lt_iff_toNat_lt, UInt8.le_iff_toNat_le, UInt8.reduceToNat]
  rw [if_neg (by omega), if_pos (by omega)]

theorem leadByte_three {b : UInt8} (low : 0xe0 ≤ b.toNat) (high : b.toNat < 0xf0) :
    leadByte b = ([], ⟨2, b.toNat % 0x10, if b.toNat = 0xe0 then 0xa0 else 0x80,
      if b.toNat = 0xed then 0x9f else 0xbf⟩) := by
  simp only [leadByte, UInt8.lt_iff_toNat_lt, UInt8.le_iff_toNat_le, ← UInt8.toNat_inj, UInt8.reduceToNat]
  rw [if_neg (by omega), if_neg (by omega), if_pos (by omega)]

theorem leadByte_four {b : UInt8} (low : 0xf0 ≤ b.toNat) (high : b.toNat < 0xf5) :
    leadByte b = ([], ⟨3, b.toNat % 8, if b.toNat = 0xf0 then 0x90 else 0x80,
      if b.toNat = 0xf4 then 0x8f else 0xbf⟩) := by
  simp only [leadByte, UInt8.lt_iff_toNat_lt, UInt8.le_iff_toNat_le, ← UInt8.toNat_inj, UInt8.reduceToNat]
  rw [if_neg (by omega), if_neg (by omega), if_neg (by omega), if_pos (by omega)]

/-- The bytes of a code point. -/
def utf8Bytes (v : Nat) : Bytes :=
  (if v ≤ 0x7f then [v]
    else if v ≤ 0x7ff then [v / 64 % 0x20 + 0xc0, v % 0x40 + 0x80]
    else if v ≤ 0xffff then [v / 4096 % 0x10 + 0xe0, v / 64 % 0x40 + 0x80, v % 0x40 + 0x80]
    else [v / 262144 % 8 + 0xf0, v / 4096 % 0x40 + 0x80, v / 64 % 0x40 + 0x80, v % 0x40 + 0x80]).map UInt8.ofNat

theorem utf8EncodeChar_eq (c : Char) : String.utf8EncodeChar c = utf8Bytes c.toNat := by
  have point : c.val.toNat = c.toNat := rfl
  simp only [String.utf8EncodeChar, utf8Bytes, point]
  split_ifs <;> rfl

theorem toNat_byte {n : Nat} (small : n < 256) : (UInt8.ofNat n).toNat = n := UInt8.toNat_ofNat_of_lt' small

theorem decodeFrom_utf8Bytes {v : Nat} (valid : v < 0xd800 ∨ 0xdfff < v ∧ v < 0x110000) (bytes : Bytes) :
    decodeFrom .initial (utf8Bytes v ++ bytes) = utf16 (Char.ofNat v) ++ decodeFrom .initial bytes := by
  unfold utf8Bytes
  split_ifs with one two three
  · have lead := toNat_byte (n := v) (by omega)
    rw [List.map_singleton, List.singleton_append, decodeFrom_lead, leadByte_one (by omega), lead, utf16,
      toNat_ofNat (.inl (by omega)), if_pos (by omega)]
  · have lead := toNat_byte (n := v / 64 % 0x20 + 0xc0) (by omega)
    have last := toNat_byte (n := v % 0x40 + 0x80) (by omega)
    have point : (v / 64 % 0x20 + 0xc0) % 0x20 * 0x40 + (v % 0x40 + 0x80) % 0x40 = v := by omega
    rw [List.map_cons, List.map_singleton, List.cons_append, decodeFrom_lead,
      leadByte_two (by omega) (by omega), List.nil_append, List.singleton_append,
      decodeFrom_last (by omega) (by omega), lead, last, point]
  · have lead := toNat_byte (n := v / 4096 % 0x10 + 0xe0) (by omega)
    have second := toNat_byte (n := v / 64 % 0x40 + 0x80) (by omega)
    have last := toNat_byte (n := v % 0x40 + 0x80) (by omega)
    have point : ((v / 4096 % 0x10 + 0xe0) % 0x10 * 0x40 + (v / 64 % 0x40 + 0x80) % 0x40) * 0x40 +
        (v % 0x40 + 0x80) % 0x40 = v := by omega
    rw [List.map_cons, List.map_cons, List.map_singleton, List.cons_append, decodeFrom_lead,
      leadByte_three (by omega) (by omega), List.nil_append, List.cons_append, List.singleton_append,
      decodeFrom_more, decodeFrom_last (by omega) (by omega), lead, second, last, point]
    · rw [lead, second]
      split_ifs <;> simp only [UInt8.reduceToNat] <;> omega
    · rw [lead, second]
      split_ifs <;> simp only [UInt8.reduceToNat] <;> omega
  · have lead := toNat_byte (n := v / 262144 % 8 + 0xf0) (by omega)
    have second := toNat_byte (n := v / 4096 % 0x40 + 0x80) (by omega)
    have third := toNat_byte (n := v / 64 % 0x40 + 0x80) (by omega)
    have last := toNat_byte (n := v % 0x40 + 0x80) (by omega)
    have point : (((v / 262144 % 8 + 0xf0) % 8 * 0x40 + (v / 4096 % 0x40 + 0x80) % 0x40) * 0x40 +
        (v / 64 % 0x40 + 0x80) % 0x40) * 0x40 + (v % 0x40 + 0x80) % 0x40 = v := by omega
    rw [List.map_cons, List.map_cons, List.map_cons, List.map_singleton, List.cons_append, decodeFrom_lead,
      leadByte_four (by omega) (by omega), List.nil_append, List.cons_append, List.cons_append,
      List.singleton_append, decodeFrom_more, decodeFrom_more (by simp only [UInt8.reduceToNat]; omega)
        (by simp only [UInt8.reduceToNat]; omega), decodeFrom_last (by omega) (by omega), lead, second, third,
      last, point]
    · rw [lead, second]
      split_ifs <;> simp only [UInt8.reduceToNat] <;> omega
    · rw [lead, second]
      split_ifs <;> simp only [UInt8.reduceToNat] <;> omega

theorem decodeFrom_chars (chars : List Char) : decodeFrom .initial (encode (chars.flatMap utf16)) =
    chars.flatMap utf16 := by
  induction chars with
  | nil => rfl
  | cons c chars ih =>
    have valid : c.toNat < 0xd800 ∨ 0xdfff < c.toNat ∧ c.toNat < 0x110000 := c.valid
    rw [List.flatMap_cons, encode_utf16, utf8EncodeChar_eq, decodeFrom_utf8Bytes valid, Char.ofNat_toNat, ih]

/-- What is encoded is decoded, unless it begins with a byte order mark. -/
theorem decode_encode {text : JsStr} (unicode : ∃ chars : List Char, text = chars.flatMap utf16)
    (unmarked : text.head? ≠ some 0xfeff) : decode (encode text) = text := by
  obtain ⟨chars, rfl⟩ := unicode
  have read : decodeFrom ⟨0, 0, 0x80, 0xbf⟩ (encode (chars.flatMap utf16)) = chars.flatMap utf16 :=
    decodeFrom_chars chars
  rw [decode, read]
  split
  · rename_i s same
    rw [same] at unmarked
    exact absurd rfl unmarked
  · rfl

end VaidSuite.TypeScript
