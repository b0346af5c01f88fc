import Concord.Lib.FormUrlencoded

/-!
# Concord.Lib.PercentEncoding

Texts in which every byte outside a set is written as a percent sign and two
digits.  If the set has only ASCII bytes and not the percent sign, the text is
decoded to what was encoded (`decode_encode`).
-/

namespace PercentEncoding

open FormUrlencoded

/-! ## bytes -/

/-- A byte as it stands, or as a percent sign and two digits. -/
def encodeByte (kept : UInt8 → Bool) (b : UInt8) : Bytes :=
  if kept b then [b] else [percent, hexDigit (b.toNat / 16), hexDigit (b.toNat % 16)]

/-- The bytes of a text, one by one. -/
def encodeBytes (kept : UInt8 → Bool) (bytes : Bytes) : Bytes := bytes.flatMap (encodeByte kept)

/-- An encoded byte is decoded to itself. -/
theorem percentDecode_encodeByte {kept : UInt8 → Bool} (h : kept percent = false) (b : UInt8)
    (rest : Bytes) : percentDecode (encodeByte kept b ++ rest) = b :: percentDecode rest := by
  unfold encodeByte
  split
  · next hkept =>
      have hne : b ≠ percent := by
        rintro rfl
        rw [h] at hkept
        contradiction
      simp [percentDecode, percentDecodeFrom, hne]
  · obtain ⟨hhigh, hlow, hsum⟩ := nibbles b
    simp [percentDecode, percentDecodeFrom, escaped, hexValue_hexDigit hhigh,
      hexValue_hexDigit hlow, hsum]

/-- So are encoded bytes. -/
theorem percentDecode_encodeBytes {kept : UInt8 → Bool} (h : kept percent = false)
    (bytes : Bytes) : percentDecode (encodeBytes kept bytes) = bytes := by
  induction bytes with
  | nil => rfl
  | cons b bytes ih =>
      rw [encodeBytes, List.flatMap_cons, percentDecode_encodeByte h]
      rw [encodeBytes] at ih
      rw [ih]

/-- A digit is ASCII. -/
theorem hexDigit_lt {n : Nat} (h : n < 16) : hexDigit n < 0x80 := by
  have hall : ∀ n : Fin 16, hexDigit n < 0x80 := by decide
  exact hall ⟨n, h⟩

/-- So is all that is encoded. -/
theorem encodeBytes_lt {kept : UInt8 → Bool} (h : ∀ b, kept b = true → b < 0x80) {bytes : Bytes}
    {b : UInt8} (hb : b ∈ encodeBytes kept bytes) : b < 0x80 := by
  obtain ⟨byte, _, hmem⟩ := List.mem_flatMap.mp hb
  unfold encodeByte at hmem
  split at hmem
  · next hkept =>
      rw [List.mem_singleton] at hmem
      exact hmem ▸ h byte hkept
  · obtain ⟨hhigh, hlow, _⟩ := nibbles byte
    simp only [List.mem_cons, List.not_mem_nil, or_false] at hmem
    rcases hmem with rfl | rfl | rfl
    · decide
    · exact hexDigit_lt hhigh
    · exact hexDigit_lt hlow

/-! ## texts -/

/-- The characters of ASCII bytes. -/
def ascii (bytes : Bytes) : List Char := bytes.map Char.ofUInt8

/-- The character of a byte has its number. -/
theorem toNat_ofUInt8 (b : UInt8) : (Char.ofUInt8 b).toNat = b.toNat := by
  show b.toUInt32.toNat = b.toNat
  exact UInt8.toNat_toUInt32 b

/-- An ASCII character is one byte. -/
theorem utf8EncodeChar_ofUInt8 {b : UInt8} (h : b < 0x80) :
    String.utf8EncodeChar (Char.ofUInt8 b) = [b] := by
  have hlt : b.toNat < 128 := by simpa using UInt8.lt_iff_toNat_lt.mp h
  have hval : (Char.ofUInt8 b).val.toNat = b.toNat := toNat_ofUInt8 b
  have hsize : (Char.ofUInt8 b).utf8Size = 1 := by
    rw [Char.utf8Size_eq_one_iff, UInt32.le_iff_toNat_le, hval]
    simp only [UInt32.reduceToNat]
    omega
  rw [String.utf8EncodeChar_eq_singleton hsize]
  show [b.toUInt32.toUInt8] = [b]
  simp

/-- ASCII bytes are the bytes of their text. -/
theorem utf8Bytes_ascii {bytes : Bytes} (h : ∀ b ∈ bytes, b < 0x80) :
    utf8Bytes (String.ofList (ascii bytes)) = bytes := by
  rw [utf8Bytes, String.toList_ofList, ascii]
  induction bytes with
  | nil => rfl
  | cons b bytes ih =>
      rw [List.map_cons, List.flatMap_cons, utf8EncodeChar_ofUInt8 (h b List.mem_cons_self),
        ih fun b hb => h b (List.mem_cons_of_mem _ hb), List.singleton_append]

/-- A text encoded. -/
def encode (kept : UInt8 → Bool) (text : String) : List Char :=
  ascii (encodeBytes kept (utf8Bytes text))

/-- And decoded. -/
def decode (text : List Char) : String :=
  fromUtf8Lossy (percentDecode (utf8Bytes (String.ofList text)))

section
variable {kept : UInt8 → Bool} (hascii : ∀ b, kept b = true → b < 0x80)
include hascii

/-- What is encoded is decoded to itself. -/
theorem decode_encode (hpercent : kept percent = false) (text : String) :
    decode (encode kept text) = text := by
  have hbytes : utf8Bytes (String.ofList (encode kept text)) = encodeBytes kept (utf8Bytes text) :=
    utf8Bytes_ascii fun _ hb => encodeBytes_lt hascii hb
  rw [decode, hbytes, percentDecode_encodeBytes hpercent, fromUtf8Lossy_utf8Bytes]

/-- So no two texts are encoded alike. -/
theorem encode_inj (hpercent : kept percent = false) {a b : String}
    (h : encode kept a = encode kept b) : a = b := by
  have hdecode := congrArg decode h
  rwa [decode_encode hascii hpercent, decode_encode hascii hpercent] at hdecode

end

/-- Characters of the set, and escapes. -/
inductive Encoded (kept : UInt8 → Bool) : List Char → Prop
  | nil : Encoded kept []
  | plain {b : UInt8} {rest : List Char} (hkept : kept b = true) (hrest : Encoded kept rest) :
      Encoded kept (Char.ofUInt8 b :: rest)
  | escape {high low : Nat} {rest : List Char} (hhigh : high < 16) (hlow : low < 16)
      (hrest : Encoded kept rest) :
      Encoded kept ('%' :: Char.ofUInt8 (hexDigit high) :: Char.ofUInt8 (hexDigit low) :: rest)

/-- An encoded text is one. -/
theorem encoded_encode (kept : UInt8 → Bool) (text : String) :
    Encoded kept (encode kept text) := by
  rw [encode]
  induction utf8Bytes text with
  | nil => exact .nil
  | cons b bytes ih =>
      rw [encodeBytes, List.flatMap_cons, ascii, List.map_append]
      unfold encodeByte
      split
      · next hkept => exact .plain hkept ih
      · obtain ⟨hhigh, hlow, _⟩ := nibbles b
        exact .escape hhigh hlow ih

/-- The characters of a text, if digits are kept. -/
theorem mem_of_encoded {kept : UInt8 → Bool} (hdigit : ∀ n < 16, kept (hexDigit n) = true)
    {text : List Char} (h : Encoded kept text) {c : Char} (hc : c ∈ text) :
    c = '%' ∨ ∃ b, kept b = true ∧ c = Char.ofUInt8 b := by
  induction h with
  | nil => simp at hc
  | plain hb _ ih =>
      rcases List.mem_cons.mp hc with rfl | hc
      · exact .inr ⟨_, hb, rfl⟩
      · exact ih hc
  | escape hhigh hlow _ ih =>
      simp only [List.mem_cons] at hc
      rcases hc with rfl | rfl | rfl | hc
      · exact .inl rfl
      · exact .inr ⟨_, hdigit _ hhigh, rfl⟩
      · exact .inr ⟨_, hdigit _ hlow, rfl⟩
      · exact ih hc

/-- A text that is not empty is not encoded to nothing. -/
theorem encode_ne_nil (kept : UInt8 → Bool) {text : String} (h : text ≠ "") :
    encode kept text ≠ [] := by
  intro hnil
  rw [encode, ascii, List.map_eq_nil_iff, encodeBytes, List.flatMap_eq_nil_iff] at hnil
  have hbytes : utf8Bytes text = [] := by
    rw [List.eq_nil_iff_forall_not_mem]
    intro b hb
    have hempty := hnil b hb
    unfold encodeByte at hempty
    split at hempty <;> contradiction
  have htext := fromUtf8Lossy_utf8Bytes text
  rw [hbytes] at htext
  exact h htext.symm

end PercentEncoding
