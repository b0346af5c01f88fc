import Mathlib.Logic.Basic

/-!
# Concord.Lib.FormUrlencoded

`application/x-www-form-urlencoded` on bytes, as the `form_urlencoded` crate
reads and writes it: sequences between ampersands, empty ones skipped, each
split at its first equals sign; plus signs are spaces, percent escapes are
bytes, and what is not UTF-8 is replaced.

A pair that is appended to a query is read back as it was, after all the
pairs the query had (`parse_appendPair`), whatever the query was.
-/

namespace FormUrlencoded

/-- Bytes of a text. -/
abbrev Bytes := List UInt8

/-! ## UTF-8 -/

/-- The bytes of a text in UTF-8. -/
def utf8Bytes (s : String) : Bytes := s.toList.flatMap String.utf8EncodeChar

/-- A byte that goes on with a character. -/
def isContinuation (b : UInt8) : Bool := 0x80 ≤ b ∧ b ≤ 0xBF

/-- The bytes that may come second in a sequence of three or four. -/
def secondInRange (first second : UInt8) : Bool :=
  if first = 0xE0 then 0xA0 ≤ second ∧ second ≤ 0xBF
  else if first = 0xED then 0x80 ≤ second ∧ second ≤ 0x9F
  else if first = 0xF0 then 0x90 ≤ second ∧ second ≤ 0xBF
  else if first = 0xF4 then 0x80 ≤ second ∧ second ≤ 0x8F
  else 0xE1 ≤ first ∧ first ≤ 0xF3 ∧ isContinuation second

/-- How many bytes of an ill-formed sequence one replacement character stands
for: the longest part of it that could have started a character. -/
def invalidLength : Bytes → Nat
  | first :: second :: rest =>
    if ¬ secondInRange first second then 1
    else if first < 0xF0 then 2
    else
      match rest with
      | third :: _ => if isContinuation third then 3 else 2
      | [] => 2
  | _ => 1

/-- Decode after `skip` bytes that have been dealt with. -/
def lossyFrom : Nat → Bytes → List Char
  | _, [] => []
  | skip + 1, _ :: rest => lossyFrom skip rest
  | 0, b :: rest =>
    match ByteArray.utf8DecodeChar? (b :: rest).toByteArray 0 with
    | some c => c :: lossyFrom (c.utf8Size - 1) rest
    | none => '\uFFFD' :: lossyFrom (invalidLength (b :: rest) - 1) rest

/-- `String::from_utf8_lossy`. -/
def fromUtf8Lossy (bytes : Bytes) : String := String.ofList (lossyFrom 0 bytes)

/-- What was read is skipped. -/
theorem lossyFrom_append {done rest : Bytes} : lossyFrom done.length (done ++ rest) =
    lossyFrom 0 rest := by
  induction done with
  | nil => rfl
  | cons b done ih => exact ih

/-- An encoded character is read as itself. -/
theorem lossyFrom_utf8EncodeChar (c : Char) (rest : Bytes) :
    lossyFrom 0 (String.utf8EncodeChar c ++ rest) = c :: lossyFrom 0 rest := by
  have hdecode : ByteArray.utf8DecodeChar? (String.utf8EncodeChar c ++ rest).toByteArray 0 =
      some c := by
    rw [List.toByteArray_append]
    exact ByteArray.utf8DecodeChar?_utf8EncodeChar_append
  have hlength := String.length_utf8EncodeChar c
  cases hbytes : String.utf8EncodeChar c with
  | nil =>
      rw [hbytes] at hlength
      exact absurd hlength.symm (Nat.ne_of_gt c.utf8Size_pos)
  | cons b tail =>
      rw [hbytes, List.cons_append] at hdecode
      rw [hbytes, List.length_cons] at hlength
      rw [List.cons_append, lossyFrom, hdecode]
      have hskip : c.utf8Size - 1 = tail.length := by omega
      simp only [hskip, lossyFrom_append]

/-- UTF-8 is decoded to what was encoded. -/
theorem fromUtf8Lossy_utf8Bytes (s : String) : fromUtf8Lossy (utf8Bytes s) = s := by
  have hchars : ∀ chars : List Char,
      lossyFrom 0 (chars.flatMap String.utf8EncodeChar) = chars := by
    intro chars
    induction chars with
    | nil => rfl
    | cons c chars ih => rw [List.flatMap_cons, lossyFrom_utf8EncodeChar, ih]
  rw [fromUtf8Lossy, utf8Bytes, hchars, String.ofList_toList]

/-! ## escapes -/

/-- The byte between two pairs. -/
def ampersand : UInt8 := 0x26

/-- The byte between a key and its value. -/
def equals : UInt8 := 0x3D

/-- The byte for a space. -/
def plus : UInt8 := 0x2B

/-- The byte before two digits. -/
def percent : UInt8 := 0x25

/-- The space. -/
def space : UInt8 := 0x20

/-- The digit of a half byte. -/
def hexDigit (n : Nat) : UInt8 := UInt8.ofNat (if n < 10 then 0x30 + n else 0x37 + n)

/-- The half byte of a digit. -/
def hexValue (b : UInt8) : Option Nat :=
  if 0x30 ≤ b ∧ b ≤ 0x39 then some (b.toNat - 0x30)
  else if 0x41 ≤ b ∧ b ≤ 0x46 then some (b.toNat - 0x37)
  else if 0x61 ≤ b ∧ b ≤ 0x66 then some (b.toNat - 0x57)
  else none

/-- The bytes that are written as they are. -/
def isUnreserved (b : UInt8) : Bool :=
  b = 0x2A ∨ b = 0x2D ∨ b = 0x2E ∨ b = 0x5F ∨ 0x30 ≤ b ∧ b ≤ 0x39 ∨ 0x41 ≤ b ∧ b ≤ 0x5A ∨
    0x61 ≤ b ∧ b ≤ 0x7A

/-- `byte_serialize`, for one byte. -/
def serializeByte (b : UInt8) : Bytes :=
  if isUnreserved b then [b]
  else if b = space then [plus]
  else [percent, hexDigit (b.toNat / 16), hexDigit (b.toNat % 16)]

/-- Bytes as they stand in a query. -/
def byteSerialize (bytes : Bytes) : Bytes := bytes.flatMap serializeByte

/-- The byte that the two digits at the front stand for. -/
def escaped : Bytes → Option UInt8
  | high :: low :: _ =>
    match hexValue high, hexValue low with
    | some h, some l => some (UInt8.ofNat (16 * h + l))
    | _, _ => none
  | _ => none

/-- Decode after `skip` bytes that have been dealt with. -/
def percentDecodeFrom : Nat → Bytes → Bytes
  | _, [] => []
  | skip + 1, _ :: rest => percentDecodeFrom skip rest
  | 0, b :: rest =>
    if b = percent then
      match escaped rest with
      | some value => value :: percentDecodeFrom 2 rest
      | none => b :: percentDecodeFrom 0 rest
    else b :: percentDecodeFrom 0 rest

/-- `percent_decode`: a percent sign without two digits after it is kept. -/
def percentDecode (bytes : Bytes) : Bytes := percentDecodeFrom 0 bytes

/-- A plus is a space. -/
def replacePlus (b : UInt8) : UInt8 := if b = plus then space else b

/-- The bytes that were serialized. -/
def decodeBytes (bytes : Bytes) : Bytes := percentDecode (bytes.map replacePlus)

/-- A digit is read back. -/
theorem hexValue_hexDigit {n : Nat} (h : n < 16) : hexValue (hexDigit n) = some n := by
  have hall : ∀ n : Fin 16, hexValue (hexDigit n) = some n.val := by decide
  exact hall ⟨n, h⟩

/-- A digit is none of the bytes that mean something. -/
theorem hexDigit_plain {n : Nat} (h : n < 16) :
    hexDigit n ≠ ampersand ∧ hexDigit n ≠ equals ∧ hexDigit n ≠ plus := by
  have hall : ∀ n : Fin 16,
      hexDigit n ≠ ampersand ∧ hexDigit n ≠ equals ∧ hexDigit n ≠ plus := by decide
  exact hall ⟨n, h⟩

/-- An unreserved byte is none of the signs. -/
theorem isUnreserved_plain {b : UInt8} (h : isUnreserved b = true) :
    b ≠ ampersand ∧ b ≠ equals ∧ b ≠ plus ∧ b ≠ percent := by
  refine ⟨?_, ?_, ?_, ?_⟩ <;>
  · intro heq
    subst heq
    exact absurd h (by decide)

/-- Both digits of a byte are digits. -/
theorem nibbles (b : UInt8) : b.toNat / 16 < 16 ∧ b.toNat % 16 < 16 ∧
    16 * (b.toNat / 16) + b.toNat % 16 = b.toNat := by
  have hlt := b.toNat_lt
  omega

/-- A serialized byte is decoded to the byte. -/
theorem decodeBytes_serializeByte (b : UInt8) (rest : Bytes) :
    decodeBytes (serializeByte b ++ rest) = b :: decodeBytes rest := by
  unfold serializeByte
  split
  · next h =>
      obtain ⟨_, _, hplus, hpercent⟩ := isUnreserved_plain h
      simp [decodeBytes, replacePlus, percentDecode, percentDecodeFrom, hplus, hpercent]
  · split
    · next h =>
        subst h
        simp [decodeBytes, replacePlus, percentDecode, percentDecodeFrom,
          show space ≠ percent by decide]
    · obtain ⟨hhigh, hlow, hsum⟩ := nibbles b
      have hp : replacePlus percent = percent := by decide
      have hh : replacePlus (hexDigit (b.toNat / 16)) = hexDigit (b.toNat / 16) :=
        if_neg (hexDigit_plain hhigh).2.2
      have hl : replacePlus (hexDigit (b.toNat % 16)) = hexDigit (b.toNat % 16) :=
        if_neg (hexDigit_plain hlow).2.2
      simp [decodeBytes, percentDecode, percentDecodeFrom, escaped, hp, hh, hl,
        hexValue_hexDigit hhigh, hexValue_hexDigit hlow, hsum]

/-- Serialized bytes are read back. -/
theorem decodeBytes_byteSerialize (bytes : Bytes) : decodeBytes (byteSerialize bytes) = bytes := by
  induction bytes with
  | nil => rfl
  | cons b bytes ih =>
      rw [byteSerialize, List.flatMap_cons, decodeBytes_serializeByte]
      rw [byteSerialize] at ih
      rw [ih]

/-- A digit is unreserved. -/
theorem isUnreserved_hexDigit {n : Nat} (h : n < 16) : isUnreserved (hexDigit n) = true := by
  have hall : ∀ n : Fin 16, isUnreserved (hexDigit n) = true := by decide
  exact hall ⟨n, h⟩

/-- Serialized bytes are unreserved but for plus and percent. -/
theorem mem_byteSerialize {bytes : Bytes} {b : UInt8} (h : b ∈ byteSerialize bytes) :
    isUnreserved b = true ∨ b = plus ∨ b = percent := by
  obtain ⟨b', _, hb⟩ := List.mem_flatMap.mp h
  unfold serializeByte at hb
  split at hb
  · next hkept =>
      rw [List.mem_singleton.mp hb]
      exact .inl hkept
  · split at hb
    · rw [List.mem_singleton.mp hb]
      exact .inr (.inl rfl)
    · obtain ⟨hhigh, hlow, _⟩ := nibbles b'
      simp only [List.mem_cons, List.not_mem_nil, or_false] at hb
      obtain rfl | rfl | rfl := hb
      · exact .inr (.inr rfl)
      · exact .inl (isUnreserved_hexDigit hhigh)
      · exact .inl (isUnreserved_hexDigit hlow)

/-- Serialized bytes hold no separator. -/
theorem byteSerialize_plain {bytes : Bytes} {b : UInt8} (h : b ∈ byteSerialize bytes) :
    b ≠ ampersand ∧ b ≠ equals := by
  rcases mem_byteSerialize h with hkept | rfl | rfl
  · exact ⟨(isUnreserved_plain hkept).1, (isUnreserved_plain hkept).2.1⟩
  · decide
  · decide

/-- Bytes that mean nothing are decoded to themselves. -/
theorem decodeBytes_append {bytes : Bytes} (h : ∀ b ∈ bytes, b ≠ plus ∧ b ≠ percent)
    (rest : Bytes) : decodeBytes (bytes ++ rest) = bytes ++ decodeBytes rest := by
  induction bytes with
  | nil => rfl
  | cons b bytes ih =>
      obtain ⟨hplus, hpercent⟩ := h b List.mem_cons_self
      have hrest := ih fun b hb => h b (List.mem_cons_of_mem _ hb)
      have hstep : decodeBytes (b :: (bytes ++ rest)) = b :: decodeBytes (bytes ++ rest) := by
        simp [decodeBytes, percentDecode, percentDecodeFrom, replacePlus, hplus, hpercent]
      rw [List.cons_append, hstep, hrest, List.cons_append]

/-! ## pairs -/

/-- A serialized text read back. -/
def decode (bytes : Bytes) : String := fromUtf8Lossy (decodeBytes bytes)

/-- A text serialized. -/
def encode (s : String) : Bytes := byteSerialize (utf8Bytes s)

/-- The pair a sequence stands for. -/
def parsePair (sequence : Bytes) : String × String :=
  (decode (sequence.takeWhile (· ≠ equals)), decode ((sequence.dropWhile (· ≠ equals)).drop 1))

/-- `form_urlencoded::parse`. -/
def parse (input : Bytes) : List (String × String) :=
  ((input.splitOn ampersand).filter (· ≠ [])).map parsePair

/-- `append_pair` of a serializer over a query. -/
def appendPair (query : Bytes) (name value : String) : Bytes :=
  (if query = [] then [] else query ++ [ampersand]) ++ (encode name ++ equals :: encode value)

/-- A serialized text is read back as itself. -/
theorem decode_encode (s : String) : decode (encode s) = s := by
  rw [decode, encode, decodeBytes_byteSerialize, fromUtf8Lossy_utf8Bytes]

/-- Bytes before a separator are read through. -/
theorem decide_ne_of_notMem {separator : UInt8} {bytes : Bytes} (h : separator ∉ bytes) :
    ∀ b ∈ bytes, decide (b ≠ separator) = true :=
  fun _ hb => decide_eq_true fun heq => h (heq ▸ hb)

/-- A sequence at the end of a query is the last pair. -/
theorem parse_append_sequence (query : Bytes) {name value : Bytes} (hname : ampersand ∉ name)
    (hequals : equals ∉ name) (hvalue : ampersand ∉ value) :
    parse ((if query = [] then [] else query ++ [ampersand]) ++ (name ++ equals :: value)) =
      parse query ++ [(decode name, decode value)] := by
  have hplain : ampersand ∉ name ++ equals :: value := by
    simp only [List.mem_append, List.mem_cons, not_or]
    exact ⟨hname, by decide, hvalue⟩
  have hkeep := decide_ne_of_notMem hequals
  have hpair : parsePair (name ++ equals :: value) = (decode name, decode value) := by
    rw [parsePair, List.takeWhile_append_of_pos hkeep, List.dropWhile_append_of_pos hkeep]
    simp
  have hlast : parse (name ++ equals :: value) = [(decode name, decode value)] := by
    rw [parse, List.splitOn_eq_singleton hplain]
    simp [hpair]
  split
  · next hempty =>
      subst hempty
      exact hlast
  · rw [List.append_assoc, List.singleton_append]
    rw [parse] at hlast
    rw [parse, List.splitOn_append_cons_self, List.filter_append, List.map_append, hlast, parse]

/-- **Appended pairs are read back**, after the pairs the query had. -/
theorem parse_appendPair (query : Bytes) (name value : String) :
    parse (appendPair query name value) = parse query ++ [(name, value)] := by
  have hplain (s : String) : ampersand ∉ encode s ∧ equals ∉ encode s :=
    ⟨fun h => (byteSerialize_plain h).1 rfl, fun h => (byteSerialize_plain h).2 rfl⟩
  rw [appendPair, parse_append_sequence query (hplain name).1 (hplain name).2 (hplain value).1,
    decode_encode, decode_encode]

end FormUrlencoded
