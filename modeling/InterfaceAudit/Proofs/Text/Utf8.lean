import InterfaceAudit.Text.Utf8
import Mathlib.Data.List.Basic

/-!
Decoding of encoded texts.
Every character is written as a lead byte and bytes that continue it. The bounds of the second byte
rule out what no character is written as, and each character keeps them.
-/

namespace InterfaceAudit.Text

section Steps

variable {position payload count low high : Nat} {seen rest : List UInt8} {output : List Char}
variable {byte : UInt8}

/-- An ASCII byte is a character by itself. -/
theorem decodeFrom_ascii (isAscii : byte.toNat < 0x80) :
    decodeFrom position .ready output (byte :: rest) =
      decodeFrom (position + 1) .ready (Char.ofNat byte.toNat :: output) rest := by
  have small : byte < 0x80 := isAscii
  rw [decodeFrom, if_pos small]

/-- A lead byte says how many bytes follow and bounds the next one. -/
theorem decodeFrom_lead {lead : Lead} (notAscii : 0x80 ≤ byte.toNat)
    (isLead : Lead.ofByte? byte.toNat = some lead) :
    decodeFrom position .ready output (byte :: rest) =
      decodeFrom position (.inside [byte] lead.payload lead.count lead.low lead.high) output
        rest := by
  have large : ¬ byte < 0x80 := Nat.not_lt.mpr notAscii
  rw [decodeFrom, if_neg large, isLead]

/-- The last byte completes the character. -/
theorem decodeFrom_last (within : low ≤ byte.toNat ∧ byte.toNat ≤ high) :
    decodeFrom position (.inside seen payload 1 low high) output (byte :: rest) =
      decodeFrom (position + seen.length + 1) .ready
        (Char.ofNat (payload * 64 + (byte.toNat - 0x80)) :: output) rest := by
  rw [decodeFrom, if_pos (by simpa using within)]
  rfl

/-- Any other byte adds six bits. -/
theorem decodeFrom_inside (within : low ≤ byte.toNat ∧ byte.toNat ≤ high) (more : count ≠ 0) :
    decodeFrom position (.inside seen payload (count + 1) low high) output (byte :: rest) =
      decodeFrom position
        (.inside (byte :: seen) (payload * 64 + (byte.toNat - 0x80)) count 0x80 0xBF) output
        rest := by
  have notLast : (count + 1 == 1) = false := by simpa using more
  rw [decodeFrom, if_pos (by simpa using within), notLast]
  rfl

end Steps

/-! ### Lead bytes -/

section Leads

variable {point : Nat}

theorem toNat_toUInt8 {value : Nat} (small : value < 256) : value.toUInt8.toNat = value := by
  rw [Nat.toUInt8_eq, UInt8.toNat_ofNat', Nat.mod_eq_of_lt small]

theorem lead_two (least : 0x80 ≤ point) (most : point < 0x800) :
    Lead.ofByte? (0xC0 + point / 64) = some ⟨point / 64, 1, 0x80, 0xBF⟩ := by
  rw [Lead.ofByte?, if_neg (by omega), if_pos (by omega), Nat.add_sub_cancel_left]

/-- The second of three bytes keeps to the bounds that the lead byte sets. -/
theorem lead_three (least : 0x800 ≤ point) (most : point < 0x10000)
    (notSurrogate : point < 0xD800 ∨ 0xDFFF < point) :
    ∃ low high, Lead.ofByte? (0xE0 + point / 4096) = some ⟨point / 4096, 2, low, high⟩ ∧
      low ≤ 0x80 + point / 64 % 64 ∧ 0x80 + point / 64 % 64 ≤ high := by
  rw [Lead.ofByte?, if_neg (by omega), if_neg (by omega)]
  by_cases first : point / 4096 = 0
  · exact ⟨0xA0, 0xBF, by simp [first], by omega, by omega⟩
  · by_cases thirteenth : point / 4096 = 13
    · exact ⟨0x80, 0x9F, by simp [thirteenth], by omega, by omega⟩
    · refine ⟨0x80, 0xBF, ?_, by omega, by omega⟩
      rw [if_neg (by simp; omega), if_neg (by simp; omega), if_pos (by omega),
        Nat.add_sub_cancel_left]

/-- The second of four bytes keeps to the bounds that the lead byte sets. -/
theorem lead_four (least : 0x10000 ≤ point) (most : point < 0x110000) :
    ∃ low high, Lead.ofByte? (0xF0 + point / 262144) = some ⟨point / 262144, 3, low, high⟩ ∧
      low ≤ 0x80 + point / 4096 % 64 ∧ 0x80 + point / 4096 % 64 ≤ high := by
  rw [Lead.ofByte?, if_neg (by omega), if_neg (by omega), if_neg (by simp; omega),
    if_neg (by simp; omega), if_neg (by omega)]
  by_cases first : point / 262144 = 0
  · exact ⟨0x90, 0xBF, by simp [first], by omega, by omega⟩
  · by_cases fourth : point / 262144 = 4
    · exact ⟨0x80, 0x8F, by simp [fourth], by omega, by omega⟩
    · refine ⟨0x80, 0xBF, ?_, by omega, by omega⟩
      rw [if_neg (by simp; omega), if_pos (by omega), Nat.add_sub_cancel_left]

end Leads

/-! ### Characters -/

/-- No character is a surrogate. -/
theorem not_surrogate (c : Char) :
    c.toNat < 0x110000 ∧ (c.toNat < 0xD800 ∨ 0xDFFF < c.toNat) := by
  rcases c.valid with low | ⟨above, below⟩
  · have small : c.toNat < 0xD800 := low
    omega
  · have large : 0xDFFF < c.toNat := above
    have bounded : c.toNat < 0x110000 := below
    omega

section Characters

variable {c : Char} (position : Nat) (output : List Char) (rest : List UInt8)

/-- A character of one byte is decoded. -/
theorem decodeFrom_one (most : c.toNat < 0x80) :
    decodeFrom position .ready output (encodeChar c ++ rest) =
      decodeFrom (position + 1) .ready (c :: output) rest := by
  have byte : c.toNat.toUInt8.toNat = c.toNat := toNat_toUInt8 (by omega)
  have bytes : encodeChar c = [c.toNat.toUInt8] := by
    rw [encodeChar, if_pos most]
  rw [bytes, List.singleton_append, decodeFrom_ascii (by omega), byte, Char.ofNat_toNat]

/-- A character of two bytes is decoded. -/
theorem decodeFrom_two (least : 0x80 ≤ c.toNat) (most : c.toNat < 0x800) :
    decodeFrom position .ready output (encodeChar c ++ rest) =
      decodeFrom (position + 2) .ready (c :: output) rest := by
  have first := toNat_toUInt8 (show 0xC0 + c.toNat / 64 < 256 by omega)
  have second := toNat_toUInt8 (show 0x80 + c.toNat % 64 < 256 by omega)
  have bytes : encodeChar c = [(0xC0 + c.toNat / 64).toUInt8, (0x80 + c.toNat % 64).toUInt8] := by
    rw [encodeChar, if_neg (by omega), if_pos most]
  have within : 0x80 ≤ (0x80 + c.toNat % 64).toUInt8.toNat ∧
      (0x80 + c.toNat % 64).toUInt8.toNat ≤ 0xBF := by omega
  have isChar : c.toNat / 64 * 64 + (0x80 + c.toNat % 64 - 0x80) = c.toNat := by omega
  rw [bytes, List.cons_append, List.singleton_append,
    decodeFrom_lead (by omega) (by rw [first]; exact lead_two least most),
    decodeFrom_last within, second, isChar, Char.ofNat_toNat]
  rfl

/-- A character of three bytes is decoded, because it is no surrogate. -/
theorem decodeFrom_three (least : 0x800 ≤ c.toNat) (most : c.toNat < 0x10000)
    (notSurrogate : c.toNat < 0xD800 ∨ 0xDFFF < c.toNat) :
    decodeFrom position .ready output (encodeChar c ++ rest) =
      decodeFrom (position + 3) .ready (c :: output) rest := by
  have first := toNat_toUInt8 (show 0xE0 + c.toNat / 4096 < 256 by omega)
  have second := toNat_toUInt8 (show 0x80 + c.toNat / 64 % 64 < 256 by omega)
  have third := toNat_toUInt8 (show 0x80 + c.toNat % 64 < 256 by omega)
  have bytes : encodeChar c = [(0xE0 + c.toNat / 4096).toUInt8,
      (0x80 + c.toNat / 64 % 64).toUInt8, (0x80 + c.toNat % 64).toUInt8] := by
    rw [encodeChar, if_neg (by omega), if_neg (by omega), if_pos most]
  obtain ⟨low, high, isLead, within⟩ := lead_three least most notSurrogate
  have isChar : (c.toNat / 4096 * 64 + (0x80 + c.toNat / 64 % 64 - 0x80)) * 64 +
      (0x80 + c.toNat % 64 - 0x80) = c.toNat := by omega
  rw [bytes, List.cons_append, List.cons_append, List.singleton_append,
    decodeFrom_lead (by omega) (by rw [first]; exact isLead),
    decodeFrom_inside (by rw [second]; exact within) (by decide), second,
    decodeFrom_last (by omega), third, isChar, Char.ofNat_toNat]
  rfl

/-- A character of four bytes is decoded. -/
theorem decodeFrom_four (least : 0x10000 ≤ c.toNat) (most : c.toNat < 0x110000) :
    decodeFrom position .ready output (encodeChar c ++ rest) =
      decodeFrom (position + 4) .ready (c :: output) rest := by
  have first := toNat_toUInt8 (show 0xF0 + c.toNat / 262144 < 256 by omega)
  have second := toNat_toUInt8 (show 0x80 + c.toNat / 4096 % 64 < 256 by omega)
  have third := toNat_toUInt8 (show 0x80 + c.toNat / 64 % 64 < 256 by omega)
  have fourth := toNat_toUInt8 (show 0x80 + c.toNat % 64 < 256 by omega)
  have bytes : encodeChar c = [(0xF0 + c.toNat / 262144).toUInt8,
      (0x80 + c.toNat / 4096 % 64).toUInt8, (0x80 + c.toNat / 64 % 64).toUInt8,
      (0x80 + c.toNat % 64).toUInt8] := by
    rw [encodeChar, if_neg (by omega), if_neg (by omega), if_neg (by omega)]
  obtain ⟨low, high, isLead, within⟩ := lead_four least most
  have isChar : ((c.toNat / 262144 * 64 + (0x80 + c.toNat / 4096 % 64 - 0x80)) * 64 +
      (0x80 + c.toNat / 64 % 64 - 0x80)) * 64 + (0x80 + c.toNat % 64 - 0x80) = c.toNat := by omega
  rw [bytes, List.cons_append, List.cons_append, List.cons_append, List.singleton_append,
    decodeFrom_lead (by omega) (by rw [first]; exact isLead),
    decodeFrom_inside (by rw [second]; exact within) (by decide), second,
    decodeFrom_inside (by omega) (by decide), third,
    decodeFrom_last (by omega), fourth, isChar, Char.ofNat_toNat]
  rfl

/-- The bytes of a character are read as that character. -/
theorem decodeFrom_encodeChar (c : Char) :
    ∃ next, decodeFrom position .ready output (encodeChar c ++ rest) =
      decodeFrom next .ready (c :: output) rest := by
  obtain ⟨bounded, notSurrogate⟩ := not_surrogate c
  by_cases one : c.toNat < 0x80
  · exact ⟨_, decodeFrom_one position output rest one⟩
  · by_cases two : c.toNat < 0x800
    · exact ⟨_, decodeFrom_two position output rest (by omega) two⟩
    · by_cases three : c.toNat < 0x10000
      · exact ⟨_, decodeFrom_three position output rest (by omega) three notSurrogate⟩
      · exact ⟨_, decodeFrom_four position output rest (by omega) bounded⟩

end Characters

/-! ### Texts -/

/-- The characters of a text are decoded one after the other. -/
theorem decodeFrom_encodeUtf8 (text : List Char) (position : Nat) (output : List Char) :
    decodeFrom position .ready output (encodeUtf8 text) = .ok (output.reverse ++ text) := by
  induction text generalizing position output with
  | nil =>
    rw [List.append_nil]
    rfl
  | cons c text inductionHypothesis =>
    obtain ⟨next, step⟩ := decodeFrom_encodeChar position output (encodeUtf8 text) c
    rw [encodeUtf8, List.flatMap_cons, ← encodeUtf8, step, inductionHypothesis,
      List.reverse_cons, List.append_assoc, List.singleton_append]

/-- What a text is written as is read as that text. -/
theorem decodeUtf8_encodeUtf8 (text : List Char) : decodeUtf8 (encodeUtf8 text) = .ok text :=
  decodeFrom_encodeUtf8 text 0 []

end InterfaceAudit.Text
