import Mathlib.Data.List.Basic
import PropFlow.Text.Utf8

namespace PropFlow.Text.Utf8

theorem toNat_ofNat {n : Nat} (h : n < 256) : (UInt8.ofNat n).toNat = n := by
  rw [UInt8.toNat_ofNat']
  exact Nat.mod_eq_of_lt h

section Steps

variable {done : List Char} {position start lead byte bits count : Nat} {first : UInt8} {range next : Nat × Nat}
  {more : List (Nat × Nat)} {rest : List UInt8}

-- The first byte of a character of several bytes.
theorem decodeFrom_lead (hlead : lead < 256) (h : continuations lead = some (range :: more)) :
    decodeFrom done position none (UInt8.ofNat lead :: rest) =
      decodeFrom done (position + 1) (some ⟨UInt8.ofNat lead, position, leadBits lead, 1, range, more⟩) rest := by
  rw [decodeFrom]
  simp only [toNat_ofNat hlead, h]

-- A byte in the middle of a character.
theorem decodeFrom_middle (hbyte : byte < 256) (hrange : range.1 ≤ byte ∧ byte ≤ range.2) :
    decodeFrom done position (some ⟨first, start, bits, count, range, next :: more⟩) (UInt8.ofNat byte :: rest) =
      decodeFrom done (position + 1)
        (some ⟨first, start, bits * 64 + byte % 64, count + 1, next, more⟩) rest := by
  rw [decodeFrom]
  simp only [toNat_ofNat hbyte, if_pos hrange]

-- The last byte of a character.
theorem decodeFrom_last (hbyte : byte < 256) (hrange : range.1 ≤ byte ∧ byte ≤ range.2) :
    decodeFrom done position (some ⟨first, start, bits, count, range, []⟩) (UInt8.ofNat byte :: rest) =
      decodeFrom (Char.ofNat (bits * 64 + byte % 64) :: done) (position + 1) none rest := by
  rw [decodeFrom]
  simp only [toNat_ofNat hbyte, if_pos hrange]

end Steps

-- A byte with six bits of a code, as it stands behind the first one.
def tailByte (code : Nat) : Nat :=
  code % 64 + 128

theorem tailByte_lt (code : Nat) : tailByte code < 256 := by
  unfold tailByte
  omega

theorem tailByte_mod (code : Nat) : tailByte code % 64 = code % 64 := by
  unfold tailByte
  omega

theorem tailByte_mem_tail (code : Nat) : tail.1 ≤ tailByte code ∧ tailByte code ≤ tail.2 := by
  unfold tailByte tail
  omega

theorem continuations_two {code : Nat} (hlow : 0x80 ≤ code) (hhigh : code < 0x800) :
    continuations (code / 64 + 192) = some [tail] := by
  rw [continuations, if_neg (by omega), if_neg (by omega), if_pos (by omega)]

-- The ranges of second bytes shut out overlong forms and surrogates, which no character has.
theorem continuations_three {code : Nat} (hlow : 0x800 ≤ code) (hhigh : code < 0x10000)
    (hvalid : code < 0xD800 ∨ 0xDFFF < code) :
    ∃ range, continuations (code / 4096 + 224) = some [range, tail] ∧
      range.1 ≤ tailByte (code / 64) ∧ tailByte (code / 64) ≤ range.2 := by
  by_cases hfirst : code / 4096 = 0
  · refine ⟨(0xA0, 0xBF), by rw [hfirst]; rfl, ?_⟩
    unfold tailByte
    omega
  by_cases hsurrogate : code / 4096 = 13
  · refine ⟨(0x80, 0x9F), by rw [hsurrogate]; rfl, ?_⟩
    unfold tailByte
    omega
  · refine ⟨tail, ?_, tailByte_mem_tail _⟩
    rw [continuations, if_neg (by omega), if_neg (by omega), if_neg (by omega), if_neg (by omega),
      if_neg (by omega), if_pos (by omega)]

theorem continuations_four {code : Nat} (hlow : 0x10000 ≤ code) (hhigh : code < 0x110000) :
    ∃ range, continuations (code / 262144 + 240) = some [range, tail, tail] ∧
      range.1 ≤ tailByte (code / 4096) ∧ tailByte (code / 4096) ≤ range.2 := by
  by_cases hfirst : code / 262144 = 0
  · refine ⟨(0x90, 0xBF), by rw [hfirst]; rfl, ?_⟩
    unfold tailByte
    omega
  by_cases hlast : code / 262144 = 4
  · refine ⟨(0x80, 0x8F), by rw [hlast]; rfl, ?_⟩
    unfold tailByte
    omega
  · refine ⟨tail, ?_, tailByte_mem_tail _⟩
    rw [continuations, if_neg (by omega), if_neg (by omega), if_neg (by omega), if_neg (by omega),
      if_neg (by omega), if_neg (by omega), if_neg (by omega), if_pos (by omega)]

theorem toNat_valid (c : Char) : c.toNat < 0xD800 ∨ 0xDFFF < c.toNat ∧ c.toNat < 0x110000 :=
  c.valid

-- The bytes of a code point, the tail bytes by name.
theorem utf8EncodeChar_eq (c : Char) : String.utf8EncodeChar c =
    if c.toNat < 0x80 then [UInt8.ofNat c.toNat]
    else if c.toNat < 0x800 then [UInt8.ofNat (c.toNat / 64 + 192), UInt8.ofNat (tailByte c.toNat)]
    else if c.toNat < 0x10000 then
      [UInt8.ofNat (c.toNat / 4096 + 224), UInt8.ofNat (tailByte (c.toNat / 64)), UInt8.ofNat (tailByte c.toNat)]
    else
      [UInt8.ofNat (c.toNat / 262144 + 240), UInt8.ofNat (tailByte (c.toNat / 4096)),
        UInt8.ofNat (tailByte (c.toNat / 64)), UInt8.ofNat (tailByte c.toNat)] := by
  have hcode : c.val.toNat = c.toNat := rfl
  have hvalid := toNat_valid c
  unfold String.utf8EncodeChar tailByte
  simp only [hcode]
  by_cases hone : c.toNat < 0x80
  · rw [if_pos (by omega), if_pos hone]
  by_cases htwo : c.toNat < 0x800
  · have hlead : c.toNat / 64 % 32 = c.toNat / 64 := by omega
    rw [if_neg (by omega), if_pos (by omega), if_neg hone, if_pos htwo, hlead]
  by_cases hthree : c.toNat < 0x10000
  · have hlead : c.toNat / 4096 % 16 = c.toNat / 4096 := by omega
    rw [if_neg (by omega), if_neg (by omega), if_pos (by omega), if_neg hone, if_neg htwo, if_pos hthree, hlead]
  · have hlead : c.toNat / 262144 % 8 = c.toNat / 262144 := by omega
    rw [if_neg (by omega), if_neg (by omega), if_neg (by omega), if_neg hone, if_neg htwo, if_neg hthree, hlead]

-- One character is read off the front of what is left.
theorem decodeFrom_utf8EncodeChar (done : List Char) (position : Nat) (c : Char) (rest : List UInt8) :
    ∃ next, decodeFrom done position none (String.utf8EncodeChar c ++ rest) =
      decodeFrom (c :: done) next none rest := by
  have hchar := Char.ofNat_toNat c
  have hvalid := toNat_valid c
  rw [utf8EncodeChar_eq]
  by_cases hone : c.toNat < 0x80
  · refine ⟨position + 1, ?_⟩
    have hplain : continuations c.toNat = some [] := if_pos hone
    rw [if_pos hone, List.singleton_append, decodeFrom]
    simp only [toNat_ofNat (show c.toNat < 256 by omega), hplain, hchar]
  by_cases htwo : c.toNat < 0x800
  · refine ⟨position + 1 + 1, ?_⟩
    have hbits : leadBits (c.toNat / 64 + 192) * 64 + tailByte c.toNat % 64 = c.toNat := by
      rw [leadBits, if_neg (by omega), if_pos (by omega), tailByte_mod]
      omega
    rw [if_neg hone, if_pos htwo, List.cons_append, List.singleton_append,
      decodeFrom_lead (by omega) (continuations_two (by omega) htwo),
      decodeFrom_last (tailByte_lt _) (tailByte_mem_tail _), hbits, hchar]
  by_cases hthree : c.toNat < 0x10000
  · refine ⟨position + 1 + 1 + 1, ?_⟩
    obtain ⟨range, hrange, hsecond⟩ := continuations_three (by omega) hthree (by omega)
    have hbits : (leadBits (c.toNat / 4096 + 224) * 64 + tailByte (c.toNat / 64) % 64) * 64 +
        tailByte c.toNat % 64 = c.toNat := by
      rw [leadBits, if_neg (by omega), if_neg (by omega), if_pos (by omega), tailByte_mod, tailByte_mod]
      omega
    rw [if_neg hone, if_neg htwo, if_pos hthree, List.cons_append, List.cons_append, List.singleton_append,
      decodeFrom_lead (by omega) hrange, decodeFrom_middle (tailByte_lt _) hsecond,
      decodeFrom_last (tailByte_lt _) (tailByte_mem_tail _), hbits, hchar]
  · refine ⟨position + 1 + 1 + 1 + 1, ?_⟩
    obtain ⟨range, hrange, hsecond⟩ := continuations_four (show 0x10000 ≤ c.toNat by omega) (by omega)
    have hbits : ((leadBits (c.toNat / 262144 + 240) * 64 + tailByte (c.toNat / 4096) % 64) * 64 +
        tailByte (c.toNat / 64) % 64) * 64 + tailByte c.toNat % 64 = c.toNat := by
      rw [leadBits, if_neg (by omega), if_neg (by omega), if_neg (by omega), tailByte_mod, tailByte_mod, tailByte_mod]
      omega
    rw [if_neg hone, if_neg htwo, if_neg hthree, List.cons_append, List.cons_append, List.cons_append,
      List.singleton_append, decodeFrom_lead (by omega) hrange, decodeFrom_middle (tailByte_lt _) hsecond,
      decodeFrom_middle (tailByte_lt _) (tailByte_mem_tail _),
      decodeFrom_last (tailByte_lt _) (tailByte_mem_tail _), hbits, hchar]

theorem decodeFrom_flatMap (text done : List Char) (position : Nat) :
    decodeFrom done position none (text.flatMap String.utf8EncodeChar) = .ok (done.reverse ++ text) := by
  induction text generalizing done position with
  | nil => rw [List.flatMap_nil, List.append_nil, decodeFrom]
  | cons c rest ih =>
      obtain ⟨next, hnext⟩ := decodeFrom_utf8EncodeChar done position c (rest.flatMap String.utf8EncodeChar)
      rw [List.flatMap_cons, hnext, ih, List.reverse_cons, List.append_assoc, List.singleton_append]

theorem encode_eq (text : String) : encode text = text.toList.flatMap String.utf8EncodeChar := by
  have hbytes : text.toByteArray = text.toList.utf8Encode := by
    rw [← String.toByteArray_ofList, String.ofList_toList]
  unfold encode String.toUTF8
  rw [hbytes, List.utf8Encode, List.toList_data_toByteArray]

-- What is written as bytes is read back.
theorem decode_encode (text : String) : decode (encode text) = .ok text := by
  rw [decode, encode_eq, decodeFrom_flatMap, List.reverse_nil, List.nil_append]
  exact congrArg Except.ok String.ofList_toList

end PropFlow.Text.Utf8
