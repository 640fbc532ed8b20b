import Ntrip.Foundation.Sextets
import Ntrip.Util.Text
import Mathlib.Data.List.GetD

namespace Ntrip

/-!
# Base64 as the utility functions compute it

`Base64Encode` and `Base64Decode` of `ntrip_util.cc`.  Every `char` operand
is promoted to `int` before it is masked; whether that extends the sign is a
choice of the platform, so it is a parameter here.  An index-driven loop over
`raw` is a recursion over the groups of the list, cut to the `int` length.
-/

open Sequence

/-- Signedness of plain `char`. -/
inductive CharKind
  | signed
  | unsigned
deriving DecidableEq, Repr

/-- Integral promotion of a `char`. -/
def CharKind.promote : CharKind → UInt8 → BitVec 32
  | .signed, letter => letter.toBitVec.signExtend 32
  | .unsigned, letter => letter.toBitVec.setWidth 32

def kBase64CodeTable : Bytes :=
  ascii "ABCDEFGHIJKLMNOPQRSTUVWXYZabcdefghijklmnopqrstuvwxyz0123456789+/"

def paddingSign : UInt8 := 61

/-- `kBase64CodeTable[index]`. -/
def codeLetter (index : BitVec 32) : UInt8 :=
  kBase64CodeTable.getD index.toNat 0

/-- `base64_index`: `npos` becomes -1 in the conversion to `int`. -/
def base64Index (letter : UInt8) : BitVec 32 :=
  match find kBase64CodeTable [letter] with
  | some position => BitVec.ofNat 32 position
  | none => -1

/-- The group loop of `Base64Encode`. -/
def encodeLoop (kind : CharKind) : Bytes → Bytes
  | [] => []
  | [a] =>
      [codeLetter ((kind.promote a &&& 0xFC) >>> 2),
        codeLetter ((kind.promote a &&& 0x03) <<< 4)]
  | [a, b] =>
      [codeLetter ((kind.promote a &&& 0xFC) >>> 2),
        codeLetter ((kind.promote a &&& 0x03) <<< 4 ||| (kind.promote b &&& 0xF0) >>> 4),
        codeLetter ((kind.promote b &&& 0x0F) <<< 2)]
  | a :: b :: c :: rest =>
      codeLetter ((kind.promote a &&& 0xFC) >>> 2) ::
      codeLetter ((kind.promote a &&& 0x03) <<< 4 ||| (kind.promote b &&& 0xF0) >>> 4) ::
      codeLetter ((kind.promote b &&& 0x0F) <<< 2 ||| (kind.promote c &&& 0xC0) >>> 6) ::
      codeLetter (kind.promote c &&& 0x3F) :: encodeLoop kind rest

/-- `Base64Encode`: its return value and the final content of `out`. -/
def base64Encode (kind : CharKind) (raw out : Bytes) : Int × Bytes :=
  let encoded := out ++ encodeLoop kind (raw.take (toInt raw.length).toNat)
  let length := toInt encoded.length
  let padded :=
    if length.tmod 4 ≠ 0 then encoded ++ List.replicate (4 - length.tmod 4).toNat paddingSign
    else encoded
  (0, padded)

/-- `push_back` of an `int` keeps its low byte. -/
def toChar (value : BitVec 32) : UInt8 :=
  UInt8.ofBitVec (value.setWidth 8)

/-- The group loop of `Base64Decode`.  After a padding sign it still pushes
the low bits of the last digit before it leaves the loop. -/
def decodeLoop : Bytes → Bytes
  | a :: b :: c :: d :: rest =>
      toChar ((base64Index a &&& 0x3F) <<< 2 ||| (base64Index b &&& 0x3F) >>> 4) ::
      if c = paddingSign then
        [toChar ((base64Index b &&& 0x0F) <<< 4)]
      else
        toChar ((base64Index b &&& 0x0F) <<< 4 ||| (base64Index c &&& 0x3F) >>> 2) ::
        if d = paddingSign then
          [toChar ((base64Index c &&& 0x03) <<< 6)]
        else
          toChar ((base64Index c &&& 0x03) <<< 6 ||| base64Index d &&& 0x3F) :: decodeLoop rest
  | _ => []

/-- `Base64Decode` into a non-null string: `none` is the return value -1,
`some out` is 0 with the final content of `out`. -/
def base64Decode (raw : Bytes) : Option Bytes :=
  let length := toInt raw.length
  if length = 0 ∨ length.tmod 4 ≠ 0 then none else some (decodeLoop (raw.take length.toNat))

/-! ## Masks and shifts as arithmetic -/

/-- The table letter of a digit. -/
def letterOf (digit : Nat) : UInt8 :=
  kBase64CodeTable.getD digit 0

theorem toNat_and_shiftRight (value mask : BitVec 32) (width shift : Nat)
    (ones : mask.toNat >>> shift = 2 ^ width - 1) :
    ((value &&& mask) >>> shift).toNat = value.toNat / 2 ^ shift % 2 ^ width := by
  rw [BitVec.toNat_ushiftRight, BitVec.toNat_and, Nat.shiftRight_and_distrib, ones,
    Nat.and_two_pow_sub_one_eq_mod, Nat.shiftRight_eq_div_pow]

theorem toNat_and_shiftLeft (value mask : BitVec 32) (width shift : Nat)
    (ones : mask.toNat = 2 ^ width - 1) (fits : width + shift ≤ 32) :
    ((value &&& mask) <<< shift).toNat = value.toNat % 2 ^ width * 2 ^ shift := by
  have small : value.toNat % 2 ^ width * 2 ^ shift < 2 ^ 32 := by
    calc value.toNat % 2 ^ width * 2 ^ shift
        < 2 ^ width * 2 ^ shift :=
          Nat.mul_lt_mul_of_pos_right (Nat.mod_lt _ (Nat.two_pow_pos width)) (Nat.two_pow_pos shift)
      _ = 2 ^ (width + shift) := (Nat.pow_add 2 width shift).symm
      _ ≤ 2 ^ 32 := Nat.pow_le_pow_right (by decide) fits
  rw [BitVec.toNat_shiftLeft, BitVec.toNat_and, ones, Nat.and_two_pow_sub_one_eq_mod,
    Nat.shiftLeft_eq, Nat.mod_eq_of_lt small]

section Masks

variable (kind : CharKind) (letter : UInt8)

/-- The promotion keeps the low byte, and no mask looks at more. -/
theorem promote_low_byte : (kind.promote letter).toNat % 256 = letter.toNat := by
  have keeps : ∀ kind : CharKind, ∀ index : Fin 256,
      (kind.promote (UInt8.ofNat index)).toNat % 256 = index := by
    intro kind
    cases kind <;> decide +kernel
  have here := keeps kind ⟨letter.toNat, letter.toNat_lt⟩
  rwa [UInt8.ofNat_toNat] at here

theorem promote_high_six :
    ((kind.promote letter &&& 0xFC) >>> 2).toNat = letter.toNat / 4 := by
  have byte := promote_low_byte kind letter
  rw [toNat_and_shiftRight _ _ 6 2 (by decide)]
  omega

theorem promote_low_two :
    ((kind.promote letter &&& 0x03) <<< 4).toNat = letter.toNat % 4 * 16 := by
  have byte := promote_low_byte kind letter
  rw [toNat_and_shiftLeft _ _ 2 4 (by decide) (by decide)]
  omega

theorem promote_high_four :
    ((kind.promote letter &&& 0xF0) >>> 4).toNat = letter.toNat / 16 := by
  have byte := promote_low_byte kind letter
  rw [toNat_and_shiftRight _ _ 4 4 (by decide)]
  omega

theorem promote_low_four :
    ((kind.promote letter &&& 0x0F) <<< 2).toNat = letter.toNat % 16 * 4 := by
  have byte := promote_low_byte kind letter
  rw [toNat_and_shiftLeft _ _ 4 2 (by decide) (by decide)]
  omega

theorem promote_high_two :
    ((kind.promote letter &&& 0xC0) >>> 6).toNat = letter.toNat / 64 := by
  have byte := promote_low_byte kind letter
  rw [toNat_and_shiftRight _ _ 2 6 (by decide)]
  omega

theorem promote_low_six :
    (kind.promote letter &&& 0x3F).toNat = letter.toNat % 64 := by
  have byte := promote_low_byte kind letter
  have masked := toNat_and_shiftLeft (kind.promote letter) 0x3F 6 0 (by decide) (by decide)
  rw [BitVec.shiftLeft_zero] at masked
  omega

end Masks

/-- The bitwise or of a multiple of a power of two and a smaller number is
their sum. -/
theorem toNat_or_of_disjoint (high low : BitVec 32) (power : Nat)
    (multiple : high.toNat % 2 ^ power = 0) (small : low.toNat < 2 ^ power) :
    (high ||| low).toNat = high.toNat + low.toNat := by
  have quotient : high.toNat = high.toNat / 2 ^ power * 2 ^ power :=
    (Nat.div_mul_cancel (Nat.dvd_of_mod_eq_zero multiple)).symm
  rw [BitVec.toNat_or, quotient, ← Nat.shiftLeft_eq, Nat.shiftLeft_add_eq_or_of_lt small]

theorem promote_pair_first (kind : CharKind) (a b : UInt8) :
    ((kind.promote a &&& 0x03) <<< 4 ||| (kind.promote b &&& 0xF0) >>> 4).toNat =
      a.toNat % 4 * 16 + b.toNat / 16 := by
  have := b.toNat_lt
  rw [toNat_or_of_disjoint _ _ 4 (by rw [promote_low_two]; omega)
    (by rw [promote_high_four]; omega), promote_low_two, promote_high_four]

theorem promote_pair_second (kind : CharKind) (b c : UInt8) :
    ((kind.promote b &&& 0x0F) <<< 2 ||| (kind.promote c &&& 0xC0) >>> 6).toNat =
      b.toNat % 16 * 4 + c.toNat / 64 := by
  have := c.toNat_lt
  rw [toNat_or_of_disjoint _ _ 2 (by rw [promote_low_four]; omega)
    (by rw [promote_high_two]; omega), promote_low_four, promote_high_two]

/-- The encoder's loop writes the six-bit digits, whatever the signedness. -/
theorem encodeLoop_eq (kind : CharKind) (raw : Bytes) :
    encodeLoop kind raw = (Sextets.digits (raw.map UInt8.toNat)).map letterOf := by
  fun_induction encodeLoop kind raw with
  | case1 => rfl
  | case2 a =>
      simp only [List.map_cons, List.map_nil, Sextets.digits, codeLetter, letterOf,
        promote_high_six, promote_low_two]
  | case3 a b =>
      simp only [List.map_cons, List.map_nil, Sextets.digits, codeLetter, letterOf,
        promote_high_six, promote_pair_first, promote_low_four]
  | case4 a b c rest inductionHypothesis =>
      simp only [List.map_cons, Sextets.digits, codeLetter, letterOf, promote_high_six,
        promote_pair_first, promote_pair_second, promote_low_six, inductionHypothesis]

/-! ## Decoding table letters -/

theorem base64Index_letterOf {digit : Nat} (small : digit < 64) :
    base64Index (letterOf digit) = BitVec.ofNat 32 digit := by
  have all : ∀ index : Fin 64, base64Index (letterOf index) = BitVec.ofNat 32 index := by
    decide +kernel
  exact all ⟨digit, small⟩

theorem letterOf_mem {digit : Nat} (small : digit < 64) :
    letterOf digit ∈ kBase64CodeTable := by
  have bound : digit < kBase64CodeTable.length := small
  rw [letterOf, List.getD_eq_getElem _ _ bound]
  exact List.getElem_mem bound

theorem letterOf_ne_padding {digit : Nat} (small : digit < 64) :
    letterOf digit ≠ paddingSign := by
  have absent : paddingSign ∉ kBase64CodeTable := by decide
  intro same
  exact absent (same ▸ letterOf_mem small)

theorem toChar_eq (value : BitVec 32) : toChar value = UInt8.ofNat value.toNat := by
  apply UInt8.toBitVec_inj.mp
  apply BitVec.eq_of_toNat_eq
  simp [toChar]

theorem toNat_digit {digit : Nat} (small : digit < 64) : (BitVec.ofNat 32 digit).toNat = digit := by
  rw [BitVec.toNat_ofNat]
  omega

private theorem digit_shift_two {p : Nat} (small : p < 64) :
    ((BitVec.ofNat 32 p &&& 0x3F) <<< 2).toNat = p * 4 := by
  rw [toNat_and_shiftLeft _ _ 6 2 (by decide) (by decide), toNat_digit small]
  omega

private theorem digit_top_two {q : Nat} (small : q < 64) :
    ((BitVec.ofNat 32 q &&& 0x3F) >>> 4).toNat = q / 16 := by
  rw [toNat_and_shiftRight _ _ 2 4 (by decide), toNat_digit small]
  omega

private theorem digit_shift_four {q : Nat} (small : q < 64) :
    ((BitVec.ofNat 32 q &&& 0x0F) <<< 4).toNat = q % 16 * 16 := by
  rw [toNat_and_shiftLeft _ _ 4 4 (by decide) (by decide), toNat_digit small]
  omega

private theorem digit_top_four {r : Nat} (small : r < 64) :
    ((BitVec.ofNat 32 r &&& 0x3F) >>> 2).toNat = r / 4 := by
  rw [toNat_and_shiftRight _ _ 4 2 (by decide), toNat_digit small]
  omega

private theorem digit_shift_six {r : Nat} (small : r < 64) :
    ((BitVec.ofNat 32 r &&& 0x03) <<< 6).toNat = r % 4 * 64 := by
  rw [toNat_and_shiftLeft _ _ 2 6 (by decide) (by decide), toNat_digit small]
  omega

private theorem digit_whole {s : Nat} (small : s < 64) :
    (BitVec.ofNat 32 s &&& 0x3F).toNat = s := by
  have masked := toNat_and_shiftLeft (BitVec.ofNat 32 s) 0x3F 6 0 (by decide) (by decide)
  rw [BitVec.shiftLeft_zero, toNat_digit small] at masked
  omega

private theorem toChar_first {p q : Nat} (hp : p < 64) (hq : q < 64) :
    toChar ((BitVec.ofNat 32 p &&& 0x3F) <<< 2 ||| (BitVec.ofNat 32 q &&& 0x3F) >>> 4) =
      UInt8.ofNat (p * 4 + q / 16) := by
  rw [toChar_eq, toNat_or_of_disjoint _ _ 2 (by rw [digit_shift_two hp]; omega)
    (by rw [digit_top_two hq]; omega), digit_shift_two hp, digit_top_two hq]

private theorem toChar_second {q r : Nat} (hq : q < 64) (hr : r < 64) :
    toChar ((BitVec.ofNat 32 q &&& 0x0F) <<< 4 ||| (BitVec.ofNat 32 r &&& 0x3F) >>> 2) =
      UInt8.ofNat (q % 16 * 16 + r / 4) := by
  rw [toChar_eq, toNat_or_of_disjoint _ _ 4 (by rw [digit_shift_four hq]; omega)
    (by rw [digit_top_four hr]; omega), digit_shift_four hq, digit_top_four hr]

private theorem toChar_third {r s : Nat} (hr : r < 64) (hs : s < 64) :
    toChar ((BitVec.ofNat 32 r &&& 0x03) <<< 6 ||| BitVec.ofNat 32 s &&& 0x3F) =
      UInt8.ofNat (r % 4 * 64 + s) := by
  rw [toChar_eq, toNat_or_of_disjoint _ _ 6 (by rw [digit_shift_six hr]; omega)
    (by rw [digit_whole hs]; omega), digit_shift_six hr, digit_whole hs]

/-- A group of four table letters is three bytes. -/
theorem decodeLoop_group {p q r s : Nat} (hp : p < 64) (hq : q < 64) (hr : r < 64) (hs : s < 64)
    (rest : Bytes) :
    decodeLoop (letterOf p :: letterOf q :: letterOf r :: letterOf s :: rest) =
      UInt8.ofNat (p * 4 + q / 16) :: UInt8.ofNat (q % 16 * 16 + r / 4) ::
        UInt8.ofNat (r % 4 * 64 + s) :: decodeLoop rest := by
  rw [decodeLoop, if_neg (letterOf_ne_padding hr), if_neg (letterOf_ne_padding hs)]
  simp only [base64Index_letterOf, hp, hq, hr, hs, toChar_first, toChar_second, toChar_third]

/-- One padding sign: two bytes, and then the leftover bits of the last digit. -/
theorem decodeLoop_three {p q r : Nat} (hp : p < 64) (hq : q < 64) (hr : r < 64) :
    decodeLoop [letterOf p, letterOf q, letterOf r, paddingSign] =
      [UInt8.ofNat (p * 4 + q / 16), UInt8.ofNat (q % 16 * 16 + r / 4),
        UInt8.ofNat (r % 4 * 64)] := by
  rw [decodeLoop, if_neg (letterOf_ne_padding hr), if_pos rfl]
  simp only [base64Index_letterOf, hp, hq, hr, toChar_first, toChar_second]
  rw [toChar_eq, digit_shift_six hr]

/-- Two padding signs: one byte, and then the leftover bits of the last digit. -/
theorem decodeLoop_two {p q : Nat} (hp : p < 64) (hq : q < 64) :
    decodeLoop [letterOf p, letterOf q, paddingSign, paddingSign] =
      [UInt8.ofNat (p * 4 + q / 16), UInt8.ofNat (q % 16 * 16)] := by
  rw [decodeLoop, if_pos rfl]
  simp only [base64Index_letterOf, hp, hq, toChar_first]
  rw [toChar_eq, digit_shift_four hq]

/-! ## The round trip -/

/-- What the decoder appends to a text of `count` bytes: nothing after whole
groups, otherwise the zero bits that filled the last digit, as one more byte. -/
def strayByte (count : Nat) : Bytes :=
  if count % 3 = 0 then [] else [0]

theorem decodeLoop_digits (raw : List Nat) (small : ∀ byte ∈ raw, byte < 256) :
    decodeLoop ((Sextets.digits raw).map letterOf ++
        List.replicate (Sextets.padding raw.length) paddingSign) =
      (Sextets.bytes (Sextets.digits raw)).map UInt8.ofNat ++ strayByte raw.length := by
  fun_induction Sextets.digits raw with
  | case1 => rfl
  | case2 a =>
      have := small a (by simp)
      change decodeLoop [letterOf _, letterOf _, paddingSign, paddingSign] = _
      rw [decodeLoop_two (by omega) (by omega)]
      have vanishes : a % 4 * 16 % 16 * 16 = 0 := by omega
      rw [vanishes]
      rfl
  | case3 a b =>
      have := small a (by simp)
      have := small b (by simp)
      change decodeLoop [letterOf _, letterOf _, letterOf _, paddingSign] = _
      rw [decodeLoop_three (by omega) (by omega) (by omega)]
      have vanishes : b % 16 * 4 % 4 * 64 = 0 := by omega
      rw [vanishes]
      rfl
  | case4 a b c rest inductionHypothesis =>
      have := small a (by simp)
      have := small b (by simp)
      have := small c (by simp)
      have tail := inductionHypothesis (fun byte member => small byte (by simp [member]))
      have samePadding : Sextets.padding (a :: b :: c :: rest).length =
          Sextets.padding rest.length := by
        simp only [Sextets.padding, List.length_cons]
        omega
      have sameStray : strayByte (a :: b :: c :: rest).length = strayByte rest.length := by
        have : (rest.length + 1 + 1 + 1) % 3 = rest.length % 3 := by omega
        simp only [strayByte, List.length_cons, this]
      simp only [samePadding, sameStray, List.map_cons, List.cons_append, Sextets.bytes]
      rw [decodeLoop_group (by omega) (by omega) (by omega) (by omega), tail]

/-- The encoding of a string whose length fits an `int`. -/
theorem base64Encode_eq (kind : CharKind) (raw : Bytes) (short : raw.length ≤ 2 ^ 30) :
    base64Encode kind raw [] =
      (0, (Sextets.digits (raw.map UInt8.toNat)).map letterOf ++
        List.replicate (Sextets.padding raw.length) paddingSign) := by
  have filled := Sextets.length_digits_add_padding (raw.map UInt8.toNat)
  simp only [List.length_map] at filled
  have bound : (Sextets.digits (raw.map UInt8.toNat)).length < 2 ^ 31 := by omega
  have paddingBound : Sextets.padding raw.length < 3 := by
    unfold Sextets.padding
    omega
  unfold base64Encode
  simp only [toInt_of_lt (show raw.length < 2 ^ 31 by omega), Int.toNat_natCast, List.take_length,
    List.nil_append, encodeLoop_eq, List.length_map, toInt_of_lt bound, tmod_four]
  by_cases whole : Sextets.padding raw.length = 0
  · rw [if_neg (by omega), whole]
    simp
  · rw [if_pos (by omega)]
    have count : (4 - (((Sextets.digits (raw.map UInt8.toNat)).length % 4 : Nat) : Int)).toNat =
        Sextets.padding raw.length := by omega
    rw [count]

theorem base64Encode_length (kind : CharKind) (raw : Bytes) (short : raw.length ≤ 2 ^ 30) :
    (base64Encode kind raw []).2.length = 4 * ((raw.length + 2) / 3) := by
  have filled := Sextets.length_digits_add_padding (raw.map UInt8.toNat)
  simp only [List.length_map] at filled
  rw [base64Encode_eq kind raw short]
  simpa using filled

/-- On whole groups that an `int` can count, the decoder runs its loop. -/
theorem base64Decode_of_length {encoded : Bytes} (positive : 0 < encoded.length)
    (bound : encoded.length < 2 ^ 31) (groups : encoded.length % 4 = 0) :
    base64Decode encoded = some (decodeLoop encoded) := by
  unfold base64Decode
  simp only [toInt_of_lt bound, Int.toNat_natCast, List.take_length, tmod_four]
  rw [if_neg (by omega)]

theorem toNat_lt_of_mem (raw : Bytes) : ∀ byte ∈ raw.map UInt8.toNat, byte < 256 := by
  intro byte member
  rcases List.mem_map.mp member with ⟨letter, _, rfl⟩
  exact letter.toNat_lt

theorem decodeLoop_base64Encode (kind : CharKind) (raw : Bytes) (short : raw.length ≤ 2 ^ 30) :
    decodeLoop (base64Encode kind raw []).2 = raw ++ strayByte raw.length := by
  have decoded := decodeLoop_digits (raw.map UInt8.toNat) (toNat_lt_of_mem raw)
  have restored : (raw.map UInt8.toNat).map UInt8.ofNat = raw := by
    simp [Function.comp_def]
  rw [Sextets.bytes_digits _ (toNat_lt_of_mem raw), List.length_map, restored] at decoded
  rw [base64Encode_eq kind raw short]
  exact decoded

/-- Decoding an encoded string gives it back with the stray byte behind it. -/
theorem base64Decode_base64Encode (kind : CharKind) (raw : Bytes) (nonempty : raw ≠ [])
    (short : raw.length ≤ 2 ^ 30) :
    base64Decode (base64Encode kind raw []).2 = some (raw ++ strayByte raw.length) := by
  have positive := List.length_pos_of_ne_nil nonempty
  have length := base64Encode_length kind raw short
  rw [base64Decode_of_length (by omega) (by omega) (by omega),
    decodeLoop_base64Encode kind raw short]

/-- The round trip of the code: it returns the text exactly when the text
consists of whole three-byte groups. -/
theorem base64_round_trip_iff (kind : CharKind) (raw : Bytes) (nonempty : raw ≠ [])
    (short : raw.length ≤ 2 ^ 30) :
    base64Decode (base64Encode kind raw []).2 = some raw ↔ raw.length % 3 = 0 := by
  rw [base64Decode_base64Encode kind raw nonempty short, Option.some.injEq,
    List.append_right_eq_self, strayByte]
  by_cases whole : raw.length % 3 = 0
  · simp [whole]
  · simp [whole]

theorem base64_round_trip_abc :
    base64Decode (base64Encode .signed (ascii "abc") []).2 = some (ascii "abc") ↔
      (ascii "abc").length % 3 = 0 :=
  base64_round_trip_iff .signed (ascii "abc") (by decide) (by decide)

theorem base64_round_trip_fails :
    ¬ ∀ (kind : CharKind) (raw : Bytes), raw ≠ [] → raw.length ≤ 2 ^ 30 →
      base64Decode (base64Encode kind raw []).2 = some raw := by
  intro roundTrip
  have decoded := roundTrip .signed (ascii "a") (by decide) (by decide)
  revert decoded
  decide +kernel

/-- No byte outside the table and the padding sign is ever written. -/
theorem base64Encode_letters (kind : CharKind) (raw : Bytes) :
    ∀ letter ∈ (base64Encode kind raw []).2,
      letter ∈ kBase64CodeTable ∨ letter = paddingSign := by
  have loop : ∀ letter ∈ [] ++ encodeLoop kind (raw.take (toInt raw.length).toNat),
      letter ∈ kBase64CodeTable := by
    intro letter member
    rw [List.nil_append, encodeLoop_eq] at member
    rcases List.mem_map.mp member with ⟨digit, listed, rfl⟩
    exact letterOf_mem (Sextets.digits_lt _ (toNat_lt_of_mem _) digit listed)
  intro letter member
  unfold base64Encode at member
  dsimp only at member
  split at member
  · rcases List.mem_append.mp member with inLetters | inPadding
    · exact Or.inl (loop letter inLetters)
    · exact Or.inr (List.eq_of_mem_replicate inPadding)
  · exact Or.inl (loop letter member)

end Ntrip
