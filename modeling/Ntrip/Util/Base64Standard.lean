import Ntrip.Util.Base64

namespace Ntrip

/-!
# Base64 against the standard

What the two functions of `ntrip_util.cc` have to do with base 64.  The
encoder writes what the standard prescribes.  The decoder looks at the length
of its input and at nothing else before it accepts it: a letter outside the
table is masked like any other.
-/

/-! ## The encoder -/

/-- The four six-bit digits of a group of three bytes. -/
def groupDigits (a b c : UInt8) : List Nat :=
  let group := a.toNat * 2 ^ 16 + b.toNat * 2 ^ 8 + c.toNat
  [group / 2 ^ 18, group / 2 ^ 12 % 2 ^ 6, group / 2 ^ 6 % 2 ^ 6, group % 2 ^ 6]

/-- The encoding that the standard prescribes: a short last group is extended
by zero bytes, keeps the digits that its own bytes reach, and is padded. -/
def standardEncoding : Bytes → Bytes
  | [] => []
  | [a] => ((groupDigits a 0 0).take 2).map letterOf ++ [paddingSign, paddingSign]
  | [a, b] => ((groupDigits a b 0).take 3).map letterOf ++ [paddingSign]
  | a :: b :: c :: rest => (groupDigits a b c).map letterOf ++ standardEncoding rest

/-- The indices at which the group loop of `Base64Encode` reads its table. -/
def encodeIndices (kind : CharKind) : Bytes → List (BitVec 32)
  | [] => []
  | [a] => [(kind.promote a &&& 0xFC) >>> 2, (kind.promote a &&& 0x03) <<< 4]
  | [a, b] =>
      [(kind.promote a &&& 0xFC) >>> 2,
        (kind.promote a &&& 0x03) <<< 4 ||| (kind.promote b &&& 0xF0) >>> 4,
        (kind.promote b &&& 0x0F) <<< 2]
  | a :: b :: c :: rest =>
      (kind.promote a &&& 0xFC) >>> 2 ::
      ((kind.promote a &&& 0x03) <<< 4 ||| (kind.promote b &&& 0xF0) >>> 4) ::
      ((kind.promote b &&& 0x0F) <<< 2 ||| (kind.promote c &&& 0xC0) >>> 6) ::
      (kind.promote c &&& 0x3F) :: encodeIndices kind rest

theorem encodeLoop_eq_map (kind : CharKind) (raw : Bytes) :
    encodeLoop kind raw = (encodeIndices kind raw).map codeLetter := by
  fun_induction encodeLoop kind raw with
  | case1 => rfl
  | case2 a => rfl
  | case3 a b => rfl
  | case4 a b c rest inductionHypothesis =>
      rw [inductionHypothesis]
      rfl

/-- The indices are the six-bit digits, whatever the signedness. -/
theorem encodeIndices_toNat (kind : CharKind) (raw : Bytes) :
    (encodeIndices kind raw).map BitVec.toNat = Sextets.digits (raw.map UInt8.toNat) := by
  fun_induction encodeIndices kind raw with
  | case1 => rfl
  | case2 a =>
      simp only [List.map_cons, List.map_nil, Sextets.digits, promote_high_six, promote_low_two]
  | case3 a b =>
      simp only [List.map_cons, List.map_nil, Sextets.digits, promote_high_six,
        promote_pair_first, promote_low_four]
  | case4 a b c rest inductionHypothesis =>
      simp only [List.map_cons, Sextets.digits, promote_high_six, promote_pair_first,
        promote_pair_second, promote_low_six, inductionHypothesis]

theorem encodeIndices_bound (kind : CharKind) (raw : Bytes) :
    ∀ index ∈ encodeIndices kind raw, 0 ≤ index.toInt ∧ index.toInt ≤ 63 := by
  intro index member
  have listed : index.toNat ∈ Sextets.digits (raw.map UInt8.toNat) := by
    rw [← encodeIndices_toNat kind raw]
    exact List.mem_map_of_mem member
  have small := Sextets.digits_lt _ (toNat_lt_of_mem raw) _ listed
  rw [BitVec.toInt_eq_toNat_of_lt (by omega)]
  omega

theorem groupDigits_eq (a b c : UInt8) :
    groupDigits a b c = [a.toNat / 4, a.toNat % 4 * 16 + b.toNat / 16,
      b.toNat % 16 * 4 + c.toNat / 64, c.toNat % 64] := by
  have := a.toNat_lt
  have := b.toNat_lt
  have := c.toNat_lt
  simp only [groupDigits, List.cons.injEq, and_true]
  omega

/-- The digits of the groups are the digits of the loop. -/
theorem standardEncoding_eq (raw : Bytes) :
    standardEncoding raw = (Sextets.digits (raw.map UInt8.toNat)).map letterOf ++
      List.replicate (Sextets.padding raw.length) paddingSign := by
  fun_induction standardEncoding raw with
  | case1 => rfl
  | case2 a =>
      rw [groupDigits_eq]
      rfl
  | case3 a b =>
      rw [groupDigits_eq]
      rfl
  | case4 a b c rest inductionHypothesis =>
      have samePadding : Sextets.padding (a :: b :: c :: rest).length =
          Sextets.padding rest.length := by
        simp only [Sextets.padding, List.length_cons]
        omega
      rw [groupDigits_eq, inductionHypothesis, samePadding]
      rfl

/-- For every text whose length the loop can count, the encoder returns 0 and
the standard encoding, four letters for every three bytes begun, and never
reads outside its table. -/
theorem base64Encode_standard (kind : CharKind) (raw : Bytes) (short : raw.length ≤ 2 ^ 30) :
    base64Encode kind raw [] = (0, standardEncoding raw) ∧
      (standardEncoding raw).length = 4 * ((raw.length + 2) / 3) ∧
      encodeLoop kind raw = (encodeIndices kind raw).map codeLetter ∧
      ∀ index ∈ encodeIndices kind raw, 0 ≤ index.toInt ∧ index.toInt ≤ 63 := by
  have encoded : base64Encode kind raw [] = (0, standardEncoding raw) := by
    rw [base64Encode_eq kind raw short, standardEncoding_eq]
  have length := base64Encode_length kind raw short
  rw [encoded] at length
  exact ⟨encoded, length, encodeLoop_eq_map kind raw, encodeIndices_bound kind raw⟩

theorem base64Encode_standard_twoBytes :
    base64Encode .signed [0xFF, 0x80] [] = (0, ascii "/4A=") := by
  have standard : standardEncoding [0xFF, 0x80] = ascii "/4A=" := by decide
  rw [← standard]
  exact (base64Encode_standard .signed [0xFF, 0x80] (by decide)).1

/-! ## Lengths beyond the loop's counter -/

theorem toNat_toInt_lt (size : Nat) : (toInt size).toNat < 2 ^ 31 := by
  unfold toInt Int.bmod
  dsimp only
  split
  · omega
  · omega

theorem toNat_toInt_le (size : Nat) : (toInt size).toNat ≤ size := by
  unfold toInt Int.bmod
  dsimp only
  split
  · omega
  · omega

theorem length_counted (raw : Bytes) :
    (raw.take (toInt raw.length).toNat).length = (toInt raw.length).toNat := by
  have := toNat_toInt_le raw.length
  rw [List.length_take]
  omega

/-- The encoder counts the length in an `int`, and encodes what it counts. -/
theorem base64Encode_counted (kind : CharKind) (raw : Bytes) :
    base64Encode kind raw [] = base64Encode kind (raw.take (toInt raw.length).toNat) [] := by
  unfold base64Encode
  rw [length_counted, toInt_of_lt (toNat_toInt_lt raw.length), Int.toNat_natCast, List.take_take,
    Nat.min_self]

/-- However long the text is, the output is no shorter than what was counted. -/
theorem le_base64Encode_length (kind : CharKind) (raw : Bytes) :
    (toInt raw.length).toNat ≤ (base64Encode kind raw []).2.length := by
  have filled := Sextets.length_digits_add_padding
    ((raw.take (toInt raw.length).toNat).map UInt8.toNat)
  rw [List.length_map, length_counted] at filled
  have loop : (toInt raw.length).toNat ≤
      (encodeLoop kind (raw.take (toInt raw.length).toNat)).length := by
    rw [encodeLoop_eq, List.length_map]
    unfold Sextets.padding at filled
    omega
  unfold base64Encode
  dsimp only
  rw [List.nil_append]
  split
  · rw [List.length_append]
    omega
  · exact loop

/-- Up to every bound that matters, the length of the output is what the
standard prescribes for what was counted. -/
theorem base64Encode_length_le_iff (kind : CharKind) (raw : Bytes) {limit : Nat}
    (small : limit ≤ 2 ^ 30) :
    (base64Encode kind raw []).2.length ≤ limit ↔
      4 * (((toInt raw.length).toNat + 2) / 3) ≤ limit := by
  by_cases exact : (toInt raw.length).toNat ≤ 2 ^ 30
  · rw [base64Encode_counted, base64Encode_length kind _ (by rw [length_counted]; exact exact),
      length_counted]
  · have long := le_base64Encode_length kind raw
    omega

/-! ## The decoder -/

/-- A text in base 64: letters of the table, with one or two padding signs in
the place of the last ones. -/
def IsBase64 (encoded : Bytes) : Prop :=
  encoded ≠ [] ∧ encoded.length % 4 = 0 ∧
    ∃ letters padding, encoded = letters ++ List.replicate padding paddingSign ∧ padding ≤ 2 ∧
      ∀ letter ∈ letters, letter ∈ kBase64CodeTable

theorem IsBase64.letter {encoded : Bytes} (standard : IsBase64 encoded) :
    ∀ letter ∈ encoded, letter ∈ kBase64CodeTable ∨ letter = paddingSign := by
  rcases standard with ⟨_, _, letters, padding, rfl, _, inTable⟩
  intro letter member
  rcases List.mem_append.mp member with inLetters | inPadding
  · exact Or.inl (inTable letter inLetters)
  · exact Or.inr (List.eq_of_mem_replicate inPadding)

theorem toInt_eq_zero_iff (size : Nat) : toInt size = 0 ↔ size % 2 ^ 32 = 0 := by
  unfold toInt Int.bmod
  dsimp only
  split
  · omega
  · omega

theorem toInt_tmod_four_iff (size : Nat) : (toInt size).tmod 4 = 0 ↔ size % 4 = 0 := by
  rw [← Int.dvd_iff_tmod_eq_zero]
  unfold toInt Int.bmod
  dsimp only
  split
  · omega
  · omega

/-- The decoder returns 0 for every text whose length is a multiple of four
and not of 2^32, and -1 for every other one. -/
theorem base64Decode_accepts_iff (encoded : Bytes) :
    (base64Decode encoded).isSome = true ↔
      encoded.length % 4 = 0 ∧ encoded.length % 2 ^ 32 ≠ 0 := by
  have zero := toInt_eq_zero_iff encoded.length
  have groups := toInt_tmod_four_iff encoded.length
  unfold base64Decode
  dsimp only
  by_cases refused : toInt encoded.length = 0 ∨ (toInt encoded.length).tmod 4 ≠ 0
  · rw [if_pos refused]
    rw [zero, Ne, groups] at refused
    refine iff_of_false Bool.false_ne_true ?_
    intro accepted
    exact refused.elim accepted.2 (fun other => other accepted.1)
  · rw [if_neg refused]
    rw [zero, Ne, groups, not_or, not_not] at refused
    exact iff_of_true rfl ⟨refused.2, refused.1⟩

theorem base64Decode_accepts_fails :
    ¬ ∀ encoded : Bytes, (base64Decode encoded).isSome = true ↔ IsBase64 encoded := by
  intro always
  have accepted : (base64Decode (ascii "????")).isSome = true := by
    rw [base64Decode_of_length (by decide) (by decide) (by decide)]
    rfl
  have letters := ((always (ascii "????")).mp accepted).letter
  exact absurd letters (by decide +kernel)

end Ntrip
