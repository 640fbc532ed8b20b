import Ntrip.Util.Gga

namespace Ntrip

/-!
# The checksum of generated position reports

`GGAFrameGenerate` behind its first `snprintf`: the checksum loop, and the
field that is printed from it into what is left of a buffer of 256 bytes.
The text that the first `snprintf` formats is a parameter.  Over the letters
below 128 the generator and the test of `BccCheckSumCompareForGGA` compute
the same exclusive or, one in 8 bits and the other in 32.
-/

open Sequence

/-! ## The generator -/

/-- A digit of `%X`. -/
def upperHexLetter (digit : Nat) : UInt8 :=
  (ascii "0123456789ABCDEF").getD digit 0

/-- The text of the format `*%02X%c%c`. -/
def checkSumField (checksum : UInt8) : Bytes :=
  [asterisk, upperHexLetter (checksum.toNat / 16), upperHexLetter (checksum.toNat % 16), 13, 10]

/-- `checksum ^= *q` on a `uint8_t`. -/
def checkSumStep (kind : CharKind) (checksum letter : UInt8) : UInt8 :=
  toChar (checksum.toBitVec.setWidth 32 ^^^ kind.promote letter)

/-- `snprintf` to a position of the buffer: what does not fit before the last
byte is cut, and a terminator follows. -/
def printAt (src : Bytes) (position : Nat) (text : Bytes) : Bytes :=
  let stored := text.take (src.length - position - 1) ++ [0]
  src.take position ++ stored ++ src.drop (position + stored.length)

/-- `GGAFrameGenerate` for the text of its first `snprintf`: the frame and the
return value. -/
def ggaFrameGenerate (kind : CharKind) (text : Bytes) : Bytes × Option Int :=
  let src := printAt (List.replicate 256 0) 0 text
  let checksum := ((src.take (text.length + 1)).drop 1).foldl (checkSumStep kind) 0
  let src := printAt src text.length (checkSumField checksum)
  let ggaOut := src.take (text.length + (checkSumField checksum).length)
  (ggaOut, bccCheckSumCompareForGGA kind ggaOut)

/-! ## Exclusive or in 8 and in 32 bits -/

/-- The letters of a report's body. -/
def BodyLetter (letter : UInt8) : Prop :=
  0 < letter ∧ letter < 128 ∧ letter ≠ asterisk

instance (letter : UInt8) : Decidable (BodyLetter letter) :=
  inferInstanceAs (Decidable (_ ∧ _ ∧ _))

/-- The exclusive or of the letters. -/
def checkSum (body : Bytes) : UInt8 :=
  body.foldl (· ^^^ ·) 0

/-- An eight-bit sum as the loops of the code hold it. -/
def widen (sum : UInt8) : BitVec 32 :=
  sum.toBitVec.setWidth 32

theorem widen_injective {sum sum' : UInt8} (same : widen sum = widen sum') : sum = sum' := by
  have values := congrArg BitVec.toNat same
  have := sum.toNat_lt
  have := sum'.toNat_lt
  simp only [widen, BitVec.toNat_setWidth, UInt8.toNat_toBitVec] at values
  apply UInt8.toNat_inj.mp
  omega

theorem promote_of_small (kind : CharKind) {letter : UInt8} (small : letter < 128) :
    kind.promote letter = widen letter := by
  have positive : letter.toBitVec.msb = false := by
    have bound : letter.toNat < 128 := UInt8.lt_iff_toNat_lt.mp small
    rw [BitVec.msb_eq_false_iff_two_mul_lt]
    simp only [UInt8.toNat_toBitVec]
    omega
  cases kind with
  | signed => exact BitVec.signExtend_eq_setWidth_of_msb_false positive
  | unsigned => rfl

theorem widen_xor (left right : UInt8) : widen (left ^^^ right) = widen left ^^^ widen right := by
  rw [widen, UInt8.toBitVec_xor, BitVec.setWidth_xor]
  rfl

theorem checkSumStep_eq (kind : CharKind) (checksum : UInt8) {letter : UInt8}
    (small : letter < 128) : checkSumStep kind checksum letter = checksum ^^^ letter := by
  have sum : checksum.toBitVec.setWidth 32 ^^^ kind.promote letter =
      widen (checksum ^^^ letter) := by
    rw [promote_of_small kind small, widen_xor]
    rfl
  apply UInt8.toBitVec_inj.mp
  rw [checkSumStep, sum]
  simp [toChar, widen]

theorem foldl_checkSumStep (kind : CharKind) {body : Bytes} (small : ∀ letter ∈ body, letter < 128)
    (checksum : UInt8) :
    body.foldl (checkSumStep kind) checksum = body.foldl (· ^^^ ·) checksum := by
  induction body generalizing checksum with
  | nil => rfl
  | cons letter rest inductionHypothesis =>
      have parts := List.forall_mem_cons.mp small
      rw [List.foldl_cons, List.foldl_cons, checkSumStep_eq kind checksum parts.1]
      exact inductionHypothesis parts.2 (checksum ^^^ letter)

/-- The loop of the test, up to the first asterisk. -/
theorem checkSumLoop_body (kind : CharKind) {body : Bytes}
    (letters : ∀ letter ∈ body, BodyLetter letter) (rest : Bytes) (sum : UInt8) (i : Nat) :
    checkSumLoop kind (widen sum) i (body ++ asterisk :: rest) =
      some (widen (body.foldl (· ^^^ ·) sum), i + body.length) := by
  induction body generalizing sum i with
  | nil => rw [List.nil_append, checkSumLoop, if_pos rfl]; rfl
  | cons letter tail inductionHypothesis =>
      have parts := List.forall_mem_cons.mp letters
      rw [List.cons_append, checkSumLoop, if_neg parts.1.2.2, promote_of_small kind parts.1.2.1,
        ← widen_xor, inductionHypothesis parts.2, List.length_cons, List.foldl_cons]
      congr 2
      omega

theorem foldl_xor (sum : UInt8) (body : Bytes) :
    body.foldl (· ^^^ ·) sum = sum ^^^ checkSum body := by
  induction body generalizing sum with
  | nil => exact (UInt8.xor_zero).symm
  | cons letter rest inductionHypothesis =>
      rw [checkSum, List.foldl_cons, List.foldl_cons, inductionHypothesis,
        inductionHypothesis (0 ^^^ letter), UInt8.zero_xor, UInt8.xor_assoc]

/-- Another letter in one place makes another sum. -/
theorem checkSum_changed {front back : Bytes} {letter other : UInt8} (different : other ≠ letter) :
    checkSum (front ++ other :: back) ≠ checkSum (front ++ letter :: back) := by
  have parts : ∀ middle, checkSum (front ++ middle :: back) =
      checkSum front ^^^ middle ^^^ checkSum back := by
    intro middle
    rw [checkSum, List.foldl_append, List.foldl_cons, foldl_xor]
    rfl
  intro same
  rw [parts, parts, UInt8.xor_left_inj, UInt8.xor_right_inj] at same
  exact different same

/-! ## The printed field -/

/-- No directive of the scan takes a printed digit for anything else. -/
theorem upperHexLetter_spec {digit : Nat} (small : digit < 16) :
    isSpace (upperHexLetter digit) = false ∧ upperHexLetter digit ≠ 0 ∧
      upperHexLetter digit ≠ 43 ∧ upperHexLetter digit ≠ 45 ∧ upperHexLetter digit ≠ 88 ∧
      upperHexLetter digit ≠ 120 ∧ hexDigit (upperHexLetter digit) = some digit := by
  have all : ∀ digit : Fin 16, isSpace (upperHexLetter digit) = false ∧
      upperHexLetter digit ≠ 0 ∧ upperHexLetter digit ≠ 43 ∧ upperHexLetter digit ≠ 45 ∧
      upperHexLetter digit ≠ 88 ∧ upperHexLetter digit ≠ 120 ∧
      hexDigit (upperHexLetter digit) = some digit.val := by
    decide
  exact all ⟨digit, small⟩

/-- The scan reads the sum back that was printed. -/
theorem scanHex_printed (checksum : UInt8) (rest : Bytes) :
    scanHex (upperHexLetter (checksum.toNat / 16) :: upperHexLetter (checksum.toNat % 16) ::
      13 :: rest) = some (widen checksum) := by
  have bound := checksum.toNat_lt
  rcases upperHexLetter_spec (show checksum.toNat / 16 < 16 by omega) with
    ⟨visible, _, noPlus, noMinus, _, _, high⟩
  rcases upperHexLetter_spec (show checksum.toNat % 16 < 16 by omega) with
    ⟨_, _, _, _, noUpper, noLower, low⟩
  generalize upperHexLetter (checksum.toNat / 16) = first at visible noPlus noMinus high
  generalize upperHexLetter (checksum.toNat % 16) = second at noUpper noLower low
  have digits : hexDigits (first :: second :: 13 :: rest) =
      [checksum.toNat / 16, checksum.toNat % 16] := by
    have stop : hexDigit 13 = none := by decide
    simp only [hexDigits, high, low, stop]
  have value : hexValue false [checksum.toNat / 16, checksum.toNat % 16] = widen checksum := by
    have number : (0 * 16 + checksum.toNat / 16) * 16 + checksum.toNat % 16 = checksum.toNat := by
      omega
    rw [hexValue, List.foldl_cons, List.foldl_cons, List.foldl_nil, number]
    rw [if_neg (by omega), if_neg Bool.false_ne_true]
    apply BitVec.eq_of_toNat_eq
    simp [widen]
  have skips : (first :: second :: 13 :: rest).dropWhile isSpace = first :: second :: 13 :: rest := by
    rw [List.dropWhile_cons, visible, if_neg Bool.false_ne_true]
  have unprefixed : ¬ (second = 120 ∨ second = 88) := not_or.mpr ⟨noLower, noUpper⟩
  have minus : (some first == some 45) = false := beq_eq_false_iff_ne.mpr (by simpa using noMinus)
  have plus : (some first == some 43) = false := beq_eq_false_iff_ne.mpr (by simpa using noPlus)
  rw [scanHex, skips]
  simp only [List.head?_cons, minus, plus, Bool.or_self, Bool.false_eq_true, if_false]
  rw [digits]
  split
  · rename_i same
    have mark := (List.cons.inj (List.cons.inj same).2).1
    rw [← mark, if_neg unprefixed, value]
    exact if_neg (List.cons_ne_nil _ _)
  · rw [value]
    exact if_neg (List.cons_ne_nil _ _)

/-! ## Frames -/

/-- The report of a body under a printed sum. -/
def ggaFrame (body : Bytes) (checksum : UInt8) : Bytes :=
  dollar :: (body ++ checkSumField checksum)

theorem scannedNum_frame {body : Bytes} (letters : ∀ letter ∈ body, BodyLetter letter)
    (checksum : UInt8) (rest : Bytes) :
    scannedNum (dollar :: (body ++ asterisk :: upperHexLetter (checksum.toNat / 16) ::
      upperHexLetter (checksum.toNat % 16) :: 13 :: rest)) = widen checksum := by
  have bound := checksum.toNat_lt
  have highNonzero := (upperHexLetter_spec (show checksum.toNat / 16 < 16 by omega)).2.1
  have lowNonzero := (upperHexLetter_spec (show checksum.toNat % 16 < 16 by omega)).2.1
  have start : ∀ letter ∈ dollar :: body, letter ≠ 0 ∧ letter ≠ asterisk := by
    intro letter member
    rcases List.mem_cons.mp member with rfl | inside
    · decide
    · exact ⟨fun zero => absurd (zero ▸ (letters letter inside).1) (by decide),
        (letters letter inside).2.2⟩
  have input : (dollar :: (body ++ asterisk :: upperHexLetter (checksum.toNat / 16) ::
      upperHexLetter (checksum.toNat % 16) :: 13 :: rest)).takeWhile (· ≠ 0) =
      (dollar :: body) ++ asterisk :: upperHexLetter (checksum.toNat / 16) ::
        upperHexLetter (checksum.toNat % 16) :: 13 :: rest.takeWhile (· ≠ 0) := by
    rw [← List.cons_append, List.takeWhile_append_of_pos]
    · simp [asterisk, highNonzero, lowNonzero]
    · intro letter member
      exact decide_eq_true (start letter member).1
  have skipped : ((dollar :: body) ++ asterisk :: upperHexLetter (checksum.toNat / 16) ::
      upperHexLetter (checksum.toNat % 16) :: 13 :: rest.takeWhile (· ≠ 0)).takeWhile
        (· ≠ asterisk) = dollar :: body := by
    rw [List.takeWhile_append_of_pos]
    · rw [List.takeWhile_cons_of_neg (by simp), List.append_nil]
    · intro letter member
      exact decide_eq_true (start letter member).2
  have behind : ((dollar :: body) ++ asterisk :: upperHexLetter (checksum.toNat / 16) ::
      upperHexLetter (checksum.toNat % 16) :: 13 :: rest.takeWhile (· ≠ 0)).drop
        ((dollar :: body).length + 1) = upperHexLetter (checksum.toNat / 16) ::
          upperHexLetter (checksum.toNat % 16) :: 13 :: rest.takeWhile (· ≠ 0) := by
    rw [List.drop_length_add_append]
    rfl
  rw [scannedNum, input, skipped, if_neg (List.cons_ne_nil _ _), behind, scanHex_printed]
  rfl

/-- The test compares the sum over the body with the printed one. -/
theorem compare_frame (kind : CharKind) {body : Bytes}
    (letters : ∀ letter ∈ body, BodyLetter letter) (checksum : UInt8) (rest : Bytes) :
    bccCheckSumCompareForGGA kind (dollar :: (body ++ asterisk ::
        upperHexLetter (checksum.toNat / 16) :: upperHexLetter (checksum.toNat % 16) ::
          13 :: rest)) =
      some ((widen (checkSum body) - widen checksum).toInt) := by
  have scan := checkSumLoop_body kind letters (upperHexLetter (checksum.toNat / 16) ::
    upperHexLetter (checksum.toNat % 16) :: 13 :: (rest ++ [0])) 0 1
  have number := scannedNum_frame letters checksum (rest ++ [0])
  unfold bccCheckSumCompareForGGA checkSumScan
  simp only [List.cons_append, List.append_assoc, List.drop_succ_cons, List.drop_zero] at *
  rw [number]
  change (checkSumLoop kind (widen 0) 1 _).map _ = _
  rw [scan]
  rfl

/-! ## What the generator leaves in its buffer -/

theorem printAt_start {text : Bytes} (short : text.length ≤ 255) :
    printAt (List.replicate 256 0) 0 text = text ++ List.replicate (256 - text.length) 0 := by
  have stored : text.take ((List.replicate 256 (0 : UInt8)).length - 0 - 1) = text :=
    List.take_of_length_le (by rw [List.length_replicate]; omega)
  have zeros : [(0 : UInt8)] ++ (List.replicate 256 0).drop (text.length + 1) =
      List.replicate (256 - text.length) 0 := by
    rw [List.drop_replicate, show 256 - text.length = 256 - (text.length + 1) + 1 by omega,
      List.replicate_succ, List.singleton_append]
  rw [printAt, stored, List.take_zero, List.nil_append, List.length_append, List.length_singleton,
    List.append_assoc, Nat.zero_add, zeros]

/-- The sum that the generator prints; its last summand is a terminator. -/
theorem generated_checkSum (kind : CharKind) {body : Bytes}
    (letters : ∀ letter ∈ body, BodyLetter letter) (short : body.length ≤ 254) :
    ((((dollar :: body) ++ List.replicate (256 - (dollar :: body).length) 0).take
      ((dollar :: body).length + 1)).drop 1).foldl (checkSumStep kind) 0 = checkSum body := by
  have scanned : (((dollar :: body) ++ List.replicate (256 - (dollar :: body).length) 0).take
      ((dollar :: body).length + 1)).drop 1 = body ++ [0] := by
    rw [List.take_length_add_append, List.take_replicate, List.cons_append, List.drop_succ_cons,
      List.drop_zero, List.length_cons, show min 1 (256 - (body.length + 1)) = 1 by omega,
      List.replicate_one]
  have small : ∀ letter ∈ body ++ [0], letter < 128 := by
    intro letter member
    rcases List.mem_append.mp member with inside | last
    · exact (letters letter inside).2.1
    · rw [List.mem_singleton.mp last]
      decide
  rw [scanned, foldl_checkSumStep kind small, List.foldl_append]
  exact UInt8.xor_zero

/-- The frame of the generator.  The last byte of the buffer takes the place
of what comes there, which is the line feed behind a body of 250 letters. -/
theorem ggaFrameGenerate_frame (kind : CharKind) {body : Bytes}
    (letters : ∀ letter ∈ body, BodyLetter letter) (short : body.length ≤ 250) :
    (ggaFrameGenerate kind (dollar :: body)).1 = dollar :: (body ++ asterisk ::
      upperHexLetter ((checkSum body).toNat / 16) :: upperHexLetter ((checkSum body).toNat % 16) ::
        13 :: [if body.length ≤ 249 then 10 else 0]) := by
  have length : ((dollar :: body) ++
      List.replicate (256 - (dollar :: body).length) (0 : UInt8)).length = 256 := by
    rw [List.length_append, List.length_replicate, List.length_cons]
    omega
  unfold ggaFrameGenerate
  rw [printAt_start (by rw [List.length_cons]; omega)]
  dsimp only
  rw [generated_checkSum kind letters (by omega), printAt, length, List.take_left,
    List.append_assoc, List.take_length_add_append]
  by_cases whole : body.length ≤ 249
  · have field : (checkSumField (checkSum body)).take (256 - (dollar :: body).length - 1) =
        checkSumField (checkSum body) := by
      apply List.take_of_length_le
      rw [List.length_cons]
      change 5 ≤ _
      omega
    rw [field, List.append_assoc, List.take_left, if_pos whole]
    rfl
  · have room : 256 - (dollar :: body).length - 1 = 4 := by
      rw [List.length_cons]
      omega
    rw [room, if_neg whole]
    rfl

/-- The frame of a body and the frame that the generator makes of it. -/
def IsFrameOf (kind : CharKind) (body frame : Bytes) : Prop :=
  frame = ggaFrame body (checkSum body) ∨ frame = (ggaFrameGenerate kind (dollar :: body)).1

theorem IsFrameOf.shape {kind : CharKind} {body frame : Bytes} (made : IsFrameOf kind body frame)
    (letters : ∀ letter ∈ body, BodyLetter letter) (short : body.length ≤ 250) :
    ∃ rest, frame = dollar :: (body ++ asterisk ::
      upperHexLetter ((checkSum body).toNat / 16) :: upperHexLetter ((checkSum body).toNat % 16) ::
        13 :: rest) := by
  unfold IsFrameOf at made
  rcases made with whole | generated
  · exact ⟨[10], whole⟩
  · rw [ggaFrameGenerate_frame kind letters short] at generated
    exact ⟨_, generated⟩

/-- The generator's own test passes, its frame is the frame of the body as far
as the buffer reaches, and a frame with one other letter never passes. -/
theorem ggaFrame_agrees (kind : CharKind) (body : Bytes)
    (letters : ∀ letter ∈ body, BodyLetter letter) (short : body.length ≤ 250) :
    (body.length ≤ 249 →
      (ggaFrameGenerate kind (dollar :: body)).1 = ggaFrame body (checkSum body)) ∧
    (ggaFrameGenerate kind (dollar :: body)).2 = some 0 ∧
    ∀ frame, IsFrameOf kind body frame →
      bccCheckSumCompareForGGA kind frame = some 0 ∧
      ∀ i (inside : i < body.length) other, BodyLetter other → other ≠ body[i] →
        ∃ result, bccCheckSumCompareForGGA kind (frame.set (i + 1) other) = some result ∧
          result ≠ 0 := by
  have passes : ∀ frame, IsFrameOf kind body frame →
      bccCheckSumCompareForGGA kind frame = some 0 := by
    intro frame made
    rcases made.shape letters short with ⟨rest, rfl⟩
    rw [compare_frame kind letters, BitVec.sub_self]
    rfl
  have tested : (ggaFrameGenerate kind (dollar :: body)).2 =
      bccCheckSumCompareForGGA kind (ggaFrameGenerate kind (dollar :: body)).1 := by
    rw [ggaFrameGenerate]
  refine ⟨?_, ?_, ?_⟩
  · intro whole
    rw [ggaFrameGenerate_frame kind letters short, if_pos whole]
    rfl
  · rw [tested]
    exact passes _ (Or.inr rfl)
  · intro frame made
    refine ⟨passes frame made, ?_⟩
    intro i inside other allowed different
    rcases made.shape letters short with ⟨rest, rfl⟩
    have changed : checkSum (body.set i other) ≠ checkSum body := by
      have before : body = body.take i ++ body[i] :: body.drop (i + 1) := by
        rw [List.getElem_cons_drop, List.take_append_drop]
      rw [List.set_eq_take_append_cons_drop, if_pos inside]
      intro same
      exact checkSum_changed different (same.trans (congrArg checkSum before))
    have letters' : ∀ letter ∈ body.set i other, BodyLetter letter := by
      intro letter member
      rcases List.mem_or_eq_of_mem_set member with old | new
      · exact letters letter old
      · exact new ▸ allowed
    refine ⟨(widen (checkSum (body.set i other)) - widen (checkSum body)).toInt, ?_, ?_⟩
    · rw [List.set_cons_succ, List.set_append_left _ _ inside]
      exact compare_frame kind letters' (checkSum body) rest
    · intro zero
      apply changed
      apply widen_injective
      rw [← BitVec.toInt_zero] at zero
      exact (BitVec.sub_eq_iff_eq_add.mp (BitVec.toInt_inj.mp zero)).trans (BitVec.zero_add _)

/-- A frame of three letters, and what becomes of it. -/
theorem ggaFrame_agrees_threeLetters :
    (∀ letter ∈ ascii "A,N", BodyLetter letter) ∧
    (ggaFrameGenerate .signed (dollar :: ascii "A,N")).2 = some 0 ∧
    ∃ result, bccCheckSumCompareForGGA .signed
        ((ggaFrame (ascii "A,N") (checkSum (ascii "A,N"))).set 3 83) = some result ∧
      result ≠ 0 := by
  have letters : ∀ letter ∈ ascii "A,N", BodyLetter letter := by decide +kernel
  rcases ggaFrame_agrees .signed (ascii "A,N") letters (by decide) with
    ⟨_, passes, changed⟩
  exact ⟨letters, passes, (changed _ (Or.inl rfl)).2 2 (by decide) 83 (by decide) (by decide)⟩

end Ntrip
