import Ntrip.Foundation.Decimals
import Ntrip.Util.Coordinates
import Ntrip.Util.GgaFrame
import Ntrip.Caster.Forwarding
import Ntrip.Peers.Recognition

namespace Ntrip

/-!
# The position report as a text

The first `snprintf` of `GGAFrameGenerate` in exact arithmetic, and a reader
of its fields.  Coordinates are printed with seven places of a minute, so a
report that is read back is at most half of the last place away, wherever the
conversion to degrees and minutes is right.
-/

open Decimals Sequence

/-! ## Numbers as texts -/

def zeroDigit : UInt8 := 48
def comma : UInt8 := 44
def dot : UInt8 := 46

/-- The flag `0` with a width. -/
def zeroPadded (width : Nat) (text : Bytes) : Bytes :=
  List.replicate (width - text.length) zeroDigit ++ text

/-- `%.0f` and `%.pf` of a value that is not negative. -/
def fixedText (places : Nat) (value : ℚ) : Bytes :=
  let scaled := nearestEven (value * 10 ^ places)
  if places = 0 then digitText scaled
  else digitText (scaled / 10 ^ places) ++
    dot :: zeroPadded places (digitText (scaled % 10 ^ places))

/-- The number that digits stand for. -/
def readDigits (text : Bytes) : Nat :=
  text.foldl (fun number letter => 10 * number + (letter.toNat - 48)) 0

/-- The number that digits and a decimal fraction stand for. -/
def readNumber (text : Bytes) : ℚ :=
  let whole := text.takeWhile (· ≠ dot)
  let places := text.drop (whole.length + 1)
  readDigits whole + readDigits places / 10 ^ places.length

theorem readDigits_digitText (number : Nat) : readDigits (digitText number) = number := by
  have same : ∀ (first : Nat) (letter : Char), letter ∈ Nat.toDigits 10 number →
      10 * first + (letter.toNat.toUInt8.toNat - 48) =
        10 * first + (letter.toNat - '0'.toNat) := by
    intro first letter member
    have digit := Nat.isDigit_of_mem_toDigits (by decide) (by decide) member
    simp only [Char.isDigit, Bool.and_eq_true, decide_eq_true_eq] at digit
    have small : letter.toNat ≤ 57 := digit.2
    have byte : letter.toNat.toUInt8.toNat = letter.toNat := by
      rw [Nat.toUInt8, UInt8.toNat_ofNat']
      omega
    rw [byte]
    rfl
  calc readDigits (digitText number)
      = (Nat.toDigits 10 number).foldl
          (fun first letter => 10 * first + (letter.toNat.toUInt8.toNat - 48)) 0 := List.foldl_map
    _ = Nat.ofDigitChars 10 (Nat.toDigits 10 number) 0 := List.foldl_ext _ _ 0 same
    _ = number := Nat.ofDigitChars_ten_toDigits

theorem readDigits_zeros (count : Nat) (text : Bytes) :
    readDigits (List.replicate count zeroDigit ++ text) = readDigits text := by
  induction count with
  | zero => rfl
  | succ count inductionHypothesis => exact inductionHypothesis

theorem mem_zeroPadded {width : Nat} {text : Bytes} {letter : UInt8}
    (member : letter ∈ zeroPadded width text) : letter = zeroDigit ∨ letter ∈ text := by
  rcases List.mem_append.mp member with zero | inText
  · exact Or.inl (List.eq_of_mem_replicate zero)
  · exact Or.inr inText

theorem length_zeroPadded (width : Nat) (text : Bytes) :
    (zeroPadded width text).length = max width text.length := by
  rw [zeroPadded, List.length_append, List.length_replicate]
  omega

theorem length_digitText_le_iff {number places : Nat} (positive : 0 < places) :
    (digitText number).length ≤ places ↔ number < 10 ^ places := by
  rw [digitText, List.length_map]
  exact Nat.length_toDigits_le_iff (by decide) positive

/-- The letters of a number. -/
theorem mem_fixedText {places : Nat} {value : ℚ} {letter : UInt8}
    (member : letter ∈ fixedText places value) : letter ∈ ascii "0123456789." := by
  have digit : ∀ number, letter ∈ digitText number → letter ∈ ascii "0123456789." :=
    fun number inDigits => List.mem_append_left (ascii ".") (mem_digitText inDigits)
  unfold fixedText at member
  split at member
  · exact digit _ member
  · rcases List.mem_append.mp member with whole | rest
    · exact digit _ whole
    · rcases List.mem_cons.mp rest with rfl | part
      · decide
      · rcases mem_zeroPadded part with rfl | inDigits
        · decide
        · exact digit _ inDigits

theorem readNumber_append {whole : Bytes} (fresh : dot ∉ whole) (places : Bytes) :
    readNumber (whole ++ dot :: places) =
      readDigits whole + readDigits places / 10 ^ places.length := by
  have before : (whole ++ dot :: places).takeWhile (· ≠ dot) = whole := by
    have others : ∀ letter ∈ whole, (letter ≠ dot : Bool) = true := by
      intro letter member
      exact decide_eq_true fun same => fresh (same ▸ member)
    rw [List.takeWhile_append_of_pos others]
    simp
  have behind : (whole ++ dot :: places).drop (whole.length + 1) = places := by
    rw [List.drop_length_add_append]
    rfl
  simp only [readNumber, before, behind]

theorem dot_notMem_digitText (number : Nat) : dot ∉ digitText number :=
  fun member => absurd (mem_digitText member) (by decide)

/-- A number that is read back is the rounded one. -/
theorem readNumber_fixedText (width : Nat) {places : Nat} (positive : 0 < places) (value : ℚ) :
    readNumber (zeroPadded width (fixedText places value)) =
      nearestEven (value * 10 ^ places) / 10 ^ places := by
  have length : (zeroPadded places (digitText (nearestEven (value * 10 ^ places) %
      10 ^ places))).length = places := by
    have short := (length_digitText_le_iff positive).mpr
      (Nat.mod_lt (nearestEven (value * 10 ^ places)) (Nat.pow_pos (by decide)))
    rw [length_zeroPadded]
    exact Nat.max_eq_left short
  unfold fixedText
  generalize nearestEven (value * 10 ^ places) = scaled at length ⊢
  rw [if_neg (Nat.ne_of_gt positive), zeroPadded, ← List.append_assoc, readNumber_append]
  · rw [readDigits_zeros, readDigits_digitText, length]
    conv_lhs => rw [zeroPadded, readDigits_zeros, readDigits_digitText]
    have parts : ((scaled / 10 ^ places : ℕ) : ℚ) * 10 ^ places + (scaled % 10 ^ places : ℕ) =
        scaled := by
      exact_mod_cast Nat.div_add_mod' scaled (10 ^ places)
    rw [eq_div_iff (by positivity), add_mul, div_mul_cancel₀ _ (by positivity), parts]
  · rw [List.mem_append, not_or]
    refine ⟨fun member => ?_, dot_notMem_digitText _⟩
    exact absurd (List.eq_of_mem_replicate member) (by decide)

theorem length_fixedText_le {places digits bound : Nat} (positive : 0 < digits) {value : ℚ}
    (nonneg : 0 ≤ value) (small : value ≤ bound) (fits : bound < 10 ^ digits) :
    (fixedText places value).length ≤ digits + 1 + places := by
  have power : (0 : ℚ) < 10 ^ places := by positivity
  have scaled : nearestEven (value * 10 ^ places) ≤ bound * 10 ^ places := by
    apply nearestEven_le (by positivity)
    push_cast
    exact mul_le_mul_of_nonneg_right small power.le
  have whole : nearestEven (value * 10 ^ places) / 10 ^ places < 10 ^ digits :=
    Nat.lt_of_le_of_lt (Nat.div_le_of_le_mul (by rw [Nat.mul_comm]; exact scaled)) fits
  unfold fixedText
  split
  · rename_i none
    subst none
    rw [Nat.pow_zero, Nat.div_one] at whole
    exact Nat.le_add_right_of_le (Nat.le_add_right_of_le
      ((length_digitText_le_iff positive).mpr whole))
  · rename_i some
    have wholeShort := (length_digitText_le_iff positive).mpr whole
    have partShort := (length_digitText_le_iff (Nat.pos_of_ne_zero some)).mpr
      (Nat.mod_lt (nearestEven (value * 10 ^ places)) (Nat.pow_pos (by decide)))
    rw [List.length_append, List.length_cons, length_zeroPadded, Nat.max_eq_left partShort]
    omega

/-! ## The text -/

/-- What the generator takes from `struct tm`; a leap second is 60. -/
structure LocalTime where
  hour : Nat
  minute : Nat
  second : Nat
  hour_lt : hour < 24
  minute_lt : minute < 60
  second_le : second ≤ 60

/-- `%.4f`. -/
def altitudeText (altitude : ℚ) : Bytes :=
  (if altitude < 0 then ascii "-" else []) ++ fixedText 4 |altitude|

def timeText (time : LocalTime) : Bytes :=
  zeroPadded 2 (fixedText 0 time.hour) ++ zeroPadded 2 (fixedText 0 time.minute) ++
    zeroPadded 5 (fixedText 2 time.second)

def latitudeText (latitude : ℚ) : Bytes :=
  zeroPadded 12 (fixedText 7 (coordinateField latitude))

def longitudeText (longitude : ℚ) : Bytes :=
  zeroPadded 13 (fixedText 7 (coordinateField longitude))

/-- What the first `snprintf` of `GGAFrameGenerate` formats behind the dollar
sign. -/
def ggaBody (time : LocalTime) (latitude longitude altitude : ℚ) : Bytes :=
  ascii "GPGGA," ++ timeText time ++ ascii "," ++ latitudeText latitude ++ ascii "," ++
    (if 0 < latitude then ascii "N" else ascii "S") ++ ascii "," ++ longitudeText longitude ++
    ascii "," ++ (if 0 < longitude then ascii "E" else ascii "W") ++ ascii ",1,30,1.2," ++
    altitudeText altitude ++ ascii ",M,-2.860,M,,0000"

/-- `GGAFrameGenerate`: the frame and the return value. -/
def ggaReport (kind : CharKind) (time : LocalTime) (latitude longitude altitude : ℚ) :
    Bytes × Option Int :=
  ggaFrameGenerate kind (dollar :: ggaBody time latitude longitude altitude)

/-! ## A reader of reports -/

/-- Degrees and minutes as degrees. -/
def readDegrees (value : ℚ) : ℚ :=
  ⌊value / 100⌋ + (value - 100 * ⌊value / 100⌋) / 60

/-- The position that the fields of a report state, north and east positive. -/
def readPosition (frame : Bytes) : Option (ℚ × ℚ) :=
  match frame.splitOn comma with
  | _ :: _ :: latitude :: northSouth :: longitude :: eastWest :: _ =>
      some ((if northSouth = ascii "N" then 1 else -1) * readDegrees (readNumber latitude),
        (if eastWest = ascii "E" then 1 else -1) * readDegrees (readNumber longitude))
  | _ => none

/-! ## Coordinates -/

theorem coordinateField_nonneg (degree : ℚ) : 0 ≤ coordinateField degree :=
  mul_nonneg (abs_nonneg _) (by norm_num)

/-- Where the conversion is right. -/
def ConvertsRight (degree : ℚ) : Prop :=
  0 ≤ degree ∨ (⌊degree⌋ : ℚ) = degree

theorem ConvertsRight.field {degree : ℚ} (right : ConvertsRight degree) :
    coordinateField degree = degreesAndMinutes |degree| :=
  right.elim coordinateField_of_nonneg coordinateField_of_whole

/-- Degrees and minutes rounded to seven places are read back with an error of
at most half of the last place of a minute. -/
theorem readDegrees_rounded {magnitude : ℚ} (nonneg : 0 ≤ magnitude) :
    |readDegrees (nearestEven (degreesAndMinutes magnitude * 10 ^ 7) / 10 ^ 7) - magnitude| ≤
      1 / 1200000000 := by
  rcases Int.eq_ofNat_of_zero_le (Int.floor_nonneg.mpr nonneg) with ⟨degrees, whole⟩
  have lower : (degrees : ℚ) ≤ magnitude := by
    have below := Int.floor_le magnitude
    rwa [whole] at below
  have upper : magnitude < degrees + 1 := by
    have above := Int.lt_floor_add_one magnitude
    rwa [whole] at above
  have value : degreesAndMinutes magnitude = 100 * degrees + 60 * (magnitude - degrees) := by
    rw [degreesAndMinutes, whole]
    rfl
  generalize degreesAndMinutes magnitude = exact at value ⊢
  have positive : 0 ≤ exact * 10 ^ 7 := by
    have : (0 : ℚ) ≤ degrees := Nat.cast_nonneg degrees
    linarith
  have close := abs_le.mp (abs_nearestEven_sub_le positive)
  have from_degrees : 100 * degrees * 10 ^ 7 ≤ nearestEven (exact * 10 ^ 7) := by
    apply le_nearestEven
    push_cast
    linarith
  have to_minutes : nearestEven (exact * 10 ^ 7) ≤ (100 * degrees + 60) * 10 ^ 7 := by
    apply nearestEven_le positive
    push_cast
    linarith
  generalize nearestEven (exact * 10 ^ 7) = scaled at close from_degrees to_minutes ⊢
  have low : (100 * degrees * 10 ^ 7 : ℚ) ≤ scaled := by exact_mod_cast from_degrees
  have high : (scaled : ℚ) ≤ (100 * degrees + 60) * 10 ^ 7 := by exact_mod_cast to_minutes
  have floor : ⌊(scaled : ℚ) / 10 ^ 7 / 100⌋ = degrees := by
    apply Int.floor_eq_iff.mpr
    push_cast
    constructor
    · linarith
    · linarith
  rw [readDegrees, floor, abs_le]
  push_cast
  constructor
  · linarith
  · linarith

theorem coordinateField_le {degree : ℚ} (bound : |degree| ≤ 180) :
    coordinateField degree ≤ 18100 := by
  have range := abs_le.mp bound
  have lower : (⌊degree⌋ : ℚ) ≤ degree := Int.floor_le degree
  have upper : degree < ⌊degree⌋ + 1 := Int.lt_floor_add_one degree
  have magnitude : |degreeConvertToDDMM degree| ≤ 181 := by
    rw [degreeConvertToDDMM_eq, abs_le]
    constructor
    · linarith
    · linarith
  rw [coordinateField]
  linarith

/-! ## What the generator makes of the text -/

/-- The letters of a report in front of its checksum. -/
def reportAlphabet : Bytes := ascii "0123456789.-,GPANSEWM"

theorem zeroPadded_subset (width places : Nat) (value : ℚ) :
    zeroPadded width (fixedText places value) ⊆ reportAlphabet := by
  have digits : ascii "0123456789." ⊆ reportAlphabet := by decide
  intro letter member
  rcases mem_zeroPadded member with rfl | inText
  · decide
  · exact digits (mem_fixedText inText)

theorem ggaBody_subset (time : LocalTime) (latitude longitude altitude : ℚ) :
    ggaBody time latitude longitude altitude ⊆ reportAlphabet := by
  have altitude_subset : altitudeText altitude ⊆ reportAlphabet := by
    refine List.append_subset.mpr ⟨by split <;> decide, ?_⟩
    exact fun letter member => zeroPadded_subset 0 4 |altitude| (List.mem_append_right _ member)
  have time_subset : timeText time ⊆ reportAlphabet :=
    List.append_subset.mpr ⟨List.append_subset.mpr ⟨zeroPadded_subset _ _ _,
      zeroPadded_subset _ _ _⟩, zeroPadded_subset _ _ _⟩
  have start : ascii "GPGGA," ⊆ reportAlphabet := by decide
  have sep : ascii "," ⊆ reportAlphabet := by decide
  have northSouth : (if 0 < latitude then ascii "N" else ascii "S") ⊆ reportAlphabet := by
    split <;> decide
  have eastWest : (if 0 < longitude then ascii "E" else ascii "W") ⊆ reportAlphabet := by
    split <;> decide
  have middle : ascii ",1,30,1.2," ⊆ reportAlphabet := by decide
  have ending : ascii ",M,-2.860,M,,0000" ⊆ reportAlphabet := by decide
  simp only [ggaBody, List.append_subset]
  exact ⟨⟨⟨⟨⟨⟨⟨⟨⟨⟨⟨⟨start, time_subset⟩, sep⟩, zeroPadded_subset _ _ _⟩, sep⟩, northSouth⟩, sep⟩,
    zeroPadded_subset _ _ _⟩, sep⟩, eastWest⟩, middle⟩, altitude_subset⟩, ending⟩

theorem length_zeroPadded_le {width places digits bound limit : Nat} {value : ℚ}
    (positive : 0 < digits) (nonneg : 0 ≤ value) (small : value ≤ bound)
    (fits : bound < 10 ^ digits) (wide : width ≤ limit) (room : digits + 1 + places ≤ limit) :
    (zeroPadded width (fixedText places value)).length ≤ limit := by
  have text : (fixedText places value).length ≤ digits + 1 + places :=
    length_fixedText_le positive nonneg small fits
  rw [length_zeroPadded]
  omega

theorem ggaBody_length_le (time : LocalTime) {latitude longitude altitude : ℚ}
    (latitudeBound : |latitude| ≤ 180) (longitudeBound : |longitude| ≤ 180)
    (altitudeBound : |altitude| ≤ 10 ^ 9) :
    (ggaBody time latitude longitude altitude).length ≤ 249 := by
  have := time.hour_lt
  have := time.minute_lt
  have := time.second_le
  have hours : (zeroPadded 2 (fixedText 0 (time.hour : ℚ))).length ≤ 10 :=
    length_zeroPadded_le (show 0 < 2 by omega) (Nat.cast_nonneg _) le_rfl (by omega) (by omega)
      (by omega)
  have minutes : (zeroPadded 2 (fixedText 0 (time.minute : ℚ))).length ≤ 10 :=
    length_zeroPadded_le (show 0 < 2 by omega) (Nat.cast_nonneg _) le_rfl (by omega) (by omega)
      (by omega)
  have seconds : (zeroPadded 5 (fixedText 2 (time.second : ℚ))).length ≤ 10 :=
    length_zeroPadded_le (show 0 < 2 by omega) (Nat.cast_nonneg _) le_rfl (by omega) (by omega)
      (by omega)
  have latitudes : (latitudeText latitude).length ≤ 13 :=
    length_zeroPadded_le (show 0 < 5 by omega) (coordinateField_nonneg _)
      (show _ ≤ ((18100 : ℕ) : ℚ) from coordinateField_le latitudeBound) (by omega) (by omega)
      (by omega)
  have longitudes : (longitudeText longitude).length ≤ 13 :=
    length_zeroPadded_le (show 0 < 5 by omega) (coordinateField_nonneg _)
      (show _ ≤ ((18100 : ℕ) : ℚ) from coordinateField_le longitudeBound) (by omega) (by omega)
      (by omega)
  have altitudes : (fixedText 4 |altitude|).length ≤ 15 :=
    length_fixedText_le (show 0 < 10 by omega) (abs_nonneg _)
      (show _ ≤ ((10 ^ 9 : ℕ) : ℚ) by exact_mod_cast altitudeBound) (by omega)
  have sign : (if altitude < 0 then ascii "-" else []).length ≤ 1 := by split <;> decide
  have northSouth : (if 0 < latitude then ascii "N" else ascii "S").length = 1 := by
    split <;> decide
  have eastWest : (if 0 < longitude then ascii "E" else ascii "W").length = 1 := by
    split <;> decide
  have start : (ascii "GPGGA,").length = 6 := by decide
  have sep : (ascii ",").length = 1 := by decide
  have middle : (ascii ",1,30,1.2,").length = 10 := by decide
  have ending : (ascii ",M,-2.860,M,,0000").length = 17 := by decide
  simp only [ggaBody, timeText, altitudeText, List.length_append, northSouth, eastWest, start, sep,
    middle, ending]
  omega

/-- The frame of the report. -/
theorem ggaReport_eq (kind : CharKind) (time : LocalTime) {latitude longitude altitude : ℚ}
    (latitudeBound : |latitude| ≤ 180) (longitudeBound : |longitude| ≤ 180)
    (altitudeBound : |altitude| ≤ 10 ^ 9) :
    ggaReport kind time latitude longitude altitude =
      (ggaFrame (ggaBody time latitude longitude altitude)
        (checkSum (ggaBody time latitude longitude altitude)), some 0) := by
  have letters : ∀ letter ∈ ggaBody time latitude longitude altitude, BodyLetter letter := by
    have all : ∀ letter ∈ reportAlphabet, BodyLetter letter := by decide +kernel
    intro letter member
    exact all letter (ggaBody_subset time latitude longitude altitude member)
  have short := ggaBody_length_le time latitudeBound longitudeBound altitudeBound
  rw [ggaReport]
  generalize ggaBody time latitude longitude altitude = body at letters short ⊢
  have frame : (ggaFrameGenerate kind (dollar :: body)).1 = ggaFrame body (checkSum body) := by
    rw [ggaFrameGenerate_frame kind letters (Nat.le_succ_of_le short), if_pos short]
    rfl
  have tested : (ggaFrameGenerate kind (dollar :: body)).2 =
      bccCheckSumCompareForGGA kind (ggaFrameGenerate kind (dollar :: body)).1 := by
    rw [ggaFrameGenerate]
  refine Prod.ext frame ?_
  have passes := compare_frame kind letters (checkSum body) [10]
  rw [BitVec.sub_self] at passes
  rw [tested, frame]
  exact passes

/-- The fields of the frame. -/
theorem readPosition_ggaFrame (time : LocalTime) (latitude longitude altitude : ℚ)
    (checksum : UInt8) :
    readPosition (ggaFrame (ggaBody time latitude longitude altitude) checksum) =
      some ((if 0 < latitude then 1 else -1) * readDegrees (readNumber (latitudeText latitude)),
        (if 0 < longitude then 1 else -1) * readDegrees (readNumber (longitudeText longitude))) := by
  have fresh : ∀ width places (value : ℚ), comma ∉ zeroPadded width (fixedText places value) := by
    intro width places value member
    rcases mem_zeroPadded member with same | inText
    · exact absurd same (by decide)
    · exact absurd (mem_fixedText inText) (by decide)
  have freshTime : comma ∉ timeText time := by
    simp only [timeText, List.mem_append, not_or]
    exact ⟨⟨fresh _ _ _, fresh _ _ _⟩, fresh _ _ _⟩
  have letter : ∀ north : Prop, ∀ [Decidable north], ∀ first second : Bytes, comma ∉ first →
      comma ∉ second → comma ∉ (if north then first else second) := by
    intro north _ first second absent absent'
    split
    · exact absent
    · exact absent'
  have start : ascii "GPGGA," = ascii "GPGGA" ++ [comma] := by decide
  have sep : ascii "," = [comma] := by decide
  have middle : ascii ",1,30,1.2," = comma :: ascii "1,30,1.2," := by decide
  have shape : ∃ rest, ggaFrame (ggaBody time latitude longitude altitude) checksum =
      (dollar :: ascii "GPGGA") ++ comma :: (timeText time ++ comma :: (latitudeText latitude ++
        comma :: ((if 0 < latitude then ascii "N" else ascii "S") ++
          comma :: (longitudeText longitude ++
            comma :: ((if 0 < longitude then ascii "E" else ascii "W") ++ comma :: rest))))) := by
    refine ⟨ascii "1,30,1.2," ++ altitudeText altitude ++ ascii ",M,-2.860,M,,0000" ++
      checkSumField checksum, ?_⟩
    rw [ggaFrame, ggaBody, start, sep, middle]
    simp only [List.append_assoc, List.cons_append, List.nil_append]
  rcases shape with ⟨rest, shape⟩
  have freshLatitude : comma ∉ latitudeText latitude := fresh _ _ _
  have freshLongitude : comma ∉ longitudeText longitude := fresh _ _ _
  have north : (if 0 < latitude then ascii "N" else ascii "S") = ascii "N" ↔ 0 < latitude :=
    Ne.ite_eq_left_iff (by decide)
  have east : (if 0 < longitude then ascii "E" else ascii "W") = ascii "E" ↔ 0 < longitude :=
    Ne.ite_eq_left_iff (by decide)
  rw [readPosition, shape, List.splitOn_append_cons_self_of_not_mem (by decide),
    List.splitOn_append_cons_self_of_not_mem freshTime,
    List.splitOn_append_cons_self_of_not_mem freshLatitude,
    List.splitOn_append_cons_self_of_not_mem (letter _ _ _ (by decide) (by decide)),
    List.splitOn_append_cons_self_of_not_mem freshLongitude,
    List.splitOn_append_cons_self_of_not_mem (letter _ _ _ (by decide) (by decide))]
  simp only [north, east]

/-! ## The report and the caster -/

theorem slash_notMem_checkSumField (checksum : UInt8) : slash ∉ checkSumField checksum := by
  have hex : ∀ digit : Fin 16, upperHexLetter digit ≠ slash := by decide
  have bound := checksum.toNat_lt
  have high := hex ⟨checksum.toNat / 16, by omega⟩
  have low := hex ⟨checksum.toNat % 16, by omega⟩
  intro member
  simp only [checkSumField, List.mem_cons, List.not_mem_nil, or_false] at member
  rcases member with same | same | same | same | same
  · exact absurd same (by decide)
  · exact high same.symm
  · exact low same.symm
  · exact absurd same (by decide)
  · exact absurd same (by decide)

/-- What the caster takes for a position report: it has the marker and does not
look like a request, and the scan for its checksum stays inside it. -/
structure IsReport (kind : CharKind) (text : Bytes) : Prop where
  marked : mentionsGga text = true
  plain : ¬ LooksLikeRequest text
  scanned : ScanInside kind text

theorem IsReport.nonempty {kind : CharKind} {text : Bytes} (report : IsReport kind text) :
    text ≠ [] := by
  rintro rfl
  exact absurd report.marked (by decide)

/-- A report's sender stays connected, and nothing is sent or changed. -/
theorem IsReport.parseData_eq {kind : CharKind} {text : Bytes} (report : IsReport kind text)
    {caster : NtripCaster} {fd : Fd} (unserved : servedRecord caster.mountPointInfos fd = none)
    (outcomes : SendOutcomes) : parseData caster outcomes fd text = ⟨0, caster, []⟩ := by
  simp [parseData, (dispatch_eq_data_iff _).mpr report.plain, tryToForwardServerData, unserved,
    report.marked]

/-- What is generated is a report. -/
theorem isReport_ggaFrame (kind : CharKind) (time : LocalTime) (latitude longitude altitude : ℚ)
    (checksum : UInt8) :
    IsReport kind (ggaFrame (ggaBody time latitude longitude altitude) checksum) where
  marked := by
    have start : ascii "$GPGGA," = dollar :: ascii "GPGGA," := by decide
    rw [mentionsGga, Bool.or_eq_true]
    refine Or.inl ((mentions_iff _ _).mpr (List.IsPrefix.isInfix ?_))
    rw [start, ggaFrame, ggaBody]
    simp only [List.append_assoc]
    exact (List.prefix_cons_inj dollar).mpr (List.prefix_append _ _)
  plain := by
    have noSlash : slash ∉ ggaFrame (ggaBody time latitude longitude altitude) checksum := by
      intro member
      rcases List.mem_cons.mp member with sign | behind
      · exact absurd sign (by decide)
      · rcases List.mem_append.mp behind with inBody | inField
        · exact absurd (ggaBody_subset time latitude longitude altitude inBody) (by decide)
        · exact slash_notMem_checkSumField checksum inField
    rintro (get | post)
    · exact not_infix_of_notMem (show slash ∈ ascii "GET /" by decide) noSlash get
    · exact not_infix_of_notMem (show slash ∈ ascii "POST /" by decide) noSlash post
  scanned := by
    apply scanInside_of_mem
    rw [ggaFrame, List.cons_append, List.drop_succ_cons, List.drop_zero]
    exact List.mem_append_left [0] (List.mem_append_right _ List.mem_cons_self)

theorem readPosition_close {degree : ℚ} (right : ConvertsRight degree) (width : Nat) :
    |(if 0 < degree then 1 else -1) *
        readDegrees (readNumber (zeroPadded width (fixedText 7 (coordinateField degree)))) -
      degree| ≤ 1 / 1200000000 := by
  have close := readDegrees_rounded (abs_nonneg degree)
  rw [readNumber_fixedText width (by decide), right.field]
  split
  · rename_i positive
    rw [abs_of_pos positive] at close ⊢
    rw [one_mul]
    exact close
  · rename_i other
    have magnitude := abs_of_nonpos (not_lt.mp other)
    rw [magnitude] at close ⊢
    rw [neg_one_mul, neg_sub_left, abs_neg]
    rwa [sub_neg_eq_add, add_comm] at close

/-- For every local time and every position that the conversion treats right,
the generator accepts its own report, a reader finds the position in it to
within half of the last printed place of a minute, and the caster takes it
from a connection that serves no mount point without dropping the connection,
sending or changing anything. -/
theorem position_report_round_trip (kind : CharKind) (time : LocalTime)
    {latitude longitude altitude : ℚ} (latitudeBound : |latitude| ≤ 180)
    (longitudeBound : |longitude| ≤ 180) (altitudeBound : |altitude| ≤ 10 ^ 9)
    (latitudeRight : ConvertsRight latitude) (longitudeRight : ConvertsRight longitude) :
    (ggaReport kind time latitude longitude altitude).2 = some 0 ∧
    (∃ latitude' longitude',
      readPosition (ggaReport kind time latitude longitude altitude).1 =
        some (latitude', longitude') ∧
      |latitude' - latitude| ≤ 1 / 1200000000 ∧ |longitude' - longitude| ≤ 1 / 1200000000) ∧
    ∀ (caster : NtripCaster) (fd : Fd) (outcomes : SendOutcomes),
      servedRecord caster.mountPointInfos fd = none →
        parseData caster outcomes fd (ggaReport kind time latitude longitude altitude).1 =
          ⟨0, caster, []⟩ := by
  rw [ggaReport_eq kind time latitudeBound longitudeBound altitudeBound]
  refine ⟨rfl, ⟨_, _, readPosition_ggaFrame time latitude longitude altitude _, ?_, ?_⟩, ?_⟩
  · exact readPosition_close latitudeRight 12
  · exact readPosition_close longitudeRight 13
  · intro caster fd outcomes unserved
    exact (isReport_ggaFrame kind time latitude longitude altitude _).parseData_eq unserved
      outcomes

def noon : LocalTime where
  hour := 12
  minute := 0
  second := 0
  hour_lt := by decide
  minute_lt := by decide
  second_le := by decide

example : ggaBody noon (401 / 10) (1163 / 10) 10 =
    ascii "GPGGA,120000.00,4006.0000000,N,11618.0000000,E,1,30,1.2,10.0000,M,-2.860,M,,0000" := by
  decide +kernel

theorem position_report_round_trip_noon :
    ∃ latitude' longitude',
      readPosition (ggaReport .signed noon (401 / 10) (1163 / 10) 10).1 =
        some (latitude', longitude') ∧
      |latitude' - 401 / 10| ≤ 1 / 1200000000 ∧ |longitude' - 1163 / 10| ≤ 1 / 1200000000 :=
  (position_report_round_trip .signed noon (by norm_num [abs_le]) (by norm_num [abs_le])
    (by norm_num [abs_le]) (Or.inl (by norm_num)) (Or.inl (by norm_num))).2.1

end Ntrip
