import Mathlib.Data.Rat.Floor
import Mathlib.Tactic.Linarith

namespace Ntrip

/-!
# The coordinates of a position report

`DegreeConvertToDDMM` of `ntrip_util.cc` in exact arithmetic, and the field
that `GGAFrameGenerate` prints from it.  The function splits the degree at its
floor and the caller takes the magnitude afterwards, so below zero the minutes
are counted from the wrong side of the whole degree.
-/

/-- `DegreeConvertToDDMM`, for degrees whose floor fits an `int`. -/
def degreeConvertToDDMM (degree : ℚ) : ℚ :=
  let deg := ⌊degree⌋
  let minute := degree - deg * 1
  deg * 1 + minute * 60 / 100

/-- `fabs(DegreeConvertToDDMM(degree))*100.0`. -/
def coordinateField (degree : ℚ) : ℚ :=
  |degreeConvertToDDMM degree| * 100

/-- Whole degrees, then two digits of minutes. -/
def degreesAndMinutes (magnitude : ℚ) : ℚ :=
  100 * ⌊magnitude⌋ + 60 * (magnitude - ⌊magnitude⌋)

theorem degreeConvertToDDMM_eq (degree : ℚ) :
    degreeConvertToDDMM degree = ⌊degree⌋ + (degree - ⌊degree⌋) * (3 / 5) := by
  unfold degreeConvertToDDMM
  ring

theorem coordinateField_of_nonneg {degree : ℚ} (nonneg : 0 ≤ degree) :
    coordinateField degree = degreesAndMinutes |degree| := by
  have whole : (0 : ℚ) ≤ ⌊degree⌋ := by
    exact_mod_cast Int.floor_nonneg.mpr nonneg
  have part : (⌊degree⌋ : ℚ) ≤ degree := Int.floor_le degree
  unfold coordinateField degreesAndMinutes
  rw [degreeConvertToDDMM_eq, abs_of_nonneg nonneg, abs_of_nonneg (by linarith)]
  ring

/-- A whole number of degrees has no minutes to misplace. -/
theorem coordinateField_of_whole {degree : ℚ} (whole : (⌊degree⌋ : ℚ) = degree) :
    coordinateField degree = degreesAndMinutes |degree| := by
  have magnitude : (⌊|degree|⌋ : ℚ) = |degree| := by
    rw [← whole, ← Int.cast_abs, Int.floor_intCast]
  unfold coordinateField degreesAndMinutes
  rw [degreeConvertToDDMM_eq, magnitude, whole, sub_self, sub_self, zero_mul, add_zero]
  ring

/-- Between two negative whole degrees the field is 40 too large. -/
theorem coordinateField_of_neg {degree : ℚ} (negative : degree < 0)
    (between : (⌊degree⌋ : ℚ) ≠ degree) :
    coordinateField degree = degreesAndMinutes |degree| + 40 := by
  have lower : (⌊degree⌋ : ℚ) < degree := lt_of_le_of_ne (Int.floor_le degree) between
  have upper : degree < ⌊degree⌋ + 1 := Int.lt_floor_add_one degree
  have floor_neg : ⌊-degree⌋ = -⌊degree⌋ - 1 := by
    apply Int.floor_eq_iff.mpr
    push_cast
    constructor
    · linarith
    · linarith
  have below : (⌊degree⌋ : ℚ) ≤ -1 := by
    have floor_lt : ⌊degree⌋ < 0 := Int.floor_lt_zero.mpr negative
    exact_mod_cast Int.le_sub_one_of_lt floor_lt
  unfold coordinateField degreesAndMinutes
  rw [degreeConvertToDDMM_eq, abs_of_neg negative, floor_neg, abs_of_neg (by linarith)]
  push_cast
  ring

/-- The field is the magnitude in degrees and minutes exactly for degrees that
are not negative or whole. -/
theorem coordinateField_iff (degree : ℚ) :
    coordinateField degree = 100 * ⌊|degree|⌋ + 60 * (|degree| - ⌊|degree|⌋) ↔
      0 ≤ degree ∨ (⌊degree⌋ : ℚ) = degree := by
  change coordinateField degree = degreesAndMinutes |degree| ↔ _
  constructor
  · intro same
    rcases le_or_gt 0 degree with nonneg | negative
    · exact Or.inl nonneg
    · apply Or.inr
      by_contra between
      rw [coordinateField_of_neg negative between] at same
      linarith
  · rintro (nonneg | whole)
    · exact coordinateField_of_nonneg nonneg
    · exact coordinateField_of_whole whole

/-- Thirty and a half degrees south. -/
theorem coordinateField_fails :
    ¬ ∀ degree : ℚ, -180 ≤ degree → degree ≤ 180 →
      coordinateField degree = 100 * ⌊|degree|⌋ + 60 * (|degree| - ⌊|degree|⌋) := by
  intro always
  have same := always (-61 / 2) (by norm_num) (by norm_num)
  have floor_eq : ⌊(-61 / 2 : ℚ)⌋ = -31 := by
    apply Int.floor_eq_iff.mpr
    norm_num
  change coordinateField (-61 / 2) = degreesAndMinutes |-61 / 2| at same
  rw [coordinateField_of_neg (by norm_num) (by rw [floor_eq]; norm_num)] at same
  linarith

end Ntrip
