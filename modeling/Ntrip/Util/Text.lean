import Mathlib.Algebra.Group.Int.Defs
import Mathlib.Algebra.Group.Nat.Defs
import Ntrip.Foundation.Search

namespace Ntrip

/-!
# Byte strings

`std::string` and `char` buffers are lists of bytes.  `int` values that come
from a size are reduced to 32 bits, as the conversion does.
-/

open Sequence

abbrev Bytes := List UInt8

/-- The bytes of an ASCII literal. -/
def ascii (text : String) : Bytes :=
  text.toList.map fun letter => letter.toNat.toUInt8

def crlf : Bytes := ascii "\r\n"

/-- The first letter of a position report. -/
def dollar : UInt8 := 36

/-- A `size_t` stored in an `int`. -/
def toInt (size : Nat) : Int :=
  Int.bmod size (2 ^ 32)

theorem toInt_of_lt {size : Nat} (small : size < 2 ^ 31) : toInt size = size := by
  unfold toInt
  rw [Int.bmod_eq_of_le]
  · omega
  · omega

/-- The `%` of C++ on a non-negative operand. -/
theorem tmod_four (size : Nat) : (size : Int).tmod 4 = (size % 4 : Nat) := by
  rw [Int.tmod_eq_emod_of_nonneg (by omega)]
  omega

/-- Does the text contain the literal somewhere? -/
def mentions (text : Bytes) (literal : String) : Bool :=
  contains text (ascii literal)

@[simp] theorem mentions_iff (text : Bytes) (literal : String) :
    mentions text literal = true ↔ ascii literal <:+: text :=
  contains_iff text (ascii literal)

@[simp] theorem mentions_eq_false_iff (text : Bytes) (literal : String) :
    mentions text literal = false ↔ ¬ ascii literal <:+: text :=
  contains_eq_false_iff text (ascii literal)

end Ntrip
