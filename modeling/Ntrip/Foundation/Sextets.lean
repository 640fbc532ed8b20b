import Mathlib.Data.List.Basic

namespace Ntrip
namespace Sextets

/-!
# Regrouping bytes into six-bit digits

The arithmetic of base 64, independent of any alphabet and of any program.
Three bytes are four six-bit digits; a final group of one or two bytes is
extended by zero bits and keeps two or three digits.  `bytes` regroups digits
and reads a short final group as the bytes that it holds completely.
-/

/-- The six-bit digits of a byte string. -/
def digits : List Nat → List Nat
  | [] => []
  | [a] => [a / 4, a % 4 * 16]
  | [a, b] => [a / 4, a % 4 * 16 + b / 16, b % 16 * 4]
  | a :: b :: c :: rest =>
      a / 4 :: (a % 4 * 16 + b / 16) :: (b % 16 * 4 + c / 64) :: c % 64 :: digits rest

/-- The number of padding signs that complete a string of `count` bytes. -/
def padding (count : Nat) : Nat :=
  (3 - count % 3) % 3

/-- The bytes that a digit string holds completely. -/
def bytes : List Nat → List Nat
  | p :: q :: r :: s :: rest =>
      (p * 4 + q / 16) :: (q % 16 * 16 + r / 4) :: (r % 4 * 64 + s) :: bytes rest
  | [p, q, r] => [p * 4 + q / 16, q % 16 * 16 + r / 4]
  | [p, q] => [p * 4 + q / 16]
  | _ => []

theorem bytes_digits (raw : List Nat) (small : ∀ byte ∈ raw, byte < 256) :
    bytes (digits raw) = raw := by
  fun_induction digits raw with
  | case1 => rfl
  | case2 a =>
      have := small a (by simp)
      simp only [bytes, List.cons.injEq, and_true]
      omega
  | case3 a b =>
      have := small a (by simp)
      have := small b (by simp)
      simp only [bytes, List.cons.injEq, and_true]
      omega
  | case4 a b c rest inductionHypothesis =>
      have tail := inductionHypothesis (fun byte member => small byte (by simp [member]))
      have := small a (by simp)
      have := small b (by simp)
      have := small c (by simp)
      simp only [bytes, tail, List.cons.injEq, and_true]
      omega

theorem digits_lt (raw : List Nat) (small : ∀ byte ∈ raw, byte < 256) :
    ∀ digit ∈ digits raw, digit < 64 := by
  fun_induction digits raw with
  | case1 => simp
  | case2 a =>
      have := small a (by simp)
      simp only [List.mem_cons, List.not_mem_nil, or_false]
      omega
  | case3 a b =>
      have := small a (by simp)
      have := small b (by simp)
      simp only [List.mem_cons, List.not_mem_nil, or_false]
      omega
  | case4 a b c rest inductionHypothesis =>
      have tail := inductionHypothesis (fun byte member => small byte (by simp [member]))
      have := small a (by simp)
      have := small b (by simp)
      have := small c (by simp)
      intro digit member
      simp only [List.mem_cons] at member
      rcases member with rfl | rfl | rfl | rfl | later
      · omega
      · omega
      · omega
      · omega
      · exact tail digit later

/-- Digits and padding together fill whole groups of four. -/
theorem length_digits_add_padding (raw : List Nat) :
    (digits raw).length + padding raw.length = 4 * ((raw.length + 2) / 3) := by
  fun_induction digits raw with
  | case1 => rfl
  | case2 => simp [padding]
  | case3 => simp [padding]
  | case4 a b c rest inductionHypothesis =>
      simp only [List.length_cons, padding] at inductionHypothesis ⊢
      omega

end Sextets
end Ntrip
