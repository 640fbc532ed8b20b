import Ntrip.Util.Base64

namespace Ntrip

/-!
# The checksum test of position reports

`BccCheckSumCompareForGGA` of `ntrip_util.cc` reads a C string twice: `sscanf`
reads up to its end, the loop reads up to an asterisk wherever that is.  The
loop therefore runs over the memory of the string, its terminator included,
and answers `none` when the next read would be behind the terminator.
-/

open Sequence

def asterisk : UInt8 := 42

/-! ## `sscanf` with the format `%*[^*]*%x` -/

/-- `isspace` in the default locale. -/
def isSpace (letter : UInt8) : Bool :=
  letter = 32 || (9 ≤ letter && letter ≤ 13)

/-- The value of a hexadecimal digit. -/
def hexDigit (letter : UInt8) : Option Nat :=
  if 48 ≤ letter && letter ≤ 57 then some (letter.toNat - 48)
  else if 65 ≤ letter && letter ≤ 70 then some (letter.toNat - 55)
  else if 97 ≤ letter && letter ≤ 102 then some (letter.toNat - 87)
  else none

/-- The digits at the beginning of the input, or none. -/
def hexDigits : Bytes → List Nat
  | [] => []
  | letter :: rest =>
      match hexDigit letter with
      | some digit => digit :: hexDigits rest
      | none => []

/-- `strtoul` in base 16 on the digits and the sign before them, stored into
an `int`.  The largest `unsigned long` stands for all numbers that do not fit,
whatever their sign. -/
def hexValue (negative : Bool) (digits : List Nat) : BitVec 32 :=
  let number := digits.foldl (fun value digit => value * 16 + digit) 0
  if 2 ^ 64 ≤ number then BitVec.ofNat 32 (2 ^ 64 - 1)
  else if negative then -BitVec.ofNat 32 number else BitVec.ofNat 32 number

/-- The directive `%x`: blanks, a sign, a prefix and at least one digit. -/
def scanHex (input : Bytes) : Option (BitVec 32) :=
  let input := input.dropWhile isSpace
  let negative := input.head? == some 45
  let unsigned := if negative || input.head? == some 43 then input.tail else input
  let digits :=
    match unsigned with
    | 48 :: mark :: rest => if mark = 120 ∨ mark = 88 then hexDigits rest else hexDigits unsigned
    | _ => hexDigits unsigned
  if digits = [] then none else some (hexValue negative digits)

/-- The variable `num` after the `sscanf` call, zero when a directive fails. -/
def scannedNum (src : Bytes) : BitVec 32 :=
  let input := src.takeWhile (· ≠ 0)
  let skipped := input.takeWhile (· ≠ asterisk)
  if skipped = [] then 0 else ((scanHex (input.drop (skipped.length + 1))).getD 0)

/-! ## The loop -/

/-- The loop from index `i` on, over the memory from there: the sum and the
index at which it stops. -/
def checkSumLoop (kind : CharKind) : BitVec 32 → Nat → Bytes → Option (BitVec 32 × Nat)
  | _, _, [] => none
  | sum, i, letter :: rest =>
      if letter = asterisk then some (sum, i)
      else checkSumLoop kind (sum ^^^ kind.promote letter) (i + 1) rest

/-- The loop of `BccCheckSumCompareForGGA` on the string of a text. -/
def checkSumScan (kind : CharKind) (text : Bytes) : Option (BitVec 32 × Nat) :=
  checkSumLoop kind 0 1 ((text ++ [0]).drop 1)

/-- `BccCheckSumCompareForGGA` on `text.c_str()`. -/
def bccCheckSumCompareForGGA (kind : CharKind) (text : Bytes) : Option Int :=
  (checkSumScan kind text).map fun stop => (stop.1 - scannedNum (text ++ [0])).toInt

theorem checkSumLoop_eq_some {kind : CharKind} {memory : Bytes} {sum sum' : BitVec 32}
    {i stop : Nat} (stops : checkSumLoop kind sum i memory = some (sum', stop)) :
    ∃ before after, memory = before ++ asterisk :: after ∧ asterisk ∉ before ∧
      stop = i + before.length := by
  induction memory generalizing sum i with
  | nil => cases stops
  | cons letter rest inductionHypothesis =>
      rw [checkSumLoop] at stops
      by_cases found : letter = asterisk
      · rw [if_pos found] at stops
        have same := (Prod.mk.inj (Option.some.inj stops)).2
        exact ⟨[], rest, by rw [found]; rfl, List.not_mem_nil, same.symm⟩
      · rw [if_neg found] at stops
        rcases inductionHypothesis stops with ⟨before, after, shape, fresh, position⟩
        refine ⟨letter :: before, after, by rw [shape]; rfl, ?_, ?_⟩
        · intro member
          rcases List.mem_cons.mp member with same | later
          · exact found same.symm
          · exact fresh later
        · rw [position, List.length_cons]
          omega

theorem checkSumLoop_isSome_iff (kind : CharKind) (memory : Bytes) (sum : BitVec 32) (i : Nat) :
    (checkSumLoop kind sum i memory).isSome = true ↔ asterisk ∈ memory := by
  induction memory generalizing sum i with
  | nil => simp [checkSumLoop]
  | cons letter rest inductionHypothesis =>
      rw [checkSumLoop, List.mem_cons]
      by_cases found : letter = asterisk
      · rw [if_pos found]
        exact iff_of_true rfl (Or.inl found.symm)
      · rw [if_neg found, inductionHypothesis]
        constructor
        · exact Or.inr
        · intro either
          exact either.resolve_left fun same => found same.symm

/-- The loop stops at an index that is not behind the terminator. -/
def ScanInside (kind : CharKind) (text : Bytes) : Prop :=
  ∃ sum stop, checkSumScan kind text = some (sum, stop) ∧ stop ≤ text.length

instance (kind : CharKind) (text : Bytes) : Decidable (ScanInside kind text) :=
  match scan : checkSumScan kind text with
  | none =>
      isFalse (by
        rintro ⟨sum, stop, stops, _⟩
        cases scan.symm.trans stops)
  | some (sum, stop) =>
      if inside : stop ≤ text.length then isTrue ⟨sum, stop, scan, inside⟩
      else
        isFalse (by
          rintro ⟨sum', stop', stops, inside'⟩
          cases scan.symm.trans stops
          exact inside inside')

/-- An asterisk that the loop comes to stops it inside the string. -/
theorem scanInside_of_mem (kind : CharKind) {text : Bytes}
    (member : asterisk ∈ (text ++ [0]).drop 1) : ScanInside kind text := by
  have stopsSomewhere := (checkSumLoop_isSome_iff kind _ 0 1).mpr member
  rcases Option.isSome_iff_exists.mp stopsSomewhere with ⟨⟨sum, stop⟩, stops⟩
  refine ⟨sum, stop, stops, ?_⟩
  rcases checkSumLoop_eq_some stops with ⟨before, after, shape, _, position⟩
  have lengths := congrArg List.length shape
  simp only [List.length_drop, List.length_append, List.length_cons, List.length_nil] at lengths
  omega

/-- The loop stays inside the string exactly when the text has an asterisk
behind its first letter. -/
theorem scan_inside_iff (kind : CharKind) (text : Bytes) :
    ScanInside kind text ↔ asterisk ∈ text.tail := by
  have memory : asterisk ∈ (text ++ [0]).drop 1 ↔ asterisk ∈ text.tail := by
    cases text with
    | nil => decide
    | cons head tail =>
        rw [List.cons_append, List.drop_succ_cons, List.drop_zero, List.mem_append, List.tail_cons]
        exact or_iff_left (by decide)
  rw [← memory]
  constructor
  · rintro ⟨sum, stop, stops, _⟩
    rw [checkSumScan] at stops
    rw [← checkSumLoop_isSome_iff kind _ 0 1, stops]
    rfl
  · exact scanInside_of_mem kind

end Ntrip
