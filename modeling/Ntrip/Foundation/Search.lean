import Mathlib.Data.List.Infix

namespace Ntrip
namespace Sequence

/-!
# Searching finite sequences

Position-valued search over an arbitrary alphabet with decidable equality.
The conventions are those of a string class with optional positions: a
search returns the least position, `none` stands for "no position", and a
start position beyond the end finds nothing.

Whether a pattern occurs is the library's infix relation.  The two separator
lemmas say how an occurrence meets a displayed letter: a pattern without that
letter lies on one side of it, and a pattern with exactly one such letter lies
on one side or is aligned with it.
-/

universe u

variable {α : Type u}

/-- At most `count` letters from position `start` on. -/
def substr (text : List α) (start count : Nat) : List α :=
  (text.drop start).take count

theorem substr_append (front middle after : List α) :
    substr (front ++ (middle ++ after)) front.length middle.length = middle := by
  rw [substr, List.drop_left, List.take_left]

/-- A pattern without the displayed letter occurs on one side of it. -/
theorem infix_letter_iff {pattern : List α} {letter : α} (fresh : letter ∉ pattern)
    (before after : List α) :
    pattern <:+: before ++ letter :: after ↔ pattern <:+: before ∨ pattern <:+: after := by
  rw [List.infix_append_iff_ne_nil]
  constructor
  · rintro (left | right | ⟨first, second, _, nonempty, split, _, starts⟩)
    · exact Or.inl left
    · rcases List.infix_cons_iff.mp right with here | later
      · rcases pattern with _ | ⟨head, tail⟩
        · exact Or.inl (List.nil_infix)
        · have same := (List.cons_prefix_cons.mp here).1
          exact absurd (List.mem_cons.mpr (Or.inl same.symm)) fresh
      · exact Or.inr later
    · rcases second with _ | ⟨head, tail⟩
      · exact absurd rfl nonempty
      · have same := (List.cons_prefix_cons.mp starts).1
        rw [split, same] at fresh
        exact absurd (List.mem_append_right first List.mem_cons_self) fresh
  · rintro (left | right)
    · exact Or.inl left
    · exact Or.inr (Or.inl (List.infix_cons right))

/-- A pattern with exactly one copy of the displayed letter occurs on one
side of it, or its two parts meet there. -/
theorem infix_aligned_iff {front back : List α} {letter : α}
    (freshFront : letter ∉ front) (freshBack : letter ∉ back) (before after : List α) :
    front ++ letter :: back <:+: before ++ letter :: after ↔
      front ++ letter :: back <:+: before ∨ front ++ letter :: back <:+: after ∨
        (front <:+ before ∧ back <+: after) := by
  constructor
  · rintro ⟨left, right, occurrence⟩
    have shape : left ++ front ++ letter :: (back ++ right) = before ++ letter :: after := by
      simpa only [List.append_assoc, List.cons_append] using occurrence
    rcases List.append_eq_append_iff.mp shape with ⟨gap, beforeEq, tailEq⟩ | ⟨gap, frontEq, tailEq⟩
    · rcases gap with _ | ⟨head, gap⟩
      · have same : back ++ right = after := (List.cons.inj tailEq).2
        exact Or.inr (Or.inr ⟨⟨left, by simpa using beforeEq.symm⟩, ⟨right, same⟩⟩)
      · have parts := List.cons.inj tailEq
        rcases List.append_eq_append_iff.mp parts.2 with ⟨rest, gapEq, _⟩ | ⟨rest, backEq, restEq⟩
        · refine Or.inl ⟨left, rest, ?_⟩
          rw [beforeEq, gapEq, ← parts.1]
          simp
        · rcases rest with _ | ⟨first, rest⟩
          · refine Or.inl ⟨left, [], ?_⟩
            rw [beforeEq, ← parts.1, backEq]
            simp
          · have same : letter = first := (List.cons.inj restEq).1
            rw [backEq, ← same] at freshBack
            exact absurd (List.mem_append_right gap List.mem_cons_self) freshBack
    · rcases gap with _ | ⟨head, gap⟩
      · have same : after = back ++ right := (List.cons.inj tailEq).2
        exact Or.inr (Or.inr ⟨⟨left, by simpa using frontEq⟩, ⟨right, same.symm⟩⟩)
      · have parts := List.cons.inj tailEq
        rcases List.append_eq_append_iff.mp frontEq with ⟨rest, _, restEq⟩ | ⟨rest, leftEq, restEq⟩
        · refine absurd ?_ freshFront
          rw [restEq, ← parts.1]
          exact List.mem_append_right rest List.mem_cons_self
        · rcases rest with _ | ⟨first, rest⟩
          · refine absurd ?_ freshFront
            rw [← (show letter :: gap = front by simpa [parts.1] using restEq)]
            exact List.mem_cons_self
          · have gapEq := (List.cons.inj restEq).2
            refine Or.inr (Or.inl ⟨rest, right, ?_⟩)
            rw [parts.2, gapEq]
            simp
  · rintro (left | right | ⟨⟨left, beforeEq⟩, ⟨right, afterEq⟩⟩)
    · exact List.infix_append_of_infix_left left
    · exact List.infix_append_of_infix_right (List.infix_cons right)
    · exact ⟨left, right, by rw [← beforeEq, ← afterEq]; simp⟩

theorem not_infix_of_notMem {pattern text : List α} {letter : α}
    (member : letter ∈ pattern) (absent : letter ∉ text) : ¬ pattern <:+: text :=
  fun occurs => absent (occurs.mem member)

/-- A text is split at the last copy of any of its letters. -/
theorem exists_lastWord {text : List α} {letter : α} (member : letter ∈ text) :
    ∃ front word, text = front ++ letter :: word ∧ letter ∉ word := by
  rcases List.eq_append_cons_of_mem (List.mem_reverse.mpr member) with ⟨back, front, shape, fresh⟩
  refine ⟨front.reverse, back.reverse, ?_, by simpa using fresh⟩
  have reversed := congrArg List.reverse shape
  simpa using reversed

/-- The letter that is the n-th with a property, and what is before and after
it, are unique. -/
theorem nth_split_unique (accepts : α → Bool) {before before' after after' : List α}
    {letter letter' : α} (same : before ++ letter :: after = before' ++ letter' :: after')
    (count : before'.countP accepts = before.countP accepts) (holds : accepts letter = true)
    (holds' : accepts letter' = true) : before' = before ∧ letter' = letter ∧ after' = after := by
  induction before generalizing before' with
  | nil =>
      cases before' with
      | nil =>
          have parts := List.cons.inj same
          exact ⟨rfl, parts.1.symm, parts.2.symm⟩
      | cons head tail =>
          have first := (List.cons.inj same).1
          rw [List.countP_cons_of_pos (first ▸ holds)] at count
          exact absurd count (Nat.succ_ne_zero _)
  | cons head tail inductionHypothesis =>
      cases before' with
      | nil =>
          have first := (List.cons.inj same).1
          rw [List.countP_cons_of_pos (first ▸ holds')] at count
          exact absurd count.symm (Nat.succ_ne_zero _)
      | cons head' tail' =>
          have parts := List.cons.inj same
          rw [← parts.1, List.countP_cons, List.countP_cons] at count
          rcases inductionHypothesis parts.2 (Nat.add_right_cancel count) with
            ⟨sameTail, sameLetter, sameAfter⟩
          exact ⟨by rw [parts.1, sameTail], sameLetter, sameAfter⟩

/-- The first letter with a property, and what is before and after it, are
unique. -/
theorem first_split_unique (accepts : α → Bool) {before before' after after' : List α}
    {letter letter' : α} (same : before ++ letter :: after = before' ++ letter' :: after')
    (fresh : ∀ other ∈ before, ¬ accepts other = true) (holds : accepts letter = true)
    (fresh' : ∀ other ∈ before', ¬ accepts other = true) (holds' : accepts letter' = true) :
    before' = before ∧ letter' = letter ∧ after' = after := by
  refine nth_split_unique accepts same ?_ holds holds'
  rw [List.countP_eq_zero.mpr fresh, List.countP_eq_zero.mpr fresh']

/-- The letter that is not among the earlier ones is the last. -/
theorem last_of_append_singleton {front before after : List α} {last letter : α}
    (split : front ++ [last] = before ++ letter :: after) (fresh : letter ∉ front) :
    before = front ∧ letter = last ∧ after = [] := by
  rcases List.append_eq_append_iff.mp split with ⟨gap, left, right⟩ | ⟨gap, left, right⟩
  · cases gap with
    | nil => simpa [left, eq_comm] using right
    | cons head tail => simp at right
  · cases gap with
    | nil => simpa [left, eq_comm] using right
    | cons head tail =>
        refine absurd ?_ fresh
        rw [left, (List.cons.inj right).1]
        exact List.mem_append_right before List.mem_cons_self

theorem prefix_of_append_singleton {front before after : List α} {last letter : α}
    (split : front ++ [last] = before ++ letter :: after) : before <+: front := by
  rcases List.prefix_concat_iff.mp ⟨letter :: after, split.symm⟩ with all | shorter
  · rw [all] at split
    exact absurd (List.append_right_eq_self.mp split.symm) (List.cons_ne_nil _ _)
  · exact shorter

/-- A cut is before the last place where a letter can be when the letter is
behind the cut. -/
theorem prefix_of_mem_rest {front back first rest : List α} {letter : α}
    (same : first ++ rest = front ++ back) (fresh : letter ∉ back) (occurs : letter ∈ rest) :
    first <+: front := by
  rcases List.append_eq_append_iff.mp same with ⟨gap, left, _⟩ | ⟨gap, _, right⟩
  · exact ⟨gap, left.symm⟩
  · refine absurd ?_ fresh
    rw [right]
    exact List.mem_append_right gap occurs

section Positions

variable [DecidableEq α]

/-- The first position at which the pattern occurs. -/
def find : List α → List α → Option Nat
  | [], pattern => if pattern = [] then some 0 else none
  | head :: tail, pattern =>
      if pattern <+: head :: tail then some 0 else (find tail pattern).map (· + 1)

/-- The first occurrence that begins at or after `start`. -/
def findFrom (text pattern : List α) (start : Nat) : Option Nat :=
  if start ≤ text.length then (find (text.drop start) pattern).map (· + start) else none

/-- The last position that holds the letter. -/
def findLast : List α → α → Option Nat
  | [], _ => none
  | head :: tail, letter =>
      match findLast tail letter with
      | some position => some (position + 1)
      | none => if head = letter then some 0 else none

def contains (text pattern : List α) : Bool :=
  (find text pattern).isSome

theorem find_isSome_iff (text pattern : List α) :
    (find text pattern).isSome = true ↔ pattern <:+: text := by
  induction text with
  | nil =>
      by_cases empty : pattern = []
      · simp [find, empty]
      · simp [find, empty]
  | cons head tail inductionHypothesis =>
      rw [List.infix_cons_iff, ← inductionHypothesis, find]
      by_cases here : pattern <+: head :: tail
      · simp [here]
      · simp [here]

@[simp] theorem contains_iff (text pattern : List α) :
    contains text pattern = true ↔ pattern <:+: text :=
  find_isSome_iff text pattern

@[simp] theorem contains_eq_false_iff (text pattern : List α) :
    contains text pattern = false ↔ ¬ pattern <:+: text := by
  rw [← contains_iff, Bool.not_eq_true]

theorem find_eq_none_iff (text pattern : List α) :
    find text pattern = none ↔ ¬ pattern <:+: text := by
  rw [← find_isSome_iff, Option.not_isSome_iff_eq_none]

/-- A pattern is found behind any text that lacks its first letter. -/
theorem find_append_of_notMem (before rest after : List α) (letter : α)
    (fresh : letter ∉ before) :
    find (before ++ (letter :: rest ++ after)) (letter :: rest) = some before.length := by
  induction before with
  | nil =>
      rw [List.nil_append, List.cons_append, find, if_pos]
      · rfl
      · exact List.prefix_append (letter :: rest) after
  | cons head tail inductionHypothesis =>
      have parts := not_or.mp (mt List.mem_cons.mpr fresh)
      rw [List.cons_append, find, if_neg, inductionHypothesis parts.2]
      · rfl
      · intro starts
        exact parts.1 (List.cons_prefix_cons.mp starts).1

theorem find_letter_append (before after : List α) (letter : α)
    (fresh : letter ∉ before) :
    find (before ++ letter :: after) [letter] = some before.length :=
  find_append_of_notMem before [] after letter fresh

theorem find_letter_eq_none {text : List α} {letter : α} (absent : letter ∉ text) :
    find text [letter] = none :=
  (find_eq_none_iff text [letter]).mpr (not_infix_of_notMem List.mem_cons_self absent)

theorem findLast_append (before after : List α) (letter : α) (fresh : letter ∉ after) :
    findLast (before ++ letter :: after) letter = some before.length := by
  have absent : findLast after letter = none := by
    induction after with
    | nil => rfl
    | cons head tail inductionHypothesis =>
        have parts := not_or.mp (mt List.mem_cons.mpr fresh)
        rw [findLast, inductionHypothesis parts.2]
        exact if_neg (Ne.symm parts.1)
  induction before with
  | nil => simp [findLast, absent]
  | cons head tail inductionHypothesis =>
      rw [List.cons_append, findLast, inductionHypothesis]
      rfl

theorem findFrom_zero (text pattern : List α) : findFrom text pattern 0 = find text pattern := by
  simp [findFrom]

/-- Searching behind a displayed front is searching the remainder. -/
theorem findFrom_append (front text pattern : List α) :
    findFrom (front ++ text) pattern front.length =
      (find text pattern).map (· + front.length) := by
  rw [findFrom, if_pos (by simp), List.drop_left]

/-! A search returns the position of a whole occurrence. -/

theorem find_bound {text pattern : List α} {position : Nat}
    (found : find text pattern = some position) : position + pattern.length ≤ text.length := by
  induction text generalizing position with
  | nil =>
      rw [find] at found
      split at found
      · rename_i empty
        rw [← Option.some.inj found, empty]
        exact Nat.le_refl 0
      · cases found
  | cons head tail inductionHypothesis =>
      rw [find] at found
      split at found
      · rename_i starts
        rw [← Option.some.inj found, Nat.zero_add]
        exact starts.length_le
      · rcases Option.map_eq_some_iff.mp found with ⟨earlier, later, rfl⟩
        have bound := inductionHypothesis later
        rw [List.length_cons]
        omega

theorem findFrom_bound {text pattern : List α} {start position : Nat}
    (found : findFrom text pattern start = some position) :
    start ≤ position ∧ position + pattern.length ≤ text.length := by
  unfold findFrom at found
  split at found
  · rename_i inside
    rcases Option.map_eq_some_iff.mp found with ⟨distance, later, rfl⟩
    have bound := find_bound later
    rw [List.length_drop] at bound
    omega
  · cases found

end Positions

end Sequence
end Ntrip
