import Mathlib.Data.List.Basic

namespace Ntrip
namespace Sequence

/-!
# Operations on a part of a list

A Boolean predicate singles out a part of a list.  An operation is local to
the part at a list when it leaves all other letters as they are and does to
the part what it does when the part is all there is.  Two operations that are
local to disjoint parts commute up to the order of the letters.
-/

universe u

variable {α : Type u}

/-- The operation neither changes nor consults letters outside the part. -/
structure LocalAt (part : α → Bool) (operation : List α → List α) (list : List α) : Prop where
  inside : (operation list).filter part = operation (list.filter part)
  outside : (operation list).filter (fun letter => !part letter) =
    list.filter (fun letter => !part letter)

theorem perm_of_parts (part : α → Bool) {list list' : List α}
    (inside : (list.filter part).Perm (list'.filter part))
    (outside : (list.filter fun letter => !part letter).Perm
      (list'.filter fun letter => !part letter)) : list.Perm list' :=
  (List.filter_append_perm part list).symm.trans
    ((inside.append outside).trans (List.filter_append_perm part list'))

/-- Two lists agree up to the order of their letters when they agree on each of
some parts and outside of all of them. -/
theorem perm_of_all_parts (parts : List (α → Bool)) {list list' : List α}
    (inside : ∀ part ∈ parts, list.filter part = list'.filter part)
    (outside : (list.filter fun letter => parts.all fun part => !part letter).Perm
      (list'.filter fun letter => parts.all fun part => !part letter)) : list.Perm list' := by
  induction parts generalizing list list' with
  | nil => simpa using outside
  | cons part rest inductionHypothesis =>
      apply perm_of_parts part
      · rw [inside part List.mem_cons_self]
      · apply inductionHypothesis
        · intro other member
          rw [List.filter_comm, inside other (List.mem_cons_of_mem part member), List.filter_comm]
        · simpa [List.filter_filter, Bool.and_comm] using outside

/-- A part inside another one is seen through it. -/
theorem filter_of_apart {part other : α → Bool}
    (apart : ∀ letter, other letter = true → part letter = false) (list : List α) :
    (list.filter fun letter => !part letter).filter other = list.filter other := by
  rw [List.filter_filter]
  apply List.filter_congr
  intro letter _
  cases chosen : other letter with
  | false => rfl
  | true => rw [apart letter chosen]; rfl

/-- What lies apart from the part stays the same. -/
theorem LocalAt.filter_other {part other : α → Bool} {operation : List α → List α}
    {list : List α} (stays : LocalAt part operation list)
    (apart : ∀ letter, other letter = true → part letter = false) :
    (operation list).filter other = list.filter other := by
  rw [← filter_of_apart apart, stays.outside, filter_of_apart apart]

section Commuting

variable {left right : α → Bool} {first second : List α → List α} {list : List α}

/-- The part of one operation in the result of both. -/
theorem LocalAt.filter_after (here : LocalAt left first list)
    (other : LocalAt right second (first list))
    (apart : ∀ letter, left letter = true → right letter = false) :
    (second (first list)).filter left = first (list.filter left) := by
  rw [other.filter_other apart, here.inside]

/-- The part of the other operation in the result of both. -/
theorem LocalAt.filter_before (here : LocalAt left first list)
    (other : LocalAt right second (first list))
    (apart : ∀ letter, right letter = true → left letter = false) :
    (second (first list)).filter right = second (list.filter right) := by
  rw [other.inside, here.filter_other apart]

theorem commute_perm (apart : ∀ letter, left letter = true → right letter = false)
    (firstHere : LocalAt left first list) (secondHere : LocalAt right second list)
    (firstThen : LocalAt left first (second list))
    (secondThen : LocalAt right second (first list)) :
    (second (first list)).Perm (first (second list)) := by
  have apart' : ∀ letter, right letter = true → left letter = false := by
    intro letter inRight
    apply Bool.eq_false_iff.mpr
    intro inLeft
    rw [apart letter inLeft] at inRight
    cases inRight
  have leftSame : (second (first list)).filter left = (first (second list)).filter left := by
    rw [firstHere.filter_after secondThen apart, secondHere.filter_before firstThen apart]
  have rightSame : (second (first list)).filter right = (first (second list)).filter right := by
    rw [firstHere.filter_before secondThen apart', secondHere.filter_after firstThen apart']
  have restSame : ((second (first list)).filter fun letter => !right letter).filter
      (fun letter => !left letter) =
        ((first (second list)).filter fun letter => !right letter).filter
          (fun letter => !left letter) := by
    rw [secondThen.outside, List.filter_comm, firstHere.outside, List.filter_comm,
      ← secondHere.outside, List.filter_comm, ← firstThen.outside, List.filter_comm]
  apply perm_of_parts right
  · rw [rightSame]
  · apply perm_of_parts left
    · rw [filter_of_apart apart, filter_of_apart apart, leftSame]
    · rw [restSame]

end Commuting

/-! ## Operations of this kind -/

theorem localAt_id (part : α → Bool) (list : List α) : LocalAt part (fun list => list) list :=
  ⟨rfl, rfl⟩

theorem localAt_append {part : α → Bool} {added : List α}
    (inPart : ∀ letter ∈ added, part letter = true) (list : List α) :
    LocalAt part (fun list => list ++ added) list := by
  constructor
  · rw [List.filter_append, List.filter_eq_self.mpr inPart]
  · have none_left : added.filter (fun letter => !part letter) = [] := by
      apply List.filter_eq_nil_iff.mpr
      intro letter member
      rw [inPart letter member]
      simp
    rw [List.filter_append, none_left, List.append_nil]

/-- The first letter with a property is replaced, or removed. -/
def alterFirst (hit : α → Bool) (change : α → Option α) : List α → List α
  | [] => []
  | head :: tail =>
      if hit head then (change head).toList ++ tail else head :: alterFirst hit change tail

theorem localAt_alterFirst {part hit : α → Bool} {change : α → Option α} {list : List α}
    (hits : ∀ letter ∈ list, hit letter = true → part letter = true)
    (stays : ∀ letter ∈ list, hit letter = true → ∀ changed, change letter = some changed →
      part changed = true) : LocalAt part (alterFirst hit change) list := by
  induction list with
  | nil => exact ⟨rfl, rfl⟩
  | cons head tail inductionHypothesis =>
      have later := inductionHypothesis
        (fun letter member => hits letter (List.mem_cons_of_mem head member))
        (fun letter member => stays letter (List.mem_cons_of_mem head member))
      by_cases here : hit head = true
      · have inPart := hits head List.mem_cons_self here
        have changed : ∀ letter ∈ (change head).toList, part letter = true := by
          intro letter member
          exact stays head List.mem_cons_self here letter (Option.mem_toList.mp member)
        have shape : alterFirst hit change (head :: tail) = (change head).toList ++ tail := by
          rw [alterFirst, if_pos here]
        constructor
        · rw [shape, List.filter_cons_of_pos inPart, alterFirst, if_pos here, List.filter_append,
            List.filter_eq_self.mpr changed]
        · rw [shape, List.filter_append, List.filter_cons_of_neg (by simp [inPart]),
            List.filter_eq_nil_iff.mpr (fun letter member => by simp [changed letter member]),
            List.nil_append]
      · have shape : alterFirst hit change (head :: tail) = head :: alterFirst hit change tail := by
          rw [alterFirst, if_neg here]
        cases inPart : part head with
        | true =>
            constructor
            · rw [shape, List.filter_cons_of_pos inPart, List.filter_cons_of_pos inPart,
                later.inside, alterFirst, if_neg here]
            · rw [shape, List.filter_cons_of_neg (by simp [inPart]),
                List.filter_cons_of_neg (by simp [inPart]), later.outside]
        | false =>
            constructor
            · rw [shape, List.filter_cons_of_neg (by simp [inPart]),
                List.filter_cons_of_neg (by simp [inPart]), later.inside]
            · rw [shape, List.filter_cons_of_pos (by simp [inPart]),
                List.filter_cons_of_pos (by simp [inPart]), later.outside]

theorem alterFirst_split {hit : α → Bool} {change : α → Option α} {before after : List α}
    {letter : α} (earlier : ∀ other ∈ before, hit other = false) (here : hit letter = true) :
    alterFirst hit change (before ++ letter :: after) =
      before ++ ((change letter).toList ++ after) := by
  induction before with
  | nil => rw [List.nil_append, alterFirst, if_pos here, List.nil_append]
  | cons head tail inductionHypothesis =>
      have miss := earlier head List.mem_cons_self
      have later := inductionHypothesis fun other member =>
        earlier other (List.mem_cons_of_mem head member)
      rw [List.cons_append, alterFirst, miss, if_neg Bool.false_ne_true, later]
      rfl

theorem alterFirst_of_miss {hit : α → Bool} {change : α → Option α} {list : List α}
    (miss : ∀ letter ∈ list, hit letter = false) : alterFirst hit change list = list := by
  induction list with
  | nil => rfl
  | cons head tail inductionHypothesis =>
      rw [alterFirst, miss head List.mem_cons_self, if_neg Bool.false_ne_true,
        inductionHypothesis fun letter member => miss letter (List.mem_cons_of_mem head member)]

/-- An operation may be replaced by one with the same two values. -/
theorem LocalAt.congr {part : α → Bool} {operation other : List α → List α} {list : List α}
    (stays : LocalAt part operation list) (whole : other list = operation list)
    (inPart : other (list.filter part) = operation (list.filter part)) :
    LocalAt part other list := by
  constructor
  · rw [whole, inPart, stays.inside]
  · rw [whole, stays.outside]

/-- A search whose hits lie in the part needs the part only. -/
theorem find?_filter_of_hits {part hit : α → Bool} {list : List α}
    (hits : ∀ letter ∈ list, hit letter = true → part letter = true) :
    (list.filter part).find? hit = list.find? hit := by
  rw [← List.head?_filter, ← List.head?_filter, List.filter_filter]
  apply congrArg List.head?
  apply List.filter_congr
  intro letter member
  cases found : hit letter with
  | false => rfl
  | true => rw [hits letter member found]; rfl

theorem any_filter_of_hits {part hit : α → Bool} {list : List α}
    (hits : ∀ letter ∈ list, hit letter = true → part letter = true) :
    (list.filter part).any hit = list.any hit := by
  apply Bool.eq_iff_iff.mpr
  rw [List.any_eq_true, List.any_eq_true]
  constructor
  · rintro ⟨letter, member, found⟩
    exact ⟨letter, (List.mem_filter.mp member).1, found⟩
  · rintro ⟨letter, member, found⟩
    exact ⟨letter, List.mem_filter.mpr ⟨member, hits letter member found⟩, found⟩

end Sequence
end Ntrip
