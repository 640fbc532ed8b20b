import Mathlib.Data.List.Forall2

namespace Ntrip
namespace Sequence

/-!
# Two lists kept in step

`List.Forall₂` relates two lists position by position.  Entries appended to
both, or erased from both at one position, keep the lists in step.  When the
second entry is erased too early, every entry between the two positions has
to fit one place lower.
-/

universe u v

variable {α : Type u} {β : Type v} {fits : α → β → Prop}

/-- The relation as a statement about positions. -/
theorem forall₂_iff_getElem? {left : List α} {right : List β} :
    List.Forall₂ fits left right ↔ left.length = right.length ∧
      ∀ (position : Nat) (first : α) (second : β), left[position]? = some first →
        right[position]? = some second → fits first second := by
  constructor
  · intro inStep
    refine ⟨inStep.length_eq, ?_⟩
    intro position first second atLeft atRight
    rcases List.getElem?_eq_some_iff.mp atLeft with ⟨inLeft, rfl⟩
    rcases List.getElem?_eq_some_iff.mp atRight with ⟨inRight, rfl⟩
    exact inStep.get inLeft inRight
  · rintro ⟨lengths, pairs⟩
    apply List.forall₂_iff_get.mpr
    refine ⟨lengths, ?_⟩
    intro position inLeft inRight
    exact pairs position _ _ (List.getElem?_eq_getElem inLeft) (List.getElem?_eq_getElem inRight)

theorem forall₂_append_singleton_iff {left : List α} {right : List β}
    (inStep : List.Forall₂ fits left right) (first : α) (second : β) :
    List.Forall₂ fits (left ++ [first]) (right ++ [second]) ↔ fits first second := by
  induction inStep with
  | nil => simp
  | cons here later inductionHypothesis =>
      simp only [List.cons_append, List.forall₂_cons, here, true_and]
      exact inductionHypothesis

/-- After two erasures the lists are in step exactly when every entry that
has moved against the other list fits its new neighbour. -/
theorem forall₂_eraseIdx_iff {left : List α} {right : List β}
    (inStep : List.Forall₂ fits left right) {early late : Nat} (order : early ≤ late)
    (bound : late < left.length) :
    List.Forall₂ fits (left.eraseIdx late) (right.eraseIdx early) ↔
      ∀ position, early ≤ position → position < late → ∀ first second,
        left[position]? = some first → right[position + 1]? = some second →
          fits first second := by
  rcases forall₂_iff_getElem?.mp inStep with ⟨lengths, pairs⟩
  rw [forall₂_iff_getElem?]
  constructor
  · rintro ⟨_, shifted⟩ position lower upper first second atLeft atRight
    apply shifted position first second
    · rw [List.getElem?_eraseIdx_of_lt upper, atLeft]
    · rw [List.getElem?_eraseIdx_of_ge lower, atRight]
  · intro shifted
    refine ⟨?_, ?_⟩
    · rw [List.length_eraseIdx_of_lt bound, List.length_eraseIdx_of_lt (by omega), lengths]
    · intro position first second atLeft atRight
      rcases Nat.lt_or_ge position late with upper | behind
      · rw [List.getElem?_eraseIdx_of_lt upper] at atLeft
        rcases Nat.lt_or_ge position early with before | lower
        · rw [List.getElem?_eraseIdx_of_lt before] at atRight
          exact pairs position first second atLeft atRight
        · rw [List.getElem?_eraseIdx_of_ge lower] at atRight
          exact shifted position lower upper first second atLeft atRight
      · rw [List.getElem?_eraseIdx_of_ge behind] at atLeft
        rw [List.getElem?_eraseIdx_of_ge (Nat.le_trans order behind)] at atRight
        exact pairs (position + 1) first second atLeft atRight

/-- Two erasures from one list leave the same exactly when the entries
between them are all equal. -/
theorem eraseIdx_eq_eraseIdx_iff {list : List α} {early late : Nat} (order : early ≤ late)
    (bound : late < list.length) :
    list.eraseIdx early = list.eraseIdx late ↔
      ∀ position, early ≤ position → position < late →
        list[position + 1]? = list[position]? := by
  have inStep : List.Forall₂ Eq list list := by
    rw [List.forall₂_eq_eq_eq]
  have shifted := forall₂_eraseIdx_iff inStep order bound
  rw [List.forall₂_eq_eq_eq, eq_comm] at shifted
  rw [shifted]
  apply forall_congr'
  intro position
  apply forall_congr'
  intro lower
  apply forall_congr'
  intro upper
  have inside : position < list.length := Nat.lt_trans upper bound
  have next : position + 1 < list.length := Nat.lt_of_le_of_lt upper bound
  rw [List.getElem?_eq_getElem inside, List.getElem?_eq_getElem next]
  simp [eq_comm]

end Sequence
end Ntrip
