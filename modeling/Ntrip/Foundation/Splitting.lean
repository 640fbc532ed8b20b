import Ntrip.Foundation.Search

namespace Ntrip
namespace Sequence

/-!
# Separating a sequence at a pattern

The pieces of a text between the successive leftmost occurrences of a
pattern that do not overlap.  The relation mentions neither positions nor a
direction of search beyond "no earlier occurrence"; for a pattern that is not
empty every text has exactly one separation.
-/

universe u

variable {α : Type u} {pattern text before rest tail : List α} {pieces : List (List α)}

/-- The leftmost occurrence of the pattern, by what is before and behind it. -/
structure FirstOccurrence (pattern text before rest : List α) : Prop where
  split : text = before ++ (pattern ++ rest)
  first : ∀ shorter longer, text = shorter ++ (pattern ++ longer) →
    before.length ≤ shorter.length

/-- The pieces that a separator ends, and the last piece. -/
inductive Separated (pattern : List α) : List α → List (List α) → List α → Prop
  | last {text : List α} : ¬ pattern <:+: text → Separated pattern text [] text
  | piece {text before rest tail : List α} {pieces : List (List α)} :
      FirstOccurrence pattern text before rest → Separated pattern rest pieces tail →
        Separated pattern text (before :: pieces) tail

/-! ## The leftmost occurrence -/

theorem FirstOccurrence.occurs (found : FirstOccurrence pattern text before rest) :
    pattern <:+: text :=
  ⟨before, rest, by rw [found.split, List.append_assoc]⟩

theorem FirstOccurrence.cons {head : α} (absent : ¬ pattern <+: head :: text)
    (found : FirstOccurrence pattern text before rest) :
    FirstOccurrence pattern (head :: text) (head :: before) rest := by
  constructor
  · rw [found.split, List.cons_append]
  · intro shorter longer split
    cases shorter with
    | nil => exact absurd ⟨longer, split.symm⟩ absent
    | cons first shorter =>
        exact Nat.succ_le_succ (found.first shorter longer (List.cons.inj split).2)

theorem exists_firstOccurrence (occurs : pattern <:+: text) :
    ∃ before rest, FirstOccurrence pattern text before rest := by
  induction text with
  | nil =>
      rw [List.infix_nil.mp occurs]
      exact ⟨[], [], rfl, fun _ _ _ => Nat.zero_le _⟩
  | cons head text inductionHypothesis =>
      by_cases here : pattern <+: head :: text
      · rcases here with ⟨rest, split⟩
        exact ⟨[], rest, split.symm, fun _ _ _ => Nat.zero_le _⟩
      · rcases inductionHypothesis ((List.infix_cons_iff.mp occurs).resolve_left here) with
          ⟨before, rest, found⟩
        exact ⟨head :: before, rest, found.cons here⟩

theorem FirstOccurrence.unique {before' rest' : List α}
    (found : FirstOccurrence pattern text before rest)
    (found' : FirstOccurrence pattern text before' rest') : before' = before ∧ rest' = rest := by
  have lengths : before'.length = before.length :=
    Nat.le_antisymm (found'.first _ _ found.split) (found.first _ _ found'.split)
  have parts := List.append_inj (found'.split.symm.trans found.split) lengths
  exact ⟨parts.1, List.append_cancel_left parts.2⟩

/-- What lacks the first letter of the pattern is before its first
occurrence. -/
theorem firstOccurrence_of_notMem {letter : α} {more : List α} (fresh : letter ∉ before)
    (rest : List α) :
    FirstOccurrence (letter :: more) (before ++ (letter :: more ++ rest)) before rest := by
  refine ⟨rfl, ?_⟩
  intro shorter longer split
  rcases List.append_eq_append_iff.mp split with ⟨gap, left, _⟩ | ⟨gap, left, right⟩
  · rw [left, List.length_append]
    exact Nat.le_add_right _ _
  · cases gap with
    | nil => rw [left, List.append_nil]
    | cons head gap =>
        have same : letter = head := (List.cons.inj right).1
        refine absurd ?_ fresh
        rw [left, same]
        exact List.mem_append_right shorter List.mem_cons_self

/-- What follows the occurrence does not matter to it. -/
theorem firstOccurrence_append_iff (rest : List α) :
    FirstOccurrence pattern (before ++ (pattern ++ rest)) before rest ↔
      FirstOccurrence pattern (before ++ pattern) before [] := by
  constructor
  · rintro ⟨_, first⟩
    refine ⟨by rw [List.append_nil], ?_⟩
    intro shorter longer split
    apply first shorter (longer ++ rest)
    rw [← List.append_assoc, split]
    simp only [List.append_assoc]
  · rintro ⟨_, first⟩
    refine ⟨rfl, ?_⟩
    intro shorter longer split
    by_contra earlier
    have inside : shorter ++ pattern <+: before ++ pattern := by
      have whole : shorter ++ pattern <+: before ++ (pattern ++ rest) :=
        ⟨longer, by rw [split, List.append_assoc]⟩
      have cut : before ++ pattern <+: before ++ (pattern ++ rest) :=
        ⟨rest, List.append_assoc _ _ _⟩
      refine List.prefix_of_prefix_length_le whole cut ?_
      rw [List.length_append, List.length_append]
      omega
    rcases inside with ⟨gap, same⟩
    exact earlier (first shorter gap (by rw [← same, List.append_assoc]))

/-- A later beginning leaves the occurrence the first one. -/
theorem FirstOccurrence.drop {front : List α}
    (found : FirstOccurrence pattern (front ++ text) (front ++ before) rest) :
    FirstOccurrence pattern text before rest := by
  constructor
  · exact List.append_cancel_left (found.split.trans (List.append_assoc _ _ _))
  · intro shorter longer split
    have whole := found.first (front ++ shorter) longer (by rw [split, List.append_assoc])
    rw [List.length_append, List.length_append] at whole
    exact Nat.le_of_add_le_add_left whole

/-- The position that a search returns. -/
theorem find_of_firstOccurrence [DecidableEq α]
    (found : FirstOccurrence pattern text before rest) : find text pattern = some before.length := by
  induction before generalizing text with
  | nil =>
      have starts : pattern <+: text := ⟨rest, found.split.symm⟩
      cases text with
      | nil => rw [find, if_pos (List.prefix_nil.mp starts)]; rfl
      | cons head text => rw [find, if_pos starts]; rfl
  | cons head before inductionHypothesis =>
      have split := found.split
      subst split
      have absent : ¬ pattern <+: head :: (before ++ (pattern ++ rest)) := by
        rintro ⟨longer, starts⟩
        exact absurd (found.first [] longer starts.symm) (Nat.not_succ_le_zero _)
      have later : FirstOccurrence pattern (before ++ (pattern ++ rest)) before rest := by
        refine ⟨rfl, ?_⟩
        intro shorter longer same
        have whole := found.first (head :: shorter) longer (by rw [List.cons_append, same]; rfl)
        exact Nat.le_of_succ_le_succ whole
      rw [List.cons_append, find, if_neg absent, inductionHypothesis later]
      rfl

/-! ## Separations -/

/-- Every text has a separation at a pattern that is not empty. -/
theorem exists_separated (nonempty : pattern ≠ []) (text : List α) :
    ∃ pieces tail, Separated pattern text pieces tail := by
  by_cases occurs : pattern <:+: text
  · rcases exists_firstOccurrence occurs with ⟨before, rest, found⟩
    have shorter : rest.length < text.length := by
      have positive := List.length_pos_of_ne_nil nonempty
      rw [found.split, List.length_append, List.length_append]
      omega
    rcases exists_separated nonempty rest with ⟨pieces, tail, later⟩
    exact ⟨before :: pieces, tail, .piece found later⟩
  · exact ⟨[], text, .last occurs⟩
termination_by text.length

/-- It has only one. -/
theorem Separated.unique {pieces' : List (List α)} {tail' : List α}
    (separated : Separated pattern text pieces tail)
    (separated' : Separated pattern text pieces' tail') : pieces' = pieces ∧ tail' = tail := by
  induction separated generalizing pieces' with
  | last absent =>
      cases separated' with
      | last _ => exact ⟨rfl, rfl⟩
      | piece found _ => exact absurd found.occurs absent
  | piece found later inductionHypothesis =>
      cases separated' with
      | last absent => exact absurd found.occurs absent
      | piece found' later' =>
          rcases found.unique found' with ⟨rfl, rfl⟩
          rcases inductionHypothesis later' with ⟨rfl, rfl⟩
          exact ⟨rfl, rfl⟩

/-- Pieces that each end in the pattern's first occurrence, one behind the
other. -/
theorem separated_flatten
    (ends : ∀ piece ∈ pieces, FirstOccurrence pattern (piece ++ pattern) piece [])
    (nonempty : pattern ≠ []) :
    Separated pattern (pieces.map (· ++ pattern)).flatten pieces [] := by
  induction pieces with
  | nil => exact .last fun occurs => nonempty (List.infix_nil.mp occurs)
  | cons piece pieces inductionHypothesis =>
      have parts := List.forall_mem_cons.mp ends
      rw [List.map_cons, List.flatten_cons, List.append_assoc]
      exact .piece ((firstOccurrence_append_iff _).mpr parts.1) (inductionHypothesis parts.2)

/-- Every piece ends at the pattern's first occurrence. -/
theorem Separated.ends (separated : Separated pattern text pieces tail) :
    ¬ pattern <:+: tail ∧
      ∀ piece ∈ pieces, FirstOccurrence pattern (piece ++ pattern) piece [] := by
  induction separated with
  | last absent => exact ⟨absent, fun _ member => absurd member List.not_mem_nil⟩
  | piece found later inductionHypothesis =>
      refine ⟨inductionHypothesis.1, List.forall_mem_cons.mpr ⟨?_, inductionHypothesis.2⟩⟩
      have split := found.split
      subst split
      exact (firstOccurrence_append_iff _).mp found

/-- There are no more pieces than letters. -/
theorem Separated.length_pieces_le (separated : Separated pattern text pieces tail)
    (nonempty : pattern ≠ []) : pieces.length ≤ text.length := by
  have positive := List.length_pos_of_ne_nil nonempty
  induction separated with
  | last _ => exact Nat.zero_le _
  | piece found later inductionHypothesis =>
      rw [found.split, List.length_append, List.length_append, List.length_cons]
      omega

end Sequence
end Ntrip
