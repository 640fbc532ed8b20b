import Ntrip.Foundation.Splitting
import Ntrip.Util.Text

namespace Ntrip

/-!
# The caster's `StringSplit`

The loop keeps the source's two positions.  An empty separator would leave
them where they are, so the loop is bounded by fuel and answers `none` when
the fuel runs out; both callers pass a non-empty literal.
-/

open Sequence

/-- `item` with the separator behind it when `append_div_str` is set. -/
def splitItem (item divStr : Bytes) (appendDivStr : Bool) : Bytes :=
  if appendDivStr then item ++ divStr else item

/-- The `while` loop and the tail test of `StringSplit`. -/
def splitLoop (src divStr : Bytes) (appendDivStr : Bool) :
    Nat → Nat → Option Nat → List Bytes → Option (List Bytes)
  | 0, _, _, _ => none
  | _ + 1, posBegin, none, out =>
      if posBegin + divStr.length ≤ src.length then
        some (out ++ [splitItem (substr src posBegin (src.length - posBegin)) divStr appendDivStr])
      else some out
  | fuel + 1, posBegin, some divPosBegin, out =>
      let len := divPosBegin - posBegin
      let out :=
        if len > 0 then out ++ [splitItem (substr src posBegin len) divStr appendDivStr] else out
      let posBegin := divPosBegin + divStr.length
      splitLoop src divStr appendDivStr fuel posBegin (findFrom src divStr posBegin) out

/-- `StringSplit` into a non-null vector.  Each round of the loop passes one
separator, so one unit of fuel a byte and one for the tail are enough. -/
def stringSplit (src divStr : Bytes) (appendDivStr : Bool) : List Bytes :=
  (splitLoop src divStr appendDivStr (src.length + 1) 0 (find src divStr) []).getD []

/-- A text of lines that end in the separator and lack its first byte. -/
def joinLines (divStr : Bytes) (lines : List Bytes) : Bytes :=
  (lines.map (· ++ divStr)).flatten

theorem joinLines_cons (divStr line : Bytes) (rest : List Bytes) :
    joinLines divStr (line :: rest) = line ++ divStr ++ joinLines divStr rest := by
  simp [joinLines]

theorem joinLines_append (divStr : Bytes) (before after : List Bytes) :
    joinLines divStr (before ++ after) = joinLines divStr before ++ joinLines divStr after := by
  simp [joinLines]

/-- A beginning of a joined text is all of it, or it ends inside a line or its
separator. -/
theorem prefix_joinLines {divStr piece : Bytes} {lines : List Bytes}
    (part : piece <+: joinLines divStr lines) :
    piece = joinLines divStr lines ∨ ∃ before line after tail, lines = before ++ line :: after ∧
      piece = joinLines divStr before ++ tail ∧ tail <+: line ++ divStr ∧ tail ≠ line ++ divStr := by
  induction lines generalizing piece with
  | nil => exact Or.inl (List.prefix_nil.mp part)
  | cons line rest inductionHypothesis =>
      by_cases inside : piece <+: line ++ divStr ∧ piece ≠ line ++ divStr
      · exact Or.inr ⟨[], line, rest, piece, rfl, rfl, inside.1, inside.2⟩
      · have longer : line ++ divStr <+: piece := by
          rw [joinLines_cons] at part
          rcases List.prefix_or_prefix_of_prefix part (List.prefix_append _ _) with short | long
          · have same := not_and_not_right.mp inside short
            rw [same]
          · exact long
        rcases longer with ⟨later, rfl⟩
        rw [joinLines_cons, List.prefix_append_right_inj] at part
        rcases inductionHypothesis part with whole | ⟨before, cut, after, tail, split, shape, ends⟩
        · exact Or.inl (by rw [joinLines_cons, whole])
        · refine Or.inr ⟨line :: before, cut, after, tail, by rw [split]; rfl, ?_, ends⟩
          rw [shape, joinLines_cons, List.append_assoc (line ++ divStr)]

/-- What is left behind the last separator: an item when it is at least as
long as the separator. -/
def splitTail (tail divStr : Bytes) (appendDivStr : Bool) : List Bytes :=
  if divStr.length ≤ tail.length then [splitItem tail divStr appendDivStr] else []

/-! ## The pieces -/

/-- The loop on what is left behind the text that it has passed. -/
theorem splitLoop_separated {divStr text tail : Bytes} {pieces : List Bytes}
    (separated : Separated divStr text pieces tail) (appendDivStr : Bool) (front : Bytes)
    {fuel : Nat} (enough : pieces.length < fuel) (out : List Bytes) :
    splitLoop (front ++ text) divStr appendDivStr fuel front.length
        (findFrom (front ++ text) divStr front.length) out =
      some (out ++ ((pieces.filter (· ≠ [])).map (splitItem · divStr appendDivStr) ++
        splitTail tail divStr appendDivStr)) := by
  induction separated generalizing front fuel out with
  | @last text absent =>
      cases fuel with
      | zero => exact absurd enough (Nat.not_lt_zero _)
      | succ fuel =>
          have rest : substr (front ++ text) front.length text.length = text := by
            rw [substr, List.drop_left, List.take_length]
          rw [findFrom_append, (find_eq_none_iff _ _).mpr absent, Option.map_none, splitLoop,
            List.length_append, Nat.add_sub_cancel_left, rest]
          simp only [Nat.add_le_add_iff_left, splitTail]
          split_ifs
          · rfl
          · simp
  | @piece text before rest tail pieces found later inductionHypothesis =>
      cases fuel with
      | zero => exact absurd enough (Nat.not_lt_zero _)
      | succ fuel =>
          have item : substr (front ++ text) front.length before.length = before := by
            rw [found.split]
            exact substr_append front before _
          have regroup : front ++ text = (front ++ before ++ divStr) ++ rest := by
            rw [found.split]
            simp only [List.append_assoc]
          have passed : (front ++ before ++ divStr).length =
              before.length + front.length + divStr.length := by
            simp only [List.length_append]
            omega
          have next := inductionHypothesis (front ++ before ++ divStr)
            (Nat.lt_of_succ_lt_succ enough)
            (if before.length > 0 then out ++ [splitItem before divStr appendDivStr] else out)
          rw [findFrom_append, find_of_firstOccurrence found, Option.map_some, splitLoop,
            Nat.add_sub_cancel, item, ← passed, regroup, next]
          cases before with
          | nil => simp
          | cons head before => simp

/-- The fuel lasts, and the items are the pieces that are not empty; the last
piece is an item when it is at least as long as the separator. -/
theorem splitLoop_start {divStr src tail : Bytes} {pieces : List Bytes}
    (separated : Separated divStr src pieces tail) (nonempty : divStr ≠ []) (appendDivStr : Bool) :
    splitLoop src divStr appendDivStr (src.length + 1) 0 (find src divStr) [] =
      some ((pieces.filter (· ≠ [])).map (splitItem · divStr appendDivStr) ++
        splitTail tail divStr appendDivStr) := by
  have enough := Nat.lt_succ_of_le (separated.length_pieces_le nonempty)
  have whole := splitLoop_separated separated appendDivStr [] enough []
  rwa [List.nil_append, List.length_nil, findFrom_zero, List.nil_append] at whole

theorem stringSplit_separated {divStr src tail : Bytes} {pieces : List Bytes}
    (separated : Separated divStr src pieces tail) (nonempty : divStr ≠ []) (appendDivStr : Bool) :
    stringSplit src divStr appendDivStr =
      (pieces.filter (· ≠ [])).map (splitItem · divStr appendDivStr) ++
        splitTail tail divStr appendDivStr := by
  rw [stringSplit, splitLoop_start separated nonempty appendDivStr]
  rfl

/-- The text behind the last separator is treated as a piece exactly when it
is empty or at least as long as the separator. -/
theorem splitTail_iff {divStr : Bytes} (nonempty : divStr ≠ []) (tail : Bytes)
    (appendDivStr : Bool) :
    splitTail tail divStr appendDivStr =
        ([tail].filter (· ≠ [])).map (splitItem · divStr appendDivStr) ↔
      tail = [] ∨ divStr.length ≤ tail.length := by
  have positive := List.length_pos_of_ne_nil nonempty
  unfold splitTail
  by_cases empty : tail = []
  · subst empty
    rw [List.length_nil, if_neg (Nat.not_le_of_lt positive)]
    exact iff_of_true rfl (Or.inl rfl)
  · have item : [tail].filter (· ≠ []) = [tail] := by simp [empty]
    rw [item]
    by_cases long : divStr.length ≤ tail.length
    · rw [if_pos long]
      exact iff_of_true rfl (Or.inr long)
    · rw [if_neg long]
      exact iff_of_false (List.cons_ne_nil _ _).symm (not_or.mpr ⟨empty, long⟩)

/-- For every separator that is not empty the loop ends, and its items are the
pieces of the text that are not empty, exactly when the last piece is empty or
at least as long as the separator. -/
theorem string_split_iff (src divStr : Bytes) (appendDivStr : Bool) (nonempty : divStr ≠ []) :
    splitLoop src divStr appendDivStr (src.length + 1) 0 (find src divStr) [] =
        some (stringSplit src divStr appendDivStr) ∧
      ∃ pieces tail, Separated divStr src pieces tail ∧
        (stringSplit src divStr appendDivStr =
            ((pieces ++ [tail]).filter (· ≠ [])).map (splitItem · divStr appendDivStr) ↔
          tail = [] ∨ divStr.length ≤ tail.length) := by
  rcases exists_separated nonempty src with ⟨pieces, tail, separated⟩
  have items := stringSplit_separated separated nonempty appendDivStr
  refine ⟨?_, pieces, tail, separated, ?_⟩
  · rw [items]
    exact splitLoop_start separated nonempty appendDivStr
  · rw [items, List.filter_append, List.map_append, List.append_right_inj]
    exact splitTail_iff nonempty tail appendDivStr

theorem string_split_semicolons :
    splitLoop (ascii "a;;bc") (ascii ";") false 6 0 (find (ascii "a;;bc") (ascii ";")) [] =
      some [ascii "a", ascii "bc"] := by
  have items : stringSplit (ascii "a;;bc") (ascii ";") false = [ascii "a", ascii "bc"] := by decide
  rw [← items]
  exact (string_split_iff (ascii "a;;bc") (ascii ";") false (by decide)).1

section Lines

variable (letter : UInt8) (more : Bytes) (appendDivStr : Bool)

theorem separated_joinLines {lines : List Bytes} {tail : Bytes}
    (fresh : ∀ line ∈ lines, letter ∉ line) (last : ¬ letter :: more <:+: tail) :
    Separated (letter :: more) (joinLines (letter :: more) lines ++ tail) lines tail := by
  induction lines with
  | nil => exact .last last
  | cons line rest inductionHypothesis =>
      have parts := List.forall_mem_cons.mp fresh
      have shape : joinLines (letter :: more) (line :: rest) ++ tail =
          line ++ (letter :: more ++ (joinLines (letter :: more) rest ++ tail)) := by
        rw [joinLines_cons]
        simp only [List.append_assoc]
      rw [shape]
      exact .piece (firstOccurrence_of_notMem parts.1 _) (inductionHypothesis parts.2)

/-- Lines without the separator's first byte come back as they were joined,
the empty ones dropped, and what follows the last separator comes last. -/
theorem stringSplit_joinLines (lines : List Bytes) (tail : Bytes)
    (fresh : ∀ line ∈ lines, letter ∉ line) (last : ¬ letter :: more <:+: tail) :
    stringSplit (joinLines (letter :: more) lines ++ tail) (letter :: more) appendDivStr =
      (lines.filter (· ≠ [])).map (splitItem · (letter :: more) appendDivStr) ++
        splitTail tail (letter :: more) appendDivStr :=
  stringSplit_separated (separated_joinLines letter more fresh last) (List.cons_ne_nil _ _)
    appendDivStr

end Lines

/-- A single letter behind the last line end is lost. -/
theorem string_split_fails :
    ¬ ∀ (src divStr : Bytes) (appendDivStr : Bool), divStr ≠ [] →
      ∃ pieces tail, Separated divStr src pieces tail ∧
        stringSplit src divStr appendDivStr =
          ((pieces ++ [tail]).filter (· ≠ [])).map (splitItem · divStr appendDivStr) := by
  intro always
  rcases always (ascii "ab\r\nc") crlf true (by decide) with ⟨pieces, tail, separated, items⟩
  have actual : Separated crlf (ascii "ab\r\nc") [ascii "ab"] (ascii "c") :=
    @separated_joinLines 13 [10] [ascii "ab"] (ascii "c") (by decide) (by decide)
  rcases actual.unique separated with ⟨rfl, rfl⟩
  revert items
  decide

/-- Every text is a sequence of joined fields and a last one. -/
theorem exists_joinLines (letter : UInt8) (src : Bytes) :
    ∃ lines tail, src = joinLines [letter] lines ++ tail ∧ (∀ line ∈ lines, letter ∉ line) ∧
      letter ∉ tail := by
  by_cases member : letter ∈ src
  · rcases List.eq_append_cons_of_mem member with ⟨line, rest, shape, fresh⟩
    have shorter : rest.length < src.length := by
      rw [shape, List.length_append, List.length_cons]
      omega
    rcases exists_joinLines letter rest with ⟨lines, tail, joined, freshLines, freshTail⟩
    refine ⟨line :: lines, tail, ?_, List.forall_mem_cons.mpr ⟨fresh, freshLines⟩, freshTail⟩
    rw [shape, joined]
    simp [joinLines]
  · exact ⟨[], src, rfl, fun _ inNil => absurd inNil List.not_mem_nil, member⟩
termination_by src.length

theorem splitOn_joinLines (letter : UInt8) (lines : List Bytes) (tail : Bytes)
    (fresh : ∀ line ∈ lines, letter ∉ line) (freshTail : letter ∉ tail) :
    (joinLines [letter] lines ++ tail).splitOn letter = lines ++ [tail] := by
  induction lines with
  | nil => exact List.splitOn_eq_singleton freshTail
  | cons line rest inductionHypothesis =>
      have parts := List.forall_mem_cons.mp fresh
      have shape : joinLines [letter] (line :: rest) ++ tail =
          line ++ letter :: (joinLines [letter] rest ++ tail) := by
        simp [joinLines]
      rw [shape, List.splitOn_append_cons_self_of_not_mem parts.1, inductionHypothesis parts.2,
        List.cons_append]

/-- At a single letter the pieces are the non-empty fields. -/
theorem stringSplit_letter (letter : UInt8) (src : Bytes) :
    stringSplit src [letter] false = (src.splitOn letter).filter (· ≠ []) := by
  rcases exists_joinLines letter src with ⟨lines, tail, shape, fresh, freshTail⟩
  have last : splitTail tail [letter] false = [tail].filter (· ≠ []) := by
    rcases tail with _ | ⟨head, rest⟩
    · rfl
    · simp [splitTail, splitItem]
  rw [shape, splitOn_joinLines letter lines tail fresh freshTail,
    stringSplit_joinLines letter [] false lines tail fresh
      (not_infix_of_notMem List.mem_cons_self freshTail), List.filter_append, last]
  simp [splitItem]

/-- Letters behind the last field leave no fewer non-empty fields. -/
theorem length_fields_le_append (letter : UInt8) (src : Bytes) {more : Bytes}
    (fresh : letter ∉ more) :
    ((src.splitOn letter).filter (· ≠ [])).length ≤
      (((src ++ more).splitOn letter).filter (· ≠ [])).length := by
  rcases exists_joinLines letter src with ⟨lines, tail, shape, freshLines, freshTail⟩
  have freshMore : letter ∉ tail ++ more := by
    rw [List.mem_append, not_or]
    exact ⟨freshTail, fresh⟩
  rw [shape, List.append_assoc, splitOn_joinLines letter lines tail freshLines freshTail,
    splitOn_joinLines letter lines (tail ++ more) freshLines freshMore, List.filter_append,
    List.filter_append, List.length_append, List.length_append, Nat.add_le_add_iff_left]
  rcases tail with _ | ⟨head, rest⟩
  · exact Nat.zero_le _
  · simp

end Ntrip
