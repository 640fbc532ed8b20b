import Mathlib.Data.List.Induction
import Mathlib.Data.Set.Insert
import Ntrip.Foundation.Execution

namespace Ntrip
namespace Directory

/-!
# A directory of topics

Members claim topics, subscribe to them with the claimant's key, and leave.
A claim succeeds when the topic and the other topics it names are all free; a
leaving member takes its topics with it.  Who hears a member is determined
here by what has happened and in which order, not by how a directory is
stored.
-/

variable {Topic Member Key : Type*}

/-- A claimed topic. -/
structure Entry (Member Key : Type*) where
  publisher : Member
  key : Key
  subscribers : Set Member

/-- The claimed topics with their entries. -/
abbrev Table (Topic Member Key : Type*) := Topic → Option (Entry Member Key)

inductive Action (Topic Member Key : Type*)
  | claim (others : List Topic) (topic : Topic) (member : Member) (key : Key)
  | subscribe (topic : Topic) (member : Member) (key : Key)
  | leave (member : Member)
deriving DecidableEq

/-- No topic is claimed. -/
def empty : Table Topic Member Key := fun _ => none

/-- None of the topics is claimed. -/
def Free (table : Table Topic Member Key) (topics : List Topic) : Prop :=
  ∀ topic ∈ topics, table topic = none

open Classical in
/-- The entry of a claimed topic after a request to subscribe. -/
noncomputable def Entry.enrol (entry : Entry Member Key) (member : Member) (key : Key) :
    Entry Member Key :=
  if entry.key = key then { entry with subscribers := insert member entry.subscribers } else entry

open Classical in
/-- The entry of a claimed topic without a member; no entry without its
publisher. -/
noncomputable def Entry.without (entry : Entry Member Key) (member : Member) :
    Option (Entry Member Key) :=
  if entry.publisher = member then none
  else some { entry with subscribers := entry.subscribers \ {member} }

theorem Entry.without_eq_some_iff {entry next : Entry Member Key} {member : Member} :
    entry.without member = some next ↔ entry.publisher ≠ member ∧
      { entry with subscribers := entry.subscribers \ {member} } = next := by
  unfold Entry.without
  split
  · rename_i same
    exact iff_of_false (Option.some_ne_none next).symm fun parts => parts.1 same
  · rename_i other
    rw [Option.some_inj]
    exact (and_iff_right other).symm

/-- Those who hear a member: the subscribers of its topics. -/
def audience (table : Table Topic Member Key) (member : Member) : Set Member :=
  { other | ∃ topic entry, table topic = some entry ∧ entry.publisher = member ∧
    other ∈ entry.subscribers }

/-- The members that belong to a topic after an action, from those that did
before. -/
def staying (topic : Topic) (key : Key) (members : Set Member) (action : Action Topic Member Key) :
    Set Member :=
  { member | action = .subscribe topic member key ∨ (member ∈ members ∧ action ≠ .leave member) }

/-- The members that have subscribed with the key and have not left since. -/
def joined (topic : Topic) (key : Key) (history : List (Action Topic Member Key)) : Set Member :=
  { member | ∃ before after, history = before ++ .subscribe topic member key :: after ∧
    .leave member ∉ after }

theorem joined_nil (topic : Topic) (key : Key) :
    joined topic key ([] : List (Action Topic Member Key)) = ∅ := by
  apply Set.eq_empty_of_forall_notMem
  rintro member ⟨before, after, split, _⟩
  simp at split

theorem joined_append_singleton (topic : Topic) (key : Key)
    (history : List (Action Topic Member Key)) (action : Action Topic Member Key) :
    joined topic key (history ++ [action]) = staying topic key (joined topic key history) action := by
  ext member
  constructor
  · rintro ⟨before, after, split, stayed⟩
    rcases List.eq_nil_or_concat after with rfl | ⟨earlier, last, rfl⟩
    · exact Or.inl (List.singleton_inj.mp (List.append_inj_right' split rfl))
    · rw [List.concat_eq_append, ← List.cons_append, ← List.append_assoc] at split
      rcases List.append_inj' split rfl with ⟨rest, same⟩
      rw [List.concat_eq_append, List.mem_append, not_or] at stayed
      refine Or.inr ⟨⟨before, earlier, rest, stayed.1⟩, ?_⟩
      intro leaves
      rw [← List.singleton_inj.mp same, leaves] at stayed
      exact stayed.2 List.mem_cons_self
  · rintro (rfl | ⟨⟨before, after, rfl, stayed⟩, remains⟩)
    · exact ⟨history, [], rfl, List.not_mem_nil⟩
    · refine ⟨before, after ++ [action], by simp, ?_⟩
      rw [List.mem_append, not_or, List.mem_singleton]
      exact ⟨stayed, remains.symm⟩

/-! ## One action -/

section Steps

variable [DecidableEq Topic]

open Classical in
noncomputable def step (table : Table Topic Member Key) :
    Action Topic Member Key → Table Topic Member Key
  | .claim others topic member key =>
      if Free table (topic :: others) then
        Function.update table topic (some ⟨member, key, ∅⟩)
      else table
  | .subscribe topic member key =>
      Function.update table topic ((table topic).map (·.enrol member key))
  | .leave member => fun topic => (table topic).bind (·.without member)

variable {table : Table Topic Member Key} {topic : Topic} {entry : Entry Member Key}
  {action : Action Topic Member Key}

theorem step_leave (claimed : table topic = some entry) :
    step table (.leave entry.publisher) topic = none := by
  change (table topic).bind (·.without entry.publisher) = none
  rw [claimed, Option.bind_some, Entry.without, if_pos rfl]

/-- A claimed topic keeps its publisher and its key while the publisher does
not leave. -/
theorem step_of_claimed (claimed : table topic = some entry)
    (stays : action ≠ .leave entry.publisher) :
    step table action topic =
      some ⟨entry.publisher, entry.key, staying topic entry.key entry.subscribers action⟩ := by
  cases action with
  | claim others asked member key =>
      have kept : step table (.claim others asked member key) topic = table topic := by
        rw [step]
        split
        · rename_i free
          apply Function.update_of_ne
          rintro rfl
          rw [free topic List.mem_cons_self] at claimed
          cases claimed
        · rfl
      rw [kept, claimed]
      simp [staying]
  | subscribe asked member key =>
      rw [step, Function.update_apply]
      split
      · rename_i same
        subst same
        rw [claimed, Option.map_some, Entry.enrol]
        by_cases fits : entry.key = key
        · have grown : staying topic entry.key entry.subscribers (.subscribe topic member key) =
              insert member entry.subscribers := by
            ext other
            simp [staying, fits, eq_comm]
          rw [if_pos fits, grown]
        · simp [staying, fits, Ne.symm fits]
      · rename_i other
        rw [claimed]
        simp [staying, Ne.symm other]
  | leave member =>
      have other : entry.publisher ≠ member := fun same => stays (congrArg Action.leave same.symm)
      have fewer : staying topic entry.key entry.subscribers (.leave member) =
          entry.subscribers \ {member} := by
        ext another
        simp [staying, eq_comm]
      change (table topic).bind (·.without member) = _
      rw [claimed, Option.bind_some, Entry.without, if_neg other, fewer]

/-- A free topic can only be claimed. -/
theorem step_of_free (free : table topic = none) :
    step table action topic = some entry ↔
      ∃ others, action = .claim others topic entry.publisher entry.key ∧
        Free table (topic :: others) ∧ entry.subscribers = ∅ := by
  cases action with
  | claim others asked member key =>
      rw [step]
      by_cases possible : Free table (asked :: others)
      · rw [if_pos possible, Function.update_apply]
        by_cases same : topic = asked
        · subst same
          rcases entry with ⟨publisher, word, subscribers⟩
          simp [possible, and_assoc, eq_comm]
        · simp [same, Ne.symm same, free]
      · rw [if_neg possible, free]
        refine iff_of_false (Option.some_ne_none entry).symm ?_
        rintro ⟨more, same, isFree, _⟩
        cases same
        exact possible isFree
  | subscribe asked member key =>
      rw [step, Function.update_apply]
      by_cases same : topic = asked
      · subst same
        simp [free]
      · simp [same, free]
  | leave member => simp [step, free]

/-! ## Whole histories -/

/-- The directory after a history. -/
noncomputable def after (history : List (Action Topic Member Key)) : Table Topic Member Key :=
  Execution.run step empty history

theorem after_append_singleton (history : List (Action Topic Member Key))
    (action : Action Topic Member Key) :
    after (history ++ [action]) = step (after history) action :=
  Execution.run_append empty history [action]

/-- An entry stands when there was a claim to a free topic, its publisher has
not left since, and its subscribers are those who have joined since. -/
def Standing (history : List (Action Topic Member Key)) (topic : Topic)
    (entry : Entry Member Key) : Prop :=
  ∃ front others back, history = front ++ .claim others topic entry.publisher entry.key :: back ∧
    Free (after front) (topic :: others) ∧ .leave entry.publisher ∉ back ∧
      entry.subscribers = joined topic entry.key back

theorem standing_append_singleton {history : List (Action Topic Member Key)} :
    Standing (history ++ [action]) topic entry ↔
      (∃ others, action = .claim others topic entry.publisher entry.key ∧
        Free (after history) (topic :: others) ∧ entry.subscribers = ∅) ∨
      ∃ earlier, Standing history topic ⟨entry.publisher, entry.key, earlier⟩ ∧
        action ≠ .leave entry.publisher ∧
          entry.subscribers = staying topic entry.key earlier action := by
  constructor
  · rintro ⟨front, others, back, split, free, stays, members⟩
    rcases List.eq_nil_or_concat back with rfl | ⟨back, last, rfl⟩
    · rcases List.append_inj' split rfl with ⟨rfl, same⟩
      exact Or.inl ⟨others, List.singleton_inj.mp same, free, by rw [members, joined_nil]⟩
    · rw [List.concat_eq_append] at split stays members
      rw [← List.cons_append, ← List.append_assoc] at split
      rcases List.append_inj' split rfl with ⟨rest, same⟩
      obtain rfl : action = last := List.singleton_inj.mp same
      rw [List.mem_append, not_or, List.mem_singleton] at stays
      refine Or.inr ⟨joined topic entry.key back,
        ⟨front, others, back, rest, free, stays.1, rfl⟩, Ne.symm stays.2, ?_⟩
      rw [members, joined_append_singleton]
  · rintro (⟨others, rfl, free, nobody⟩ | ⟨earlier, standing, stays, members⟩)
    · exact ⟨history, others, [], rfl, free, List.not_mem_nil, by rw [nobody, joined_nil]⟩
    · rcases standing with ⟨front, others, back, rfl, free, stayed, before⟩
      refine ⟨front, others, back ++ [action], by simp, free, ?_, ?_⟩
      · rw [List.mem_append, not_or, List.mem_singleton]
        exact ⟨stayed, stays.symm⟩
      · rw [members, joined_append_singleton]
        exact congrArg (staying topic entry.key · action) before

/-- The directory is determined by what has happened. -/
theorem after_eq_some_iff {history : List (Action Topic Member Key)} {topic : Topic}
    {entry : Entry Member Key} :
    after history topic = some entry ↔ Standing history topic entry := by
  induction history using List.reverseRecOn generalizing entry with
  | nil =>
      refine iff_of_false (Option.some_ne_none entry).symm ?_
      rintro ⟨front, others, back, split, _⟩
      simp at split
  | append_singleton history action inductionHypothesis =>
      rw [after_append_singleton, standing_append_singleton]
      simp only [← inductionHypothesis]
      cases claimed : after history topic with
      | none =>
          rw [step_of_free claimed]
          simp
      | some earlier =>
          have taken : ∀ others, ¬ Free (after history) (topic :: others) := by
            intro others free
            rw [free topic List.mem_cons_self] at claimed
            cases claimed
          by_cases leaves : action = .leave earlier.publisher
          · rw [leaves, step_leave claimed]
            refine iff_of_false (Option.some_ne_none entry).symm ?_
            rintro (⟨others, _, free, _⟩ | ⟨members, same, stays, _⟩)
            · exact taken others free
            · obtain rfl := Option.some.inj same
              exact stays rfl
          · rw [step_of_claimed claimed leaves, Option.some_inj]
            constructor
            · rintro rfl
              exact Or.inr ⟨earlier.subscribers, rfl, leaves, rfl⟩
            · rintro (⟨others, _, free, _⟩ | ⟨members, same, _, subscribers⟩)
              · exact absurd free (taken others)
              · obtain rfl := Option.some.inj same
                rw [← subscribers]

/-- One member has claimed a free topic and not left since, and the other one
has joined the topic since and not left again. -/
def Hears (history : List (Action Topic Member Key)) (member other : Member) : Prop :=
  ∃ front others topic key back, history = front ++ .claim others topic member key :: back ∧
    Free (after front) (topic :: others) ∧ .leave member ∉ back ∧ other ∈ joined topic key back

theorem mem_audience_after_iff {history : List (Action Topic Member Key)} {member other : Member} :
    other ∈ audience (after history) member ↔ Hears history member other := by
  constructor
  · rintro ⟨topic, entry, listed, rfl, subscribed⟩
    rcases after_eq_some_iff.mp listed with ⟨front, others, back, split, free, stays, members⟩
    exact ⟨front, others, topic, entry.key, back, split, free, stays, members ▸ subscribed⟩
  · rintro ⟨front, others, topic, key, back, split, free, stays, subscribed⟩
    exact ⟨topic, ⟨member, key, joined topic key back⟩,
      after_eq_some_iff.mpr ⟨front, others, back, split, free, stays, rfl⟩, rfl, subscribed⟩

end Steps

end Directory
end Ntrip
