import Mathlib.Data.List.Perm.Basic
import Ntrip.Foundation.Execution
import Ntrip.Foundation.Locality

namespace Ntrip
namespace Sequence

/-!
# Events on separate parts of a list

The state of a machine shows a list, and each event acts on a part of it.  An
event spares another one when it stays out of the part of the other and does
not spoil the condition under which the other is local.  Events that spare
each other pairwise find their parts as they were at the start, and leave the
same letters, up to their order, in whatever order they come.
-/

universe u v w

/-- A machine whose events are local to parts of the list that it shows. -/
structure PartwiseMachine (State : Type u) (Event : Type v) (α : Type w) where
  step : State → Event → State
  shown : State → List α
  part : Event → α → Bool
  action : Event → List α → List α
  Fits : Event → State → Prop
  shown_step : ∀ {event state}, Fits event state → shown (step state event) =
    action event (shown state)
  isLocal : ∀ {event state}, Fits event state → LocalAt (part event) (action event) (shown state)

namespace PartwiseMachine

open Execution

variable {State : Type u} {Event : Type v} {α : Type w} (machine : PartwiseMachine State Event α)

/-- The first event leaves the second one and its part alone. -/
structure Spares (first second : Event) : Prop where
  apart : ∀ letter, machine.part second letter = true → machine.part first letter = false
  fits : ∀ state, machine.Fits first state → machine.Fits second state →
    machine.Fits second (machine.step state first)

def Independent (first second : Event) : Prop :=
  machine.Spares first second ∧ machine.Spares second first

/-- The events are possible in the state and pairwise independent. -/
structure Ready (state : State) (events : List Event) : Prop where
  fits : ∀ event ∈ events, machine.Fits event state
  pairwise : events.Pairwise machine.Independent

variable {machine}

/-- What lies apart from the part of an event stays the same. -/
theorem filter_step {state : State} {event : Event} {other : α → Bool}
    (fits : machine.Fits event state)
    (apart : ∀ letter, other letter = true → machine.part event letter = false) :
    (machine.shown (machine.step state event)).filter other =
      (machine.shown state).filter other := by
  rw [machine.shown_step fits]
  exact (machine.isLocal fits).filter_other apart

theorem Ready.step {state : State} {event : Event} {events : List Event}
    (ready : machine.Ready state (event :: events)) :
    machine.Ready (machine.step state event) events := by
  rcases List.pairwise_cons.mp ready.pairwise with ⟨first, later⟩
  refine ⟨?_, later⟩
  intro other member
  exact (first other member).1.fits state (ready.fits event List.mem_cons_self)
    (ready.fits other (List.mem_cons_of_mem event member))

theorem Ready.perm {state : State} {events order : List Event}
    (ready : machine.Ready state events) (perm : order.Perm events) :
    machine.Ready state order where
  fits := fun event member => ready.fits event (perm.subset member)
  pairwise := (perm.pairwise_iff fun independent => ⟨independent.2, independent.1⟩).mpr
    ready.pairwise

/-- What lies apart from the parts of all events stays the same. -/
theorem filter_run {state : State} {events : List Event} {other : α → Bool}
    (ready : machine.Ready state events)
    (apart : ∀ event ∈ events, ∀ letter, other letter = true →
      machine.part event letter = false) :
    (machine.shown (run machine.step state events)).filter other =
      (machine.shown state).filter other := by
  induction events generalizing state with
  | nil => rfl
  | cons event events inductionHypothesis =>
      have later := inductionHypothesis ready.step fun other member =>
        apart other (List.mem_cons_of_mem event member)
      rw [run, later]
      exact filter_step (ready.fits event List.mem_cons_self) (apart event List.mem_cons_self)

/-- In the end, the part of an event is what the event makes of it. -/
theorem filter_run_part {state : State} {events : List Event}
    (ready : machine.Ready state events) {event : Event} (member : event ∈ events) :
    (machine.shown (run machine.step state events)).filter (machine.part event) =
      machine.action event ((machine.shown state).filter (machine.part event)) := by
  induction events generalizing state with
  | nil => cases member
  | cons head tail inductionHypothesis =>
      have first := (List.pairwise_cons.mp ready.pairwise).1
      have fits := ready.fits head List.mem_cons_self
      rcases List.mem_cons.mp member with rfl | later
      · have kept := filter_run ready.step fun other inTail => (first other inTail).2.apart
        rw [run, kept, machine.shown_step fits, (machine.isLocal fits).inside]
      · rw [run, inductionHypothesis ready.step later,
          filter_step fits (first event later).1.apart]

/-- An event still fits when its turn comes, and finds its part as it was. -/
theorem found_at_turn {state : State} {events : List Event}
    (ready : machine.Ready state events) :
    ∀ now ∈ steps machine.step state events, machine.Fits now.2 now.1 ∧
      (machine.shown now.1).filter (machine.part now.2) =
        (machine.shown state).filter (machine.part now.2) := by
  induction events generalizing state with
  | nil =>
      intro now member
      cases member
  | cons head tail inductionHypothesis =>
      have first := (List.pairwise_cons.mp ready.pairwise).1
      have fits := ready.fits head List.mem_cons_self
      intro now member
      rcases List.mem_cons.mp member with rfl | later
      · exact ⟨fits, rfl⟩
      · rcases inductionHypothesis ready.step now later with ⟨stillFits, same⟩
        have inTail := event_mem_of_mem_steps later
        refine ⟨stillFits, ?_⟩
        rw [same]
        exact filter_step fits (first now.2 inTail).1.apart

/-- Independent events leave the same letters in any order. -/
theorem run_perm {state : State} {events order : List Event}
    (ready : machine.Ready state events) (perm : order.Perm events) :
    (machine.shown (run machine.step state order)).Perm
      (machine.shown (run machine.step state events)) := by
  have reordered := ready.perm perm
  apply perm_of_all_parts (events.map machine.part)
  · intro part member
    rcases List.mem_map.mp member with ⟨event, listed, rfl⟩
    rw [filter_run_part reordered (perm.symm.subset listed), filter_run_part ready listed]
  · have apart : ∀ event ∈ events, ∀ letter,
        ((events.map machine.part).all fun part => !part letter) = true →
          machine.part event letter = false := by
      intro event member letter none
      simpa using List.all_eq_true.mp none _ (List.mem_map_of_mem member)
    rw [filter_run ready apart, filter_run reordered fun event member =>
      apart event (perm.subset member)]

end PartwiseMachine
end Sequence
end Ntrip
