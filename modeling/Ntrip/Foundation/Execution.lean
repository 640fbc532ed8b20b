import Mathlib.Logic.Basic

namespace Ntrip
namespace Execution

/-!
# Runs of a deterministic step function

A run is a list of events fed to a total step function.  `Always` speaks of
every state of the run, the first and the last included; `EachStep` speaks
of every state together with the event handled there.  The two run lemmas
turn facts about one step into facts about runs of any length.
-/

universe u v

variable {State : Type u} {Event : Type v} (step : State → Event → State)

/-- The state reached after the events. -/
def run : State → List Event → State
  | state, [] => state
  | state, event :: events => run (step state event) events

/-- The property holds in every state the run passes through. -/
def Always (property : State → Prop) : State → List Event → Prop
  | state, [] => property state
  | state, event :: events => property state ∧ Always property (step state event) events

/-- The condition holds of every event in the state in which it is handled. -/
def EachStep (condition : State → Event → Prop) : State → List Event → Prop
  | _, [] => True
  | state, event :: events =>
      condition state event ∧ EachStep condition (step state event) events

instance decidableAlways (property : State → Prop) [DecidablePred property] :
    (state : State) → (events : List Event) → Decidable (Always step property state events)
  | state, [] => inferInstanceAs (Decidable (property state))
  | state, event :: events =>
      have := decidableAlways property (step state event) events
      inferInstanceAs (Decidable (property state ∧ Always step property (step state event) events))

instance decidableEachStep (condition : State → Event → Prop)
    [∀ state event, Decidable (condition state event)] :
    (state : State) → (events : List Event) → Decidable (EachStep step condition state events)
  | _, [] => isTrue trivial
  | state, event :: events =>
      have := decidableEachStep condition (step state event) events
      inferInstanceAs
        (Decidable (condition state event ∧ EachStep step condition (step state event) events))

variable {step}

theorem Always.first {property : State → Prop} {state : State} {events : List Event}
    (always : Always step property state events) : property state := by
  cases events with
  | nil => exact always
  | cons event events => exact always.1

theorem Always.last {property : State → Prop} {state : State} {events : List Event}
    (always : Always step property state events) : property (run step state events) := by
  induction events generalizing state with
  | nil => exact always
  | cons event events inductionHypothesis => exact inductionHypothesis always.2

/-- What every step preserves holds throughout every run. -/
theorem always_of_preserved {property : State → Prop}
    (preserved : ∀ state event, property state → property (step state event))
    {state : State} (first : property state) (events : List Event) :
    Always step property state events := by
  induction events generalizing state with
  | nil => exact first
  | cons event events inductionHypothesis =>
      exact ⟨first, inductionHypothesis (preserved state event first)⟩

theorem Always.imp {property weaker : State → Prop}
    (implies : ∀ state, property state → weaker state) {state : State} {events : List Event}
    (always : Always step property state events) : Always step weaker state events := by
  induction events generalizing state with
  | nil => exact implies state always
  | cons event events inductionHypothesis =>
      exact ⟨implies state always.1, inductionHypothesis always.2⟩

theorem eachStep_of_forall {condition : State → Event → Prop}
    (holds : ∀ state event, condition state event) (state : State) (events : List Event) :
    EachStep step condition state events := by
  induction events generalizing state with
  | nil => trivial
  | cons event events inductionHypothesis =>
      exact ⟨holds state event, inductionHypothesis (step state event)⟩

theorem eachStep_of_mem {condition : Event → Prop} {state : State} {events : List Event}
    (holds : ∀ event ∈ events, condition event) :
    EachStep step (fun _ event => condition event) state events := by
  induction events generalizing state with
  | nil => trivial
  | cons event events inductionHypothesis =>
      refine ⟨holds event List.mem_cons_self, ?_⟩
      exact inductionHypothesis fun later member => holds later (List.mem_cons_of_mem event member)

/-- When one valid step keeps the property exactly under the condition, a
valid run keeps it throughout exactly when all its steps meet the condition. -/
theorem always_iff_eachStep {property : State → Prop} {valid condition : State → Event → Prop}
    (exact_step : ∀ state event, property state → valid state event →
      (property (step state event) ↔ condition state event))
    {state : State} {events : List Event} (first : property state)
    (steps : EachStep step valid state events) :
    Always step property state events ↔ EachStep step condition state events := by
  induction events generalizing state with
  | nil => exact ⟨fun _ => trivial, fun _ => first⟩
  | cons event events inductionHypothesis =>
      have here := exact_step state event first steps.1
      constructor
      · intro always
        have next : property (step state event) := always.2.first
        exact ⟨here.mp next, (inductionHypothesis next steps.2).mp always.2⟩
      · intro conditions
        have next : property (step state event) := here.mpr conditions.1
        exact ⟨first, (inductionHypothesis next steps.2).mpr conditions.2⟩

/-- What every valid step preserves holds throughout every valid run. -/
theorem always_of_eachStep {property : State → Prop} {valid : State → Event → Prop}
    (preserved : ∀ state event, property state → valid state event → property (step state event))
    {state : State} (first : property state) {events : List Event}
    (steps : EachStep step valid state events) : Always step property state events := by
  induction events generalizing state with
  | nil => exact first
  | cons event events inductionHypothesis =>
      exact ⟨first, inductionHypothesis (preserved state event first steps.1) steps.2⟩

/-! ## One run after another -/

theorem run_append (state : State) (front back : List Event) :
    run step state (front ++ back) = run step (run step state front) back := by
  induction front generalizing state with
  | nil => rfl
  | cons event rest inductionHypothesis => exact inductionHypothesis (step state event)

theorem eachStep_append {condition : State → Event → Prop} {state : State}
    {front back : List Event} :
    EachStep step condition state (front ++ back) ↔
      EachStep step condition state front ∧ EachStep step condition (run step state front) back := by
  induction front generalizing state with
  | nil => exact ⟨fun steps => ⟨trivial, steps⟩, fun parts => parts.2⟩
  | cons event rest inductionHypothesis =>
      rw [List.cons_append, EachStep, EachStep, run, inductionHypothesis, and_assoc]

theorem EachStep.and {condition other : State → Event → Prop} {state : State}
    {events : List Event} (steps : EachStep step condition state events)
    (others : EachStep step other state events) :
    EachStep step (fun state event => condition state event ∧ other state event) state events := by
  induction events generalizing state with
  | nil => trivial
  | cons event events inductionHypothesis =>
      exact ⟨⟨steps.1, others.1⟩, inductionHypothesis steps.2 others.2⟩

/-! ## A view of the state that has a step function of its own -/

section View

variable {Image : Type*} {imageStep : Image → Event → Image} (view : State → Image)
  (commutes : ∀ state event, view (step state event) = imageStep (view state) event)
include commutes

theorem run_view (state : State) (events : List Event) :
    view (run step state events) = run imageStep (view state) events := by
  induction events generalizing state with
  | nil => rfl
  | cons event events inductionHypothesis =>
      rw [run, run, inductionHypothesis, commutes]

theorem eachStep_view {property : State → Prop} {valid : State → Event → Prop}
    {imageValid : Image → Event → Prop}
    (preserved : ∀ state event, property state → property (step state event))
    (permits : ∀ state event, property state → valid state event → imageValid (view state) event)
    {state : State} (first : property state) {events : List Event}
    (steps : EachStep step valid state events) :
    EachStep imageStep imageValid (view state) events := by
  induction events generalizing state with
  | nil => trivial
  | cons event events inductionHypothesis =>
      refine ⟨permits state event first steps.1, ?_⟩
      rw [← commutes]
      exact inductionHypothesis (preserved state event first) steps.2

end View

/-! ## A view in which one event is any number of steps -/

section Stuttering

variable {Image : Type*} {ImageEvent : Type*} {imageStep : Image → ImageEvent → Image}
  {valid : State → Event → Prop} {imageValid : Image → ImageEvent → Prop}

/-- Every valid run of the machine looks like a valid run of the image. -/
theorem exists_run_of_view (view : State → Image)
    (simulates : ∀ state event, valid state event → ∃ seen,
      EachStep imageStep imageValid (view state) seen ∧
        run imageStep (view state) seen = view (step state event))
    {state : State} {events : List Event} (steps : EachStep step valid state events) :
    ∃ seen, EachStep imageStep imageValid (view state) seen ∧
      run imageStep (view state) seen = view (run step state events) := by
  induction events generalizing state with
  | nil => exact ⟨[], trivial, rfl⟩
  | cons event events inductionHypothesis =>
      rcases simulates state event steps.1 with ⟨front, frontValid, frontSame⟩
      rcases inductionHypothesis steps.2 with ⟨back, backValid, backSame⟩
      refine ⟨front ++ back, eachStep_append.mpr ⟨frontValid, ?_⟩, ?_⟩
      · rw [frontSame]
        exact backValid
      · rw [run_append, frontSame, backSame]
        rfl

/-- A run of the machine is the image's run of what each event amounts to. -/
theorem run_flatMap_of_view (view : State → Image) (amounts : Event → List ImageEvent)
    {property : State → Prop}
    (follows : ∀ state event, property state → valid state event →
      property (step state event) ∧
        view (step state event) = run imageStep (view state) (amounts event))
    {state : State} (first : property state) {events : List Event}
    (possible : EachStep step valid state events) :
    view (run step state events) = run imageStep (view state) (events.flatMap amounts) := by
  induction events generalizing state with
  | nil => rfl
  | cons event events inductionHypothesis =>
      rcases follows state event first possible.1 with ⟨next, same⟩
      rw [List.flatMap_cons, run_append, ← same]
      exact inductionHypothesis next possible.2

end Stuttering

/-! ## A machine that follows some of the steps of another -/

section Following

variable (step) in
/-- The states of a run with the events handled there. -/
def steps : State → List Event → List (State × Event)
  | _, [] => []
  | state, event :: events => (state, event) :: steps (step state event) events

theorem steps_append (state : State) (front back : List Event) :
    steps step state (front ++ back) =
      steps step state front ++ steps step (run step state front) back := by
  induction front generalizing state with
  | nil => rfl
  | cons event rest inductionHypothesis =>
      exact congrArg ((state, event) :: ·) (inductionHypothesis (step state event))

theorem event_mem_of_mem_steps {state : State} {events : List Event} {now : State × Event}
    (member : now ∈ steps step state events) : now.2 ∈ events := by
  induction events generalizing state with
  | nil => cases member
  | cons event rest inductionHypothesis =>
      rcases List.mem_cons.mp member with rfl | later
      · exact List.mem_cons_self
      · exact List.mem_cons_of_mem event (inductionHypothesis later)

variable (step) in
/-- The steps that are seen. -/
def seenSteps (seen : State → Event → Bool) (state : State) (events : List Event) :
    List (State × Event) :=
  (steps step state events).filter fun pair => seen pair.1 pair.2

variable {Image : Type*} {Seen : Type*} {imageStep : Image → Event → Image}
  {related : State → Image → Prop} {valid : State → Event → Prop} {seen : State → Event → Bool}
  {observe : State × Event → Seen} {imageObserve : Image × Event → Seen}

/-- A machine that is fed the events that are seen stays related to the other
one and is observed to do the same, when it follows the steps that are seen
and the others do not disturb the relation. -/
theorem run_follows
    (follows : ∀ state image event, related state image → valid state event →
      seen state event = true →
        related (step state event) (imageStep image event) ∧
          observe (state, event) = imageObserve (image, event))
    (ignores : ∀ state image event, related state image → valid state event →
      seen state event = false → related (step state event) image)
    {state : State} {image : Image} (start : related state image) {events : List Event}
    (possible : EachStep step valid state events) :
    related (run step state events)
        (run imageStep image ((seenSteps step seen state events).map Prod.snd)) ∧
      (seenSteps step seen state events).map observe =
        (steps imageStep image ((seenSteps step seen state events).map Prod.snd)).map
          imageObserve := by
  induction events generalizing state image with
  | nil => exact ⟨start, rfl⟩
  | cons event events inductionHypothesis =>
      cases visible : seen state event with
      | true =>
          rcases follows state image event start possible.1 visible with ⟨next, same⟩
          rcases inductionHypothesis next possible.2 with ⟨last, later⟩
          have shape : seenSteps step seen state (event :: events) =
              (state, event) :: seenSteps step seen (step state event) events :=
            List.filter_cons_of_pos visible
          rw [shape]
          exact ⟨last, congrArg₂ List.cons same later⟩
      | false =>
          have shape : seenSteps step seen state (event :: events) =
              seenSteps step seen (step state event) events :=
            List.filter_cons_of_neg (by simp [visible])
          rw [shape]
          exact inductionHypothesis (ignores state image event start possible.1 visible) possible.2

end Following

end Execution
end Ntrip
