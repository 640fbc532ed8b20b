import Ntrip.Foundation.Reordering
import Ntrip.Caster.Batch
import Ntrip.Caster.SideBySide

namespace Ntrip

/-!
# Independent events in any order

`epoll_wait` may report the connections that are ready in any order.  Where
the events are on different descriptors and no two of them are about records
with a common name, the order is of no consequence: each returns, sends and
closes what it would if it came first, and the loop ends with the same records
and the same open descriptors.
-/

open Sequence

namespace Event

/-- The events are on different descriptors and about records without a common
name. -/
def Apart (caster : NtripCaster) (first second : Event) : Prop :=
  first.fd ≠ second.fd ∧ (first.footprint caster).Disjoint (second.footprint caster)

theorem Apart.symm {caster : NtripCaster} {first second : Event}
    (apart : Apart caster first second) : Apart caster second first :=
  ⟨apart.1.symm, fun _ inSecond inFirst => apart.2 inFirst inSecond⟩

instance (caster : NtripCaster) : Std.Symm (Apart caster) :=
  ⟨fun _ _ apart => apart.symm⟩

end Event

/-- The sends of the events are taken, and the events are pairwise apart. -/
structure IndependentEvents (caster : NtripCaster) (events : List Event) : Prop where
  taken : ∀ event ∈ events, event.Taken
  apart : events.Pairwise (Event.Apart caster)

theorem IndependentEvents.perm {caster : NtripCaster} {events order : List Event}
    (independent : IndependentEvents caster events) (perm : order.Perm events) :
    IndependentEvents caster order where
  taken := fun event member => independent.taken event (perm.subset member)
  apart := (perm.pairwise_iff fun apart => apart.symm).mpr independent.apart

/-- The event loop on the mount table.  The part of an event is fixed by the
tables at the start. -/
def tableMachine (start : NtripCaster) :
    PartwiseMachine System Event MountPointInformation where
  step := System.step
  shown := fun sys => sys.caster.mountPointInfos
  part := fun event => named (event.footprint start)
  action := fun event infos => (event.effect infos).2
  Fits := fun event sys => event.Taken ∧
    Covers (event.footprint start) sys.caster.mountPointInfos event
  shown_step := by
    rintro event sys ⟨taken, _⟩
    rw [event.step_caster]
    exact congrArg Prod.snd (effect_eq sys.caster event taken)
  isLocal := fun fits => (effect_local fits.2).1

section Turns

theorem tableMachine_spares {start : NtripCaster} {first second : Event}
    (apart : first.Apart start second) : (tableMachine start).Spares first second where
  apart := named_apart fun _ inSecond inFirst => apart.2 inFirst inSecond
  fits := by
    rintro sys _ ⟨taken, covers⟩
    refine ⟨taken, ?_⟩
    change Covers _ (sys.step first).caster.mountPointInfos second
    rw [first.step_caster]
    exact covers.after apart.1

variable {sys : System} {events : List Event}

theorem tableMachine_ready (independent : IndependentEvents sys.caster events) :
    (tableMachine sys.caster).Ready sys events where
  fits := fun event member => ⟨independent.taken event member, covers_footprint sys.caster event⟩
  pairwise := independent.apart.imp fun apart =>
    ⟨tableMachine_spares apart, tableMachine_spares apart.symm⟩

/-- Each event does outside the tables what it would do at the start. -/
theorem observed_at_turn (independent : IndependentEvents sys.caster events) :
    ∀ now ∈ Execution.steps System.step sys events,
      now.2.observed now.1.caster = now.2.observed sys.caster := by
  intro now member
  rcases PartwiseMachine.found_at_turn (tableMachine_ready independent) now member with
    ⟨⟨taken, covers⟩, same⟩
  have atStart := covers_footprint sys.caster now.2
  -- the records that the event is about, with no others
  let alone : NtripCaster :=
    { mountPointInfos := sys.caster.mountPointInfos.filter (named (now.2.footprint sys.caster))
      ntripStrList := [] }
  have part : Part (now.2.footprint sys.caster) sys.caster alone := rfl
  have part' : Part (now.2.footprint sys.caster) now.1.caster alone := same.symm
  calc now.2.observed now.1.caster
      = now.2.observed alone := (observed_of_part taken covers part').symm
    _ = now.2.observed sys.caster := observed_of_part taken atStart part

end Turns

/-! ## Open descriptors -/

/-- An event does not close a descriptor that another one is about. -/
theorem not_mem_closes {caster : NtripCaster} {first second : Event}
    (apart : first.Apart caster second) : second.fd ∉ first.closes caster := by
  intro closed
  cases first with
  | accept fd => cases closed
  | received fd buffer outcomes =>
      rw [Event.closes] at closed
      split at closed
      · exact apart.1 (List.mem_singleton.mp closed).symm
      · cases closed
  | disconnected fd =>
      rw [Event.closes, disconnect_closes] at closed
      have own : second.fd ∉ [fd] := fun last => apart.1 (List.mem_singleton.mp last).symm
      split at closed
      · rename_i info found
        have member := List.mem_of_find?_eq_some found
        have mentioned := List.find?_some found
        rw [decide_eq_true_iff] at mentioned
        split at closed
        · have listed := (List.mem_append.mp closed).resolve_right own
          have mentioned' := (info.mem_descriptors second.fd).mpr (Or.inr listed)
          exact apart.2
            ((covers_footprint caster (.disconnected fd)).mentioned info member mentioned)
            ((covers_footprint caster second).mentioned info member mentioned')
        · exact own closed
      · exact own closed

theorem isSome_owner_step (sys : System) (event : Event) (fd : Fd) :
    ((sys.step event).owner fd).isSome = true ↔
      event = .accept fd ∨ ((sys.owner fd).isSome = true ∧ fd ∉ event.closes sys.caster) := by
  by_cases newcomer : ∃ fresh, event = .accept fresh
  · rcases newcomer with ⟨fresh, rfl⟩
    rw [System.owner_step_accept]
    by_cases same : fd = fresh
    · simp [same]
    · simp [same, Ne.symm same, Event.closes]
  · have other : ∀ fresh, event ≠ .accept fresh := fun fresh same => newcomer ⟨fresh, same⟩
    have closed : sys.closedBy event = event.closes sys.caster := by
      cases event <;> rfl
    rw [System.owner_step_other sys other, closed]
    by_cases inClosed : fd ∈ event.closes sys.caster
    · simp [inClosed, other]
    · simp [inClosed, other]

/-- When every event of a run closes what it would close at the start, and
nothing that is accepted, a descriptor is open in the end when it is accepted,
or was open and is closed by none. -/
theorem isSome_owner_run {start : NtripCaster} {sys : System} {events : List Event} {fd : Fd}
    (told : ∀ now ∈ Execution.steps System.step sys events,
      now.2.closes now.1.caster = now.2.closes start)
    (spared : Event.accept fd ∈ events → ∀ event ∈ events, fd ∉ event.closes start) :
    ((Execution.run System.step sys events).owner fd).isSome = true ↔
      .accept fd ∈ events ∨
        ((sys.owner fd).isSome = true ∧ ∀ event ∈ events, fd ∉ event.closes start) := by
  induction events generalizing sys with
  | nil => simp [Execution.run]
  | cons event rest inductionHypothesis =>
      have here : event.closes sys.caster = event.closes start :=
        told (sys, event) List.mem_cons_self
      have later := inductionHypothesis
        (fun now member => told now (List.mem_cons_of_mem (sys, event) member))
        (fun accepted other member => spared (List.mem_cons_of_mem event accepted) other
          (List.mem_cons_of_mem event member))
      rw [Execution.run, later, isSome_owner_step, here, List.mem_cons, List.forall_mem_cons]
      constructor
      · rintro (accepted | ⟨rfl | ⟨wasOpen, kept⟩, others⟩)
        · exact Or.inl (Or.inr accepted)
        · exact Or.inl (Or.inl rfl)
        · exact Or.inr ⟨wasOpen, kept, others⟩
      · rintro ((rfl | accepted) | ⟨wasOpen, kept, others⟩)
        · refine Or.inr ⟨Or.inl rfl, ?_⟩
          exact fun other member => spared List.mem_cons_self other (List.mem_cons_of_mem _ member)
        · exact Or.inl accepted
        · exact Or.inr ⟨Or.inr ⟨wasOpen, kept⟩, others⟩

/-- What one of the events accepts is closed by none. -/
theorem not_mem_closes_of_accept {caster : NtripCaster} {events : List Event} {fd : Fd}
    (independent : IndependentEvents caster events) (accepted : Event.accept fd ∈ events) :
    ∀ event ∈ events, fd ∉ event.closes caster := by
  intro event member
  by_cases same : event = .accept fd
  · subst same
    exact List.not_mem_nil
  · exact not_mem_closes (independent.apart.forall member accepted same)

/-! ## Every order -/

/-- Independent events, in any order: each returns, sends and closes what it
would at the start, and in the end the records are the same up to their order
and the same descriptors are open. -/
theorem independent_events_in_any_order (sys : System) {events order : List Event}
    (independent : IndependentEvents sys.caster events) (perm : order.Perm events) :
    (∀ now ∈ Execution.steps System.step sys order,
        now.2.observed now.1.caster = now.2.observed sys.caster) ∧
      (Execution.run System.step sys order).caster.mountPointInfos.Perm
        (Execution.run System.step sys events).caster.mountPointInfos ∧
      ∀ fd, ((Execution.run System.step sys order).owner fd).isSome =
        ((Execution.run System.step sys events).owner fd).isSome := by
  have reordered := independent.perm perm
  refine ⟨observed_at_turn reordered, ?_, ?_⟩
  · exact PartwiseMachine.run_perm (tableMachine_ready independent) perm
  · intro fd
    have told : ∀ {list : List Event}, IndependentEvents sys.caster list →
        ∀ now ∈ Execution.steps System.step sys list,
          now.2.closes now.1.caster = now.2.closes sys.caster :=
      fun independent now member => congrArg (fun seen => seen.2.2)
        (observed_at_turn independent now member)
    apply Bool.eq_iff_iff.mpr
    rw [isSome_owner_run (told reordered) (not_mem_closes_of_accept reordered),
      isSome_owner_run (told independent) (not_mem_closes_of_accept independent), perm.mem_iff]
    simp only [perm.mem_iff]

/-- The caster of the examples, with its connections. -/
def attended : System where
  caster := servedByFiveAndEight
  conns := (((((∅ : Connections).insert 5 0).insert 6 1).insert 7 2).insert 8 3).insert 9 4
  accepted := 5
  history := []

theorem independentEvents_attended :
    IndependentEvents attended.caster [leaving, asking, .accept 10] := by
  have leaves : leaving.footprint attended.caster = [ascii "B"] := by decide
  have asks : asking.footprint attended.caster = [ascii "A", ascii "A"] := by decide
  have unnamed : (Event.accept 10).footprint attended.caster = [] := by decide
  have apart : leaving.Apart attended.caster asking := by
    refine ⟨by decide, ?_⟩
    rw [leaves, asks, List.singleton_disjoint]
    decide
  constructor
  · simp [Event.Taken, leaving, asking]
  · have newcomer : ∀ event : Event, event.fd ≠ 10 →
        event.Apart attended.caster (.accept 10) := by
      intro event other
      refine ⟨other, ?_⟩
      rw [unnamed]
      exact List.disjoint_nil_right _
    simp [apart, newcomer leaving (by decide), newcomer asking (by decide)]

theorem independent_events_in_any_order_attended :
    (Execution.run System.step attended [.accept 10, asking, leaving]).caster.mountPointInfos.Perm
      (Execution.run System.step attended [leaving, asking, .accept 10]).caster.mountPointInfos :=
  (independent_events_in_any_order attended independentEvents_attended
    (List.reverse_perm [leaving, asking, .accept 10])).2.1

end Ntrip
