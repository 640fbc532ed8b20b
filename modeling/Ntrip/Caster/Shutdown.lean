import Mathlib.Data.List.Perm.Basic
import Ntrip.Foundation.Ledger
import Ntrip.Caster.Disconnect
import Ntrip.Caster.ThreadHandler

namespace Ntrip

/-!
# The end of a caster

`Run` obtains the listening socket and the epoll descriptor, the loop obtains
the connections, and `Stop` is called twice, by the application and by the
destructor.  A ledger keeps what the kernel's table holds and what every call
of `close` met.  `Stop` leaves the two members as they are, so that its second
call closes both descriptors again; and it goes by the tables, in which a
connection without a granted request is not.
-/

/-- What a descriptor of the caster can stand for. -/
inductive Holder
  | listening
  | polling
  | connection (id : ConnId)
deriving DecidableEq, Repr

/-- The process around the loop: the tables and connections, the two members
with descriptors, and the ledger. -/
structure Process where
  sys : System
  listenSock : Fd
  epollFd : Option Fd
  ledger : Ledger Fd Holder

/-- What `socket` and `epoll_create` return to `Run`, which ends the process
when the first fails and goes on when the second does. -/
structure Boot where
  listenSock : Fd
  epollFd : Option Fd
  apart : epollFd ≠ some listenSock

/-- The calls of `close` in `ClearAllConnection`, in order. -/
def clearAllConnection (infos : List MountPointInformation) : List Fd :=
  infos.flatMap fun info => info.clientSocketList ++ [info.serverFd]

/-- A descriptor that passes the test `> 0`. -/
def positive (fd : Fd) : List Fd :=
  if fd > 0 then [fd] else []

namespace Process

/-- `NtripCaster::Run`. -/
def run (boot : Boot) : Process where
  sys := .init
  listenSock := boot.listenSock
  epollFd := boot.epollFd
  ledger :=
    let ledger := Ledger.empty.obtain boot.listenSock .listening
    match boot.epollFd with
    | some epollFd => ledger.obtain epollFd .polling
    | none => ledger

/-- What the loop does with one event. -/
def step (process : Process) (event : Event) : Process :=
  { process with
    sys := process.sys.step event
    ledger :=
      match event with
      | .accept fd => process.ledger.obtain fd (.connection process.sys.accepted)
      | .received fd buffer outcomes =>
          if (parseData process.sys.caster outcomes fd buffer).ret < 0 then
            process.ledger.release fd
          else process.ledger
      | .disconnected fd => process.ledger.releaseAll (disconnect process.sys.caster fd).2 }

/-- The descriptors that `Stop` closes, in order. -/
def stopCloses (process : Process) : List Fd :=
  clearAllConnection process.sys.caster.mountPointInfos ++ positive process.listenSock ++
    process.epollFd.toList.flatMap positive

/-- `NtripCaster::Stop`. -/
def stop (process : Process) : Process :=
  { process with
    sys := { process.sys with
      caster := .empty
      conns := System.closeAll process.sys.conns process.stopCloses }
    ledger := process.ledger.releaseAll process.stopCloses }

/-- What the kernel can report: `accept` returns a number that is not open,
only an open connection yields data, and the event of a connection names
neither the listening socket nor the epoll descriptor. -/
def Valid (process : Process) : Event → Prop
  | .accept fd => process.ledger.holder fd = none
  | .received fd buffer _ =>
      (∃ id, process.ledger.holder fd = some (.connection id)) ∧ buffer ≠ [] ∧
        buffer.length ≤ kBufferSize
  | .disconnected fd => fd ≠ process.listenSock ∧ process.epollFd ≠ some fd

/-- The events of a run, each possible in the state in which it is handled. -/
abbrev ValidRun (boot : Boot) (events : List Event) : Prop :=
  Execution.EachStep step Valid (run boot) events

/-- The state in which the worker leaves its loop. -/
abbrev served (boot : Boot) (events : List Event) : Process :=
  Execution.run step (run boot) events

/-- `Stop` of the application and `Stop` of the destructor. -/
def shutdown (process : Process) : Process :=
  process.stop.stop

@[simp] theorem step_sys (process : Process) (event : Event) :
    (process.step event).sys = process.sys.step event := rfl

theorem holder_received (process : Process) (fd : Fd) (buffer : Bytes) (outcomes : SendOutcomes)
    (other : Fd) :
    (process.step (.received fd buffer outcomes)).ledger.holder other =
      if (parseData process.sys.caster outcomes fd buffer).ret < 0 ∧ other = fd then none
      else process.ledger.holder other := by
  by_cases negative : (parseData process.sys.caster outcomes fd buffer).ret < 0
  · simp [step, negative]
  · simp [step, negative]

theorem holder_accept (process : Process) (fd other : Fd) :
    (process.step (.accept fd)).ledger.holder other =
      if other = fd then some (.connection process.sys.accepted)
      else process.ledger.holder other :=
  Ledger.holder_obtain process.ledger fd other _

theorem holder_disconnected (process : Process) (fd other : Fd) :
    (process.step (.disconnected fd)).ledger.holder other =
      if other ∈ (disconnect process.sys.caster fd).2 then none
      else process.ledger.holder other :=
  Ledger.holder_releaseAll process.ledger _ other

/-! ## The ledger and the descriptor table -/

/-- The connections in use are those of the descriptor table. -/
def Agrees (process : Process) : Prop :=
  ∀ fd id, process.ledger.holder fd = some (.connection id) ↔ process.sys.owner fd = some id

theorem agrees_run (boot : Boot) : (run boot).Agrees := by
  intro fd id
  refine iff_of_false ?_ (by simp [run, System.init, System.owner])
  cases polling : boot.epollFd with
  | none => simp [run, polling, ite_eq_iff]
  | some epollFd => simp [run, polling, ite_eq_iff]

theorem agrees_step (process : Process) (event : Event) (agrees : process.Agrees) :
    (process.step event).Agrees := by
  intro other id
  cases event with
  | accept fd =>
      rw [holder_accept]
      by_cases same : other = fd
      · rw [if_pos same, same]
        simp [System.owner, System.step]
      · rw [if_neg same, agrees other id]
        simp [System.owner, System.step, AList.lookup_insert_ne same]
  | received fd buffer outcomes =>
      rw [holder_received]
      by_cases negative : (parseData process.sys.caster outcomes fd buffer).ret < 0
      · simp only [negative, true_and, step_sys, System.step, System.owner, if_true,
          System.lookup_closeAll, List.mem_singleton]
        by_cases same : other = fd
        · simp [same]
        · simpa [same, System.owner] using agrees other id
      · simpa [negative, System.step, System.owner] using agrees other id
  | disconnected fd =>
      rw [holder_disconnected]
      simp only [step_sys, System.step, System.owner, System.lookup_closeAll]
      by_cases closed : other ∈ (disconnect process.sys.caster fd).2
      · simp [closed]
      · simpa [closed, System.owner] using agrees other id

/-- The loop of the process is the loop on its tables. -/
theorem served_sys (boot : Boot) (events : List Event) :
    (served boot events).sys = Execution.run System.step System.init events :=
  Execution.run_view Process.sys step_sys (run boot) events

/-- A run of the process is a run of the loop on its tables. -/
theorem ValidRun.sys {boot : Boot} {events : List Event} (valid : ValidRun boot events) :
    System.ValidRun events := by
  refine Execution.eachStep_view Process.sys step_sys agrees_step ?_ (agrees_run boot) valid
  intro process event agrees possible
  cases event with
  | accept fd =>
      cases owner : process.sys.owner fd with
      | none => exact owner
      | some id =>
          have taken := (agrees fd id).mpr owner
          exact absurd (possible.symm.trans taken) (by simp)
  | received fd buffer outcomes =>
      rcases possible with ⟨⟨id, held⟩, nonempty, short⟩
      have owner := (agrees fd id).mp held
      exact ⟨Option.isSome_of_mem owner, nonempty, short⟩
  | disconnected fd => trivial

theorem agrees_served (boot : Boot) (events : List Event) : (served boot events).Agrees :=
  (Execution.always_of_preserved agrees_step (agrees_run boot) events).last

/-! ## The members keep their descriptors -/

/-- The descriptor has a role of its own and is in no table. -/
structure Reserved (process : Process) (fd : Fd) (role : Holder) : Prop where
  held : process.ledger.holder fd = some role
  unlisted : fd ∉ descriptors process.sys.caster.mountPointInfos

theorem reserved_step {process : Process} {event : Event} {fd : Fd} {role : Holder}
    (reserved : process.Reserved fd role) (apart : ∀ id, role ≠ .connection id)
    (possible : process.Valid event) (elsewhere : event ≠ .disconnected fd) :
    (process.step event).Reserved fd role := by
  cases event with
  | accept fresh =>
      have different : fd ≠ fresh := by
        intro same
        have taken := same ▸ reserved.held
        exact absurd (possible.symm.trans taken) (by simp)
      refine ⟨?_, reserved.unlisted⟩
      rw [holder_accept, if_neg different]
      exact reserved.held
  | received sender buffer outcomes =>
      have different : fd ≠ sender := by
        intro same
        rcases possible.1 with ⟨id, taken⟩
        rw [← same, reserved.held] at taken
        exact apart id (Option.some.inj taken)
      constructor
      · rw [holder_received, if_neg (fun closed => different closed.2)]
        exact reserved.held
      · rw [step_sys]
        change fd ∉ descriptors
          (parseData process.sys.caster outcomes sender buffer).caster.mountPointInfos
        rcases parseData_granted_or process.sys.caster outcomes sender buffer with
          ⟨_, perm⟩ | ⟨_, same⟩
        · intro listed
          rcases List.mem_cons.mp (perm.mem_iff.mp listed) with here | before
          · exact different here
          · exact reserved.unlisted before
        · rw [same]
          exact reserved.unlisted
  | disconnected leaver =>
      have different : fd ≠ leaver := fun same => elsewhere (congrArg Event.disconnected same.symm)
      constructor
      · rw [holder_disconnected, if_neg]
        · exact reserved.held
        · intro closed
          rcases eq_or_mem_of_closed closed with here | listed
          · exact different here
          · exact reserved.unlisted listed
      · intro listed
        have sublist := descriptors_disconnect_sublist process.sys.caster leaver
        exact reserved.unlisted (sublist.subset listed)

/-- The members name the descriptors that `Run` obtained for them. -/
structure MembersHeld (process : Process) : Prop where
  listening : process.Reserved process.listenSock .listening
  polling : ∀ epollFd, process.epollFd = some epollFd → process.Reserved epollFd .polling

theorem membersHeld_run (boot : Boot) : (run boot).MembersHeld := by
  constructor
  · refine ⟨?_, List.not_mem_nil⟩
    change (run boot).ledger.holder boot.listenSock = some .listening
    cases polling : boot.epollFd with
    | none => simp [run, polling]
    | some epollFd =>
        have apart : boot.listenSock ≠ epollFd := by
          intro same
          exact boot.apart (same ▸ polling)
        simp [run, polling, apart]
  · intro epollFd polling
    refine ⟨?_, List.not_mem_nil⟩
    have returned : boot.epollFd = some epollFd := polling
    simp [run, returned]

theorem membersHeld_step (process : Process) (event : Event) (members : process.MembersHeld)
    (possible : process.Valid event) : (process.step event).MembersHeld := by
  constructor
  · refine reserved_step members.listening (fun _ => by simp) possible ?_
    intro same
    rw [same] at possible
    exact possible.1 rfl
  · intro epollFd polling
    refine reserved_step (members.polling epollFd polling) (fun _ => by simp) possible ?_
    intro same
    rw [same] at possible
    exact possible.2 polling

theorem membersHeld_served {boot : Boot} {events : List Event} (valid : ValidRun boot events) :
    (served boot events).MembersHeld :=
  (Execution.always_of_eachStep membersHeld_step (membersHeld_run boot) valid).last

/-! ## What `Stop` closes -/

theorem mem_positive {fd other : Fd} : other ∈ positive fd ↔ other = fd ∧ 0 < fd := by
  unfold positive
  split
  · rename_i above
    simp [above]
  · rename_i zero
    simp [zero]

theorem mem_clearAllConnection {infos : List MountPointInformation} {fd : Fd} :
    fd ∈ clearAllConnection infos ↔ fd ∈ descriptors infos := by
  simp only [clearAllConnection, descriptors, List.mem_flatMap, List.mem_append,
    List.mem_singleton, MountPointInformation.mem_descriptors, or_comm]

theorem mem_stopCloses {process : Process} {fd : Fd} :
    fd ∈ process.stopCloses ↔ fd ∈ descriptors process.sys.caster.mountPointInfos ∨
      (fd = process.listenSock ∧ 0 < fd) ∨ (process.epollFd = some fd ∧ 0 < fd) := by
  rw [stopCloses, List.append_assoc, List.mem_append, List.mem_append, mem_clearAllConnection,
    mem_positive]
  have polled : fd ∈ process.epollFd.toList.flatMap positive ↔
      process.epollFd = some fd ∧ 0 < fd := by
    cases process.epollFd with
    | none => simp
    | some epollFd =>
        simp only [Option.toList_some, List.flatMap_cons, List.flatMap_nil, List.append_nil,
          mem_positive, Option.some.injEq]
        constructor
        · rintro ⟨same, above⟩
          exact ⟨same.symm, same ▸ above⟩
        · rintro ⟨same, above⟩
          exact ⟨same.symm, same ▸ above⟩
  rw [polled]
  constructor
  · rintro (listed | ⟨same, above⟩ | polling)
    · exact Or.inl listed
    · exact Or.inr (Or.inl ⟨same, same ▸ above⟩)
    · exact Or.inr (Or.inr polling)
  · rintro (listed | ⟨same, above⟩ | polling)
    · exact Or.inl listed
    · exact Or.inr (Or.inl ⟨same, same ▸ above⟩)
    · exact Or.inr (Or.inr polling)

theorem stopCloses_stop_subset (process : Process) :
    process.stop.stopCloses ⊆ process.stopCloses := by
  intro fd member
  rcases mem_stopCloses.mp member with listed | rest
  · exact absurd listed List.not_mem_nil
  · exact mem_stopCloses.mpr (Or.inr rest)

theorem holder_stop (process : Process) (fd : Fd) :
    process.stop.ledger.holder fd =
      if fd ∈ process.stopCloses then none else process.ledger.holder fd :=
  Ledger.holder_releaseAll process.ledger process.stopCloses fd

/-- The second `Stop` leaves open what the first one left open. -/
theorem holder_shutdown (process : Process) (fd : Fd) :
    (shutdown process).ledger.holder fd =
      if fd ∈ process.stopCloses then none else process.ledger.holder fd := by
  rw [shutdown, holder_stop, holder_stop]
  by_cases again : fd ∈ process.stop.stopCloses
  · rw [if_pos again, if_pos (stopCloses_stop_subset process again)]
  · rw [if_neg again]

/-- Every `close` of the second `Stop` meets a descriptor that is closed. -/
theorem vain_shutdown {process : Process} {fd : Fd} (again : fd ∈ process.stop.stopCloses) :
    (fd, none) ∈ (shutdown process).ledger.released := by
  have closed : process.stop.ledger.holder fd = none := by
    rw [holder_stop, if_pos (stopCloses_stop_subset process again)]
  exact Ledger.vain_of_holder_eq_none closed again

/-- The connections left open are those in no table, after one call of `Stop`
and after both. -/
theorem connection_left_open_iff {boot : Boot} {events : List Event}
    (valid : ValidRun boot events) (fd : Fd) (id : ConnId) :
    ((served boot events).stop.ledger.holder fd = some (.connection id) ↔
      (served boot events).sys.owner fd = some id ∧
        fd ∉ descriptors (served boot events).sys.caster.mountPointInfos) ∧
    ((shutdown (served boot events)).ledger.holder fd = some (.connection id) ↔
      (served boot events).sys.owner fd = some id ∧
        fd ∉ descriptors (served boot events).sys.caster.mountPointInfos) := by
  have members := membersHeld_served valid
  rw [holder_shutdown, holder_stop, ← agrees_served boot events fd id, and_self]
  constructor
  · intro left
    split at left
    · cases left
    · rename_i spared
      exact ⟨left, fun listed => spared (mem_stopCloses.mpr (Or.inl listed))⟩
  · rintro ⟨held, unlisted⟩
    rw [if_neg, held]
    intro closed
    rcases mem_stopCloses.mp closed with listed | ⟨listening, _⟩ | ⟨polling, _⟩
    · exact unlisted listed
    · rw [listening, members.listening.held] at held
      cases held
    · rw [(members.polling fd polling).held] at held
      cases held

/-! ## The books of a run -/

/-- The books are kept, and connections are numbered below the next number. -/
structure Booked (process : Process) : Prop where
  sound : process.ledger.Sound
  numbered : ∀ id, .connection id ∈ process.ledger.obtained → id < process.sys.accepted

theorem booked_run (boot : Boot) : (run boot).Booked := by
  have listening : (Ledger.empty.obtain boot.listenSock Holder.listening).Sound :=
    Ledger.sound_empty.obtain (Ledger.holder_empty _) List.not_mem_nil
  constructor
  · cases polling : boot.epollFd with
    | none => simpa [run, polling] using listening
    | some epollFd =>
        have apart : epollFd ≠ boot.listenSock := by
          intro same
          exact boot.apart (same ▸ polling)
        have both : ((Ledger.empty.obtain boot.listenSock .listening).obtain epollFd
            Holder.polling).Sound := by
          apply listening.obtain
          · rw [Ledger.holder_obtain, if_neg apart, Ledger.holder_empty]
          · simp [Ledger.obtain, Ledger.empty]
        simpa [run, polling] using both
  · intro id member
    cases polling : boot.epollFd with
    | none => simp [run, polling, Ledger.obtain, Ledger.empty] at member
    | some epollFd => simp [run, polling, Ledger.obtain, Ledger.empty] at member

theorem booked_step (process : Process) (event : Event) (booked : process.Booked)
    (possible : process.Valid event) : (process.step event).Booked := by
  cases event with
  | accept fd =>
      constructor
      · refine booked.sound.obtain possible ?_
        intro member
        exact Nat.lt_irrefl _ (booked.numbered process.sys.accepted member)
      · intro id member
        rcases List.mem_append.mp member with earlier | last
        · exact Nat.lt_succ_of_lt (booked.numbered id earlier)
        · rw [Holder.connection.inj (List.mem_singleton.mp last)]
          exact Nat.lt_succ_self process.sys.accepted
  | received fd buffer outcomes =>
      by_cases negative : (parseData process.sys.caster outcomes fd buffer).ret < 0
      · have closed : (process.step (.received fd buffer outcomes)).ledger =
            process.ledger.release fd := if_pos negative
        exact ⟨closed ▸ booked.sound.release fd, by rw [closed]; exact booked.numbered⟩
      · have same : (process.step (.received fd buffer outcomes)).ledger = process.ledger :=
          if_neg negative
        exact ⟨same ▸ booked.sound, by rw [same]; exact booked.numbered⟩
  | disconnected fd =>
      constructor
      · exact booked.sound.releaseAll (disconnect process.sys.caster fd).2
      · intro id member
        have before : .connection id ∈ process.ledger.obtained := by
          rw [← Ledger.obtained_releaseAll process.ledger (disconnect process.sys.caster fd).2]
          exact member
        exact booked.numbered id before

theorem booked_served {boot : Boot} {events : List Event} (valid : ValidRun boot events) :
    (served boot events).Booked :=
  (Execution.always_of_eachStep booked_step (booked_run boot) valid).last

/-- What is closed is closed once: no descriptor is taken from another. -/
theorem sound_shutdown {boot : Boot} {events : List Event} (valid : ValidRun boot events) :
    (shutdown (served boot events)).ledger.Sound :=
  ((booked_served valid).sound.releaseAll _).releaseAll _

/-! ## When one call of `Stop` would do -/

/-- A hang-up closes open connections only, and each of them once. -/
def ClosesOnce (process : Process) : Event → Prop
  | .disconnected fd =>
      (disconnect process.sys.caster fd).2.Nodup ∧
        ∀ closed ∈ (disconnect process.sys.caster fd).2,
          (process.sys.owner closed).isSome = true
  | _ => True

instance (process : Process) : (event : Event) → Decidable (process.ClosesOnce event)
  | .accept _ => inferInstanceAs (Decidable True)
  | .received _ _ _ => inferInstanceAs (Decidable True)
  | .disconnected _ => inferInstanceAs (Decidable (_ ∧ _))

/-- One of the two members names the descriptor. -/
def IsMember (process : Process) (fd : Fd) : Prop :=
  fd = process.listenSock ∨ process.epollFd = some fd

instance (process : Process) (fd : Fd) : Decidable (process.IsMember fd) :=
  inferInstanceAs (Decidable (_ ∨ _))

/-- A descriptor is in use for a connection or by one of the members. -/
def Accounted (process : Process) : Prop :=
  ∀ fd role, process.ledger.holder fd = some role →
    (∃ id, role = .connection id) ∨ process.IsMember fd

theorem accounted_run (boot : Boot) : (run boot).Accounted := by
  intro fd role held
  cases polling : boot.epollFd with
  | none =>
      have listening : fd = boot.listenSock ∧ Holder.listening = role := by
        simpa [run, polling, ite_eq_iff] using held
      exact Or.inr (Or.inl listening.1)
  | some epollFd =>
      by_cases same : fd = epollFd
      · exact Or.inr (Or.inr (same ▸ polling))
      · have listening : fd = boot.listenSock ∧ Holder.listening = role := by
          simpa [run, polling, ite_eq_iff, same] using held
        exact Or.inr (Or.inl listening.1)

theorem accounted_step (process : Process) (event : Event) (accounted : process.Accounted) :
    (process.step event).Accounted := by
  intro other role held
  cases event with
  | accept fd =>
      rw [holder_accept] at held
      split at held
      · exact Or.inl ⟨_, (Option.some.inj held).symm⟩
      · exact accounted other role held
  | received fd buffer outcomes =>
      rw [holder_received] at held
      split at held
      · cases held
      · exact accounted other role held
  | disconnected fd =>
      rw [holder_disconnected] at held
      split at held
      · cases held
      · exact accounted other role held

theorem accounted_served (boot : Boot) (events : List Event) :
    (served boot events).Accounted :=
  (Execution.always_of_preserved accounted_step (accounted_run boot) events).last

/-- Apart from the two members, what is in use is an open connection. -/
theorem holder_ne_none_iff {process : Process} (agrees : process.Agrees)
    (accounted : process.Accounted) {fd : Fd} (apart : ¬ process.IsMember fd) :
    process.ledger.holder fd ≠ none ↔ (process.sys.owner fd).isSome = true := by
  rw [Option.isSome_iff_exists, Option.ne_none_iff_exists']
  constructor
  · rintro ⟨role, held⟩
    rcases accounted fd role held with ⟨id, rfl⟩ | member
    · exact ⟨id, (agrees fd id).mp held⟩
    · exact absurd member apart
  · rintro ⟨id, owns⟩
    exact ⟨_, (agrees fd id).mpr owns⟩

/-- A member's descriptor has a role of its own. -/
theorem MembersHeld.exists_reserved {process : Process} (members : process.MembersHeld) {fd : Fd}
    (member : process.IsMember fd) :
    ∃ role, process.Reserved fd role ∧ ∀ id, role ≠ .connection id := by
  rcases member with rfl | polling
  · exact ⟨_, members.listening, fun _ => by simp⟩
  · exact ⟨_, members.polling fd polling, fun _ => by simp⟩

/-- What a hang-up closes is the descriptor itself or in the tables, so it is
no member's. -/
theorem apart_of_closed {process : Process} (members : process.MembersHeld) {fd closed : Fd}
    (possible : process.Valid (.disconnected fd))
    (member : closed ∈ (disconnect process.sys.caster fd).2) : ¬ process.IsMember closed := by
  rcases eq_or_mem_of_closed member with here | listed
  · rw [here]
    exact not_or.mpr possible
  · intro isMember
    rcases members.exists_reserved isMember with ⟨role, reserved, _⟩
    exact reserved.unlisted listed

/-- One event closes nothing in vain exactly when it is no hang-up that does. -/
theorem noneInVain_step {process : Process} (agrees : process.Agrees)
    (accounted : process.Accounted) (members : process.MembersHeld) {event : Event}
    (possible : process.Valid event) :
    (∀ call ∈ (process.step event).ledger.released, call.2 ≠ none) ↔
      (∀ call ∈ process.ledger.released, call.2 ≠ none) ∧ process.ClosesOnce event := by
  cases event with
  | accept fd => exact (and_iff_left trivial).symm
  | received fd buffer outcomes =>
      change _ ↔ _ ∧ True
      rw [and_true]
      by_cases negative : (parseData process.sys.caster outcomes fd buffer).ret < 0
      · have closed : (process.step (.received fd buffer outcomes)).ledger =
            process.ledger.releaseAll [fd] := if_pos negative
        rcases possible.1 with ⟨id, held⟩
        rw [closed, Ledger.noneInVain_releaseAll_iff]
        simp [held]
      · have same : (process.step (.received fd buffer outcomes)).ledger = process.ledger :=
          if_neg negative
        rw [same]
  | disconnected fd =>
      have closed : (process.step (.disconnected fd)).ledger =
          process.ledger.releaseAll (disconnect process.sys.caster fd).2 := rfl
      rw [closed, Ledger.noneInVain_releaseAll_iff, ClosesOnce]
      have inUse : (∀ other ∈ (disconnect process.sys.caster fd).2,
          process.ledger.holder other ≠ none) ↔
            ∀ other ∈ (disconnect process.sys.caster fd).2,
              (process.sys.owner other).isSome = true := by
        apply forall₂_congr
        intro other member
        exact holder_ne_none_iff agrees accounted (apart_of_closed members possible member)
      rw [inUse]

theorem noneInVain_run {process : Process} (agrees : process.Agrees)
    (accounted : process.Accounted) (members : process.MembersHeld) {events : List Event}
    (valid : Execution.EachStep step Valid process events) :
    (∀ call ∈ (Execution.run step process events).ledger.released, call.2 ≠ none) ↔
      (∀ call ∈ process.ledger.released, call.2 ≠ none) ∧
        Execution.EachStep step ClosesOnce process events := by
  induction events generalizing process with
  | nil => exact (and_iff_left trivial).symm
  | cons event events inductionHypothesis =>
      rw [Execution.run, inductionHypothesis (agrees_step process event agrees)
        (accounted_step process event accounted) (membersHeld_step process event members valid.1)
        valid.2, noneInVain_step agrees accounted members valid.1, and_assoc]
      rfl

theorem clearAllConnection_perm (infos : List MountPointInformation) :
    (clearAllConnection infos).Perm (descriptors infos) :=
  List.Perm.flatMap_left infos fun info _ =>
    List.perm_append_singleton info.serverFd info.clientSocketList

/-- `Stop` closes the connections of the tables, and each member that is above
zero once. -/
theorem nodup_stopCloses_iff {process : Process} (members : process.MembersHeld) :
    process.stopCloses.Nodup ↔ (descriptors process.sys.caster.mountPointInfos).Nodup := by
  have single : ∀ fd, (positive fd).Nodup := by
    intro fd
    unfold positive
    split
    · exact List.nodup_singleton fd
    · exact List.nodup_nil
  have polls : (process.epollFd.toList.flatMap positive).Nodup := by
    cases process.epollFd with
    | none => exact List.nodup_nil
    | some epollFd => simpa using single epollFd
  have isPolling : ∀ fd ∈ process.epollFd.toList.flatMap positive, process.epollFd = some fd := by
    intro fd member
    rcases List.mem_flatMap.mp member with ⟨epollFd, polling, inPositive⟩
    rw [(mem_positive.mp inPositive).1]
    exact Option.mem_toList.mp polling
  rw [stopCloses, List.nodup_append, List.nodup_append,
    (clearAllConnection_perm process.sys.caster.mountPointInfos).nodup_iff]
  constructor
  · exact fun parts => parts.1.1
  · intro distinct
    refine ⟨⟨distinct, single _, ?_⟩, polls, ?_⟩
    · intro fd listed other listening same
      rw [mem_clearAllConnection] at listed
      rw [same, (mem_positive.mp listening).1] at listed
      exact members.listening.unlisted listed
    · intro fd earlier other polling same
      have held := (members.polling other (isPolling other polling))
      rw [← same] at held
      rcases List.mem_append.mp earlier with listed | listening
      · exact held.unlisted (mem_clearAllConnection.mp listed)
      · have other := held.held
        rw [(mem_positive.mp listening).1, members.listening.held] at other
        cases other

/-- `Stop` closes a member exactly when it is above zero. -/
theorem mem_stopCloses_of_isMember {process : Process} (members : process.MembersHeld) {fd : Fd}
    (member : process.IsMember fd) : fd ∈ process.stopCloses ↔ 0 < fd := by
  rw [mem_stopCloses]
  constructor
  · rintro (listed | ⟨_, above⟩ | ⟨_, above⟩)
    · rcases members.exists_reserved member with ⟨role, reserved, _⟩
      exact absurd listed reserved.unlisted
    · exact above
    · exact above
  · intro above
    exact Or.inr (member.imp (fun same => ⟨same, above⟩) fun same => ⟨same, above⟩)

/-- Of the others `Stop` closes those in the tables. -/
theorem mem_stopCloses_of_apart {process : Process} {fd : Fd} (apart : ¬ process.IsMember fd) :
    fd ∈ process.stopCloses ↔ fd ∈ descriptors process.sys.caster.mountPointInfos := by
  rw [mem_stopCloses]
  exact or_iff_left fun member => apart (member.imp And.left And.left)

/-- What is in use is what `Stop` closes when the members are above zero and
the tables list the open connections. -/
theorem closes_all_iff {process : Process} (members : process.MembersHeld)
    (agrees : process.Agrees) (accounted : process.Accounted) :
    (∀ fd, process.ledger.holder fd ≠ none ↔ fd ∈ process.stopCloses) ↔
      (0 < process.listenSock ∧ ∀ epollFd ∈ process.epollFd, 0 < epollFd) ∧
        ∀ fd, fd ∈ descriptors process.sys.caster.mountPointInfos ↔
          (process.sys.owner fd).isSome = true := by
  have inUse : ∀ {fd}, process.IsMember fd → process.ledger.holder fd ≠ none := by
    intro fd member
    rcases members.exists_reserved member with ⟨role, reserved, _⟩
    rw [reserved.held]
    exact Option.some_ne_none role
  have unlisted : ∀ {fd}, process.IsMember fd →
      (fd ∈ descriptors process.sys.caster.mountPointInfos ↔
        (process.sys.owner fd).isSome = true) := by
    intro fd member
    rcases members.exists_reserved member with ⟨role, reserved, apart⟩
    refine iff_of_false reserved.unlisted fun taken => ?_
    rcases Option.isSome_iff_exists.mp taken with ⟨id, owns⟩
    exact apart id (Option.some.inj (reserved.held.symm.trans ((agrees fd id).mpr owns)))
  constructor
  · intro exactly
    have above : ∀ {fd}, process.IsMember fd → 0 < fd := by
      intro fd member
      exact (mem_stopCloses_of_isMember members member).mp ((exactly fd).mp (inUse member))
    refine ⟨⟨above (Or.inl rfl), fun epollFd polling => above (Or.inr polling)⟩, fun fd => ?_⟩
    by_cases member : process.IsMember fd
    · exact unlisted member
    · rw [← holder_ne_none_iff agrees accounted member, exactly, mem_stopCloses_of_apart member]
  · rintro ⟨⟨listening, polling⟩, listed⟩ fd
    by_cases member : process.IsMember fd
    · refine iff_of_true (inUse member) ((mem_stopCloses_of_isMember members member).mpr ?_)
      rcases member with rfl | polled
      · exact listening
      · exact polling fd polled
    · rw [holder_ne_none_iff agrees accounted member, ← listed, mem_stopCloses_of_apart member]

/-- The members are as `Run` has set them. -/
theorem members_served (boot : Boot) (events : List Event) :
    (served boot events).listenSock = boot.listenSock ∧
      (served boot events).epollFd = boot.epollFd := by
  have kept : ∀ (process : Process) (event : Event),
      process.listenSock = boot.listenSock ∧ process.epollFd = boot.epollFd →
        (process.step event).listenSock = boot.listenSock ∧
          (process.step event).epollFd = boot.epollFd :=
    fun _ _ same => same
  have first : (run boot).listenSock = boot.listenSock ∧ (run boot).epollFd = boot.epollFd :=
    ⟨rfl, rfl⟩
  exact (Execution.always_of_preserved kept first events).last

/-- A single `Stop` balances the books exactly when every hang-up of the run
closed open connections, each once, both members are above zero, and the
tables list the open connections, each once. -/
theorem stop_balanced_iff {boot : Boot} {events : List Event} (valid : ValidRun boot events) :
    (served boot events).stop.ledger.Balanced ↔
      Execution.EachStep step ClosesOnce (run boot) events ∧
        (0 < boot.listenSock ∧ ∀ epollFd ∈ boot.epollFd, 0 < epollFd) ∧
        (descriptors (served boot events).sys.caster.mountPointInfos).Nodup ∧
        ∀ fd, fd ∈ descriptors (served boot events).sys.caster.mountPointInfos ↔
          ((served boot events).sys.owner fd).isSome = true := by
  have members := membersHeld_served valid
  have agrees := agrees_served boot events
  have accounted := accounted_served boot events
  have inVain := noneInVain_run (agrees_run boot) (accounted_run boot) (membersHeld_run boot) valid
  have fresh : ∀ call ∈ (run boot).ledger.released, call.2 ≠ none := by
    intro call member
    cases polling : boot.epollFd with
    | none => simp [run, polling, Ledger.obtain, Ledger.empty] at member
    | some epollFd => simp [run, polling, Ledger.obtain, Ledger.empty] at member
  rcases members_served boot events with ⟨listenSock, epollFd⟩
  rw [stop, Ledger.Sound.balanced_releaseAll_iff (booked_served valid).sound, inVain,
    and_iff_right fresh, nodup_stopCloses_iff members, ← listenSock, ← epollFd]
  generalize served boot events = process at members agrees accounted
  apply and_congr_right
  intro _
  rw [and_left_comm]
  apply and_congr_right
  intro _
  exact closes_all_iff members agrees accounted

/-- The listening socket is closed twice, or, under the number zero, never. -/
theorem shutdown_not_balanced {boot : Boot} {events : List Event}
    (valid : ValidRun boot events) : ¬ (shutdown (served boot events)).ledger.Balanced := by
  intro balanced
  have members := membersHeld_served valid
  by_cases above : 0 < (served boot events).listenSock
  · have again : (served boot events).listenSock ∈ (served boot events).stop.stopCloses :=
      mem_stopCloses.mpr (Or.inr (Or.inl ⟨rfl, above⟩))
    exact balanced.noneInVain _ (vain_shutdown again) rfl
  · have spared : (served boot events).listenSock ∉ (served boot events).stopCloses := by
      intro closed
      rcases mem_stopCloses.mp closed with listed | ⟨_, positive⟩ | ⟨_, positive⟩
      · exact members.listening.unlisted listed
      · exact above positive
      · exact above positive
    have left := balanced.nothingLeft (served boot events).listenSock
    rw [holder_shutdown, if_neg spared, members.listening.held] at left
    cases left

/-- `Run` with the usual two numbers. -/
def threeAndFour : Boot where
  listenSock := 3
  epollFd := some 4
  apart := by decide

/-- An accepted connection that never sends a request. -/
theorem validRun_silent : ValidRun threeAndFour [.accept 5] :=
  ⟨rfl, trivial⟩

theorem connection_left_open_silent :
    (shutdown (served threeAndFour [.accept 5])).ledger.holder 5 = some (.connection 0) :=
  (connection_left_open_iff validRun_silent 5 0).2.mpr ⟨by decide, by decide⟩

/-- A connection that registers a mount point. -/
def serving : List Event :=
  [.accept 5,
    .received 5 (ascii "POST /A HTTP/1.1\r\nAuthorization: Basic dTpw\r\n") fun _ => true]

/-- `Stop` closes what the registered server and the members have, and leaves
the silent connection open. -/
theorem stop_balanced_serving :
    (served threeAndFour serving).stop.ledger.Balanced ∧
      ¬ (served threeAndFour [.accept 5]).stop.ledger.Balanced := by
  constructor
  · have table : descriptors (served threeAndFour serving).sys.caster.mountPointInfos = [5] := by
      decide +kernel
    have conns : (served threeAndFour serving).sys.conns = (∅ : Connections).insert 5 0 :=
      AList.ext (by decide +kernel)
    have valid : ValidRun threeAndFour serving :=
      ⟨rfl, ⟨⟨0, rfl⟩, by decide, by decide⟩, trivial⟩
    refine (stop_balanced_iff valid).mpr ⟨⟨trivial, trivial, trivial⟩, by decide, ?_, ?_⟩
    · rw [table]
      decide
    · intro fd
      rw [table, System.owner, conns, List.mem_singleton]
      by_cases same : fd = 5
      · rw [same, AList.lookup_insert]
        exact iff_of_true rfl rfl
      · rw [AList.lookup_insert_ne same, AList.lookup_empty]
        exact iff_of_false same Bool.false_ne_true
  · intro balanced
    have listed := ((stop_balanced_iff validRun_silent).mp balanced).2.2.2 5
    have closed := listed.mpr (by decide)
    revert closed
    decide

theorem shutdown_not_balanced_threeAndFour :
    ¬ (shutdown (served threeAndFour [.accept 5])).ledger.Balanced :=
  shutdown_not_balanced ⟨rfl, trivial⟩

/-- `Run` and the two calls of `Stop`, with no event between them. -/
theorem shutdown_balanced_fails :
    ¬ ∀ boot events, ValidRun boot events → (shutdown (served boot events)).ledger.Balanced := by
  intro always
  have balanced := always threeAndFour [] trivial
  have closed : (3, none) ∈ (shutdown (served threeAndFour [])).ledger.released := by decide
  exact balanced.noneInVain (3, none) closed rfl

end Process
end Ntrip
