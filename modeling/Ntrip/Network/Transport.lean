import Ntrip.Foundation.Channel
import Ntrip.Caster.Answers
import Ntrip.Caster.Batch

namespace Ntrip

/-!
# The caster between its peers

Every accepted connection has a channel towards the caster and one back.
Peers write and read whenever they like, and the event loop takes as much of
one channel as one `recv` returns, so where a peer's messages are cut is open.
A `send` is a write to the channel of whoever owns the descriptor at the time.
Seen from the caster alone, every run is one of the event loop.
-/

structure Network where
  sys : System
  uplink : Channels ConnId UInt8
  downlink : Channels ConnId UInt8

/-- One move: `accept`, a peer's write or read, a turn of the event loop on a
readable descriptor, or its turn on one where `recv` returns nothing. -/
inductive Move
  | connect (fd : Fd)
  | peerSends (conn : ConnId) (bytes : Bytes)
  | peerReceives (conn : ConnId) (count : Nat)
  | casterReceives (fd : Fd) (count : Nat) (outcomes : SendOutcomes)
  | hangUp (fd : Fd)

namespace System

/-- What the calls of `send` put on the wire, and for whom: the whole message
or nothing. -/
def deliveries (sys : System) (sends : List SendCall) : List (ConnId × Bytes) :=
  sends.filterMap fun call =>
    if call.accepted then (sys.owner call.fd).map (·, call.message) else none

/-- No connection has two descriptors, and numbers are never used twice. -/
structure Distinct (sys : System) : Prop where
  numbered : sys.Numbered
  injective : ∀ {fd other conn}, sys.owner fd = some conn → sys.owner other = some conn → other = fd

theorem distinct_init : init.Distinct where
  numbered := fun _ _ holds => by cases holds
  injective := fun holds => by cases holds

theorem step_distinct (sys : System) (event : Event) (distinct : sys.Distinct) :
    (sys.step event).Distinct where
  numbered := step_numbered sys event distinct.numbered
  injective := by
    intro fd other conn holds held
    have older : (∀ fresh, event ≠ .accept fresh) → ∀ {fd conn},
        (sys.step event).owner fd = some conn → sys.owner fd = some conn := by
      intro kind fd conn holds
      rw [owner_step_other sys kind] at holds
      split_ifs at holds with closed
      exact holds
    cases event with
    | accept fresh =>
        have unused : ∀ fd, sys.owner fd ≠ some sys.accepted :=
          fun fd owns => Nat.lt_irrefl _ (distinct.numbered fd _ owns)
        rw [owner_step_accept] at holds held
        split_ifs at holds held with first second second
        · exact second.trans first.symm
        · rw [← Option.some.inj holds] at held
          exact absurd held (unused other)
        · rw [← Option.some.inj held] at holds
          exact absurd holds (unused fd)
        · exact distinct.injective holds held
    | received sender buffer outcomes =>
        exact distinct.injective (older (by simp) holds) (older (by simp) held)
    | disconnected leaver =>
        exact distinct.injective (older (by simp) holds) (older (by simp) held)

/-- What one channel gets of some calls of `send`: the messages to its one
descriptor that were taken. -/
theorem addressed_deliveries {sys : System} (distinct : sys.Distinct) {fd : Fd} {conn : ConnId}
    (owns : sys.owner fd = some conn) (sends : List SendCall) :
    Channels.addressed conn (sys.deliveries sends) =
      answer sends fd := by
  induction sends with
  | nil => rfl
  | cons call rest inductionHypothesis =>
      have apart : call.fd ≠ fd → sys.owner call.fd ≠ some conn :=
        fun other owner => other (distinct.injective owns owner)
      by_cases receiver : call.fd = fd
      · cases accepted : call.accepted with
        | true => simp_all [deliveries, Channels.addressed, answer]
        | false => simp_all [deliveries, Channels.addressed, answer]
      · have other := apart receiver
        cases accepted : call.accepted with
        | true =>
            cases owner : sys.owner call.fd with
            | none => simp_all [deliveries, Channels.addressed, answer]
            | some holder => simp_all [deliveries, Channels.addressed, answer]
        | false => simp_all [deliveries, Channels.addressed, answer]


/-- A connection without a descriptor gets nothing. -/
theorem addressed_of_closed {sys : System} {conn : ConnId}
    (closed : ∀ fd, sys.owner fd ≠ some conn) (sends : List SendCall) :
    Channels.addressed conn (sys.deliveries sends) = [] := by
  apply Channels.addressed_eq_nil
  intro message member same
  rcases List.mem_filterMap.mp member with ⟨call, _, delivered⟩
  split_ifs at delivered with accepted
  rcases Option.map_eq_some_iff.mp delivered with ⟨holder, owns, rfl⟩
  exact closed call.fd (owns.trans (congrArg some same))

end System

namespace Network

def init : Network where
  sys := .init
  uplink := fun _ => .empty
  downlink := fun _ => .empty

/-- What one `recv` of at most so many bytes returns. -/
def buffer (net : Network) (conn : ConnId) (count : Nat) : Bytes :=
  (net.uplink conn).front count

def step (net : Network) : Move → Network
  | .connect fd => { net with sys := net.sys.step (.accept fd) }
  | .peerSends conn bytes => { net with uplink := net.uplink.write conn bytes }
  | .peerReceives conn count => { net with downlink := net.downlink.read conn count }
  | .casterReceives fd count outcomes =>
      match net.sys.owner fd with
      | none => net
      | some conn =>
          let event := Event.received fd (net.buffer conn count) outcomes
          { sys := net.sys.step event
            uplink := net.uplink.read conn count
            downlink := net.downlink.writeAll (net.sys.deliveries (event.sends net.sys.caster)) }
  | .hangUp fd => { net with sys := net.sys.step (.disconnected fd) }

/-- `accept` returns a number that is not open, a connection has been
accepted before it is written to, and `recv` fills at most the buffer with
what is there. -/
def Valid (net : Network) : Move → Prop
  | .connect fd => net.sys.owner fd = none
  | .peerSends conn _ => conn < net.sys.accepted
  | .peerReceives _ _ => True
  | .casterReceives fd count _ =>
      count ≤ kBufferSize ∧
        ∃ conn ∈ net.sys.owner fd, net.buffer conn count ≠ []
  | .hangUp _ => True

instance (net : Network) (move : Move) : Decidable (net.Valid move) := by
  cases move <;> unfold Valid <;> infer_instance

abbrev ValidRun (moves : List Move) : Prop :=
  Execution.EachStep step Valid init moves

/-- The event that the caster sees in a move. -/
def seen (net : Network) : Move → List Event
  | .connect fd => [.accept fd]
  | .casterReceives fd count outcomes =>
      ((net.sys.owner fd).map fun conn =>
        Event.received fd (net.buffer conn count) outcomes).toList
  | .hangUp fd => [.disconnected fd]
  | _ => []

/-- A turn of the event loop on an open descriptor. -/
theorem step_casterReceives {net : Network} {fd : Fd} {conn : ConnId}
    (owns : net.sys.owner fd = some conn) (count : Nat) (outcomes : SendOutcomes) :
    net.step (.casterReceives fd count outcomes) =
      { sys := net.sys.step (.received fd (net.buffer conn count) outcomes)
        uplink := net.uplink.read conn count
        downlink := net.downlink.writeAll (net.sys.deliveries
          ((Event.received fd (net.buffer conn count) outcomes).sends net.sys.caster)) } := by
  rw [step, owns]

theorem sys_casterReceives {net : Network} {fd : Fd} {conn : ConnId}
    (owns : net.sys.owner fd = some conn) (count : Nat) (outcomes : SendOutcomes) :
    (net.step (.casterReceives fd count outcomes)).sys =
      net.sys.step (.received fd (net.buffer conn count) outcomes) := by
  rw [step_casterReceives owns]

theorem uplink_casterReceives {net : Network} {fd : Fd} {conn : ConnId}
    (owns : net.sys.owner fd = some conn) (count : Nat) (outcomes : SendOutcomes) :
    (net.step (.casterReceives fd count outcomes)).uplink = net.uplink.read conn count := by
  rw [step_casterReceives owns]

theorem downlink_casterReceives {net : Network} {fd : Fd} {conn : ConnId}
    (owns : net.sys.owner fd = some conn) (count : Nat) (outcomes : SendOutcomes) :
    (net.step (.casterReceives fd count outcomes)).downlink =
      net.downlink.writeAll (net.sys.deliveries
        ((Event.received fd (net.buffer conn count) outcomes).sends net.sys.caster)) := by
  rw [step_casterReceives owns]

/-- Seen from the caster, a move is an event or nothing. -/
theorem sys_step (net : Network) (move : Move) :
    (net.step move).sys = Execution.run System.step net.sys (net.seen move) := by
  cases move with
  | connect fd => rfl
  | peerSends conn bytes => rfl
  | peerReceives conn count => rfl
  | hangUp fd => rfl
  | casterReceives fd count outcomes =>
      cases owner : net.sys.owner fd with
      | none => simp [step, seen, owner, Execution.run]
      | some conn => simp [step, seen, owner, Execution.run]

/-- What the caster sees is possible. -/
theorem seen_valid {net : Network} {move : Move} (valid : net.Valid move) :
    Execution.EachStep System.step System.Valid net.sys (net.seen move) := by
  cases move with
  | connect fd => exact ⟨valid, trivial⟩
  | peerSends conn bytes => trivial
  | peerReceives conn count => trivial
  | hangUp fd => exact ⟨trivial, trivial⟩
  | casterReceives fd count outcomes =>
      rcases valid with ⟨bound, conn, owns, readable⟩
      have holds : net.sys.owner fd = some conn := owns
      have fits : (net.buffer conn count).length ≤ kBufferSize :=
        Nat.le_trans (List.length_take_le count _) bound
      rw [seen, holds]
      exact ⟨⟨by rw [holds]; rfl, readable, fits⟩, trivial⟩

/-- Every run of the network is one of the event loop. -/
theorem exists_caster_run {moves : List Move} (valid : ValidRun moves) :
    ∃ events, System.ValidRun events ∧
      Execution.run System.step System.init events = (Execution.run step init moves).sys :=
  Execution.exists_run_of_view Network.sys
    (fun net move possible => ⟨net.seen move, seen_valid possible, (sys_step net move).symm⟩) valid

theorem step_distinct (net : Network) (move : Move) (distinct : net.sys.Distinct) :
    (net.step move).sys.Distinct := by
  rw [sys_step]
  exact (Execution.always_of_preserved System.step_distinct distinct (net.seen move)).last

theorem distinct_run (moves : List Move) : (Execution.run step init moves).sys.Distinct :=
  (Execution.always_of_preserved step_distinct System.distinct_init moves).last

/-- A server registers a mount point and a client is admitted to it. -/
def subscription : List Move :=
  [.connect 5, .connect 6,
    .peerSends 0 (ascii "POST /A HTTP/1.1\r\nAuthorization: Basic dTpw\r\n"),
    .casterReceives 5 kBufferSize (fun _ => true),
    .peerSends 1 (ascii "GET /A HTTP/1.1\r\nAuthorization: Basic dTpw\r\n"),
    .casterReceives 6 kBufferSize (fun _ => true)]

end Network
end Ntrip
