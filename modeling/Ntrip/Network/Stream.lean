import Ntrip.Caster.Subscription
import Ntrip.Network.Transport

namespace Ntrip

/-!
# The stream from a server to its client

While a subscription lasts, the bytes that the caster writes to the client
are the bytes that it takes from the server: none lost, repeated, reordered
or inserted, however the stream is cut into reads and whatever the rest of
the world does in between.  And nothing stands in the way of delivering all
of them.
-/

theorem LooksLikeRequest.mono {part whole : Bytes} (inside : part <:+: whole)
    (request : LooksLikeRequest part) : LooksLikeRequest whole := by
  rcases request with get | post
  · exact Or.inl (get.trans inside)
  · exact Or.inr (post.trans inside)

namespace Network

/-- The server sends data, of which every send to the client is taken, every
buffer received from the client is a position report, and neither leaves. -/
def KeepsUp (server client : Fd) (net : Network) (move : Move) : Prop :=
  ∀ event ∈ net.seen move, System.Sustains server client event ∧
    (event.fd = server → ∀ call ∈ event.sends net.sys.caster,
      call.fd = client → call.accepted = true)

instance (server client : Fd) (net : Network) (move : Move) :
    Decidable (KeepsUp server client net move) :=
  inferInstanceAs (Decidable (∀ event ∈ _, _ ∧ (_ → _)))

section Subscription

variable {server client : Fd} {source sink : ConnId}

/-- What the caster takes from the server in one move. -/
def taken (net : Network) (server : Fd) : Move → Bytes
  | .casterReceives fd count _ =>
      if fd = server then ((net.sys.owner fd).map (net.buffer · count)).getD [] else []
  | _ => []

theorem uplink_step {net : Network} (distinct : net.sys.Distinct)
    (owns : net.sys.owner server = some source) (move : Move) :
    ((net.step move).uplink source).taken =
      (net.uplink source).taken ++ net.taken server move := by
  have same : (net.uplink source).taken = (net.uplink source).taken ++ [] :=
    (List.append_nil _).symm
  cases move with
  | connect fd => exact same
  | peerReceives conn count => exact same
  | hangUp fd => exact same
  | peerSends conn bytes =>
      by_cases self : source = conn
      · change ((net.uplink.write conn bytes) source).taken = _
        rw [← self, Channels.write_self, Channel.taken_write]
        exact same
      · change ((net.uplink.write conn bytes) source).taken = _
        rw [Channels.write_other self]
        exact same
  | casterReceives fd count outcomes =>
      cases owner : net.sys.owner fd with
      | none =>
          simp [step, taken, owner]
      | some conn =>
          rw [uplink_casterReceives owner, taken]
          by_cases self : fd = server
          · rw [self, owns] at owner
            cases owner
            rw [if_pos self, self, owns, Channels.read_self, Channel.taken_read]
            rfl
          · have other : source ≠ conn := by
              rintro rfl
              exact self (distinct.injective owns owner)
            rw [if_neg self, Channels.read_other other, List.append_nil]

theorem downlink_step {net : Network} (distinct : net.sys.Distinct)
    (subscribed : net.sys.Subscribed server client source sink) {move : Move}
    (keeps : KeepsUp server client net move) :
    ((net.step move).downlink sink).sent =
      (net.downlink sink).sent ++ net.taken server move := by
  have same : (net.downlink sink).sent = (net.downlink sink).sent ++ [] :=
    (List.append_nil _).symm
  cases move with
  | connect fd => exact same
  | peerSends conn bytes => exact same
  | peerReceives conn count =>
      change ((net.downlink.read conn count) sink).sent = _
      rw [Channels.sent_read]
      exact same
  | hangUp fd => exact same
  | casterReceives fd count outcomes =>
      cases owner : net.sys.owner fd with
      | none => simp [step, taken, owner]
      | some conn =>
          have kept := keeps (.received fd (net.buffer conn count) outcomes)
            (by simp [seen, owner])
          rw [downlink_casterReceives owner, taken, Channels.sent_writeAll,
            System.addressed_deliveries distinct subscribed.sink_open]
          congr 1
          by_cases self : fd = server
          · have accepted := kept.2 self
            rw [if_pos self, owner]
            subst self
            have once := subscribed.sends_of_server (kept.1.1 rfl) outcomes
            rw [answer_of_accepted accepted, once]
            exact List.append_nil _
          · have elsewhere := subscribed.sends_elsewhere kept.1 self
            rw [if_neg self]
            exact answer_eq_nil fun call made toClient =>
              absurd toClient (elsewhere call made)

theorem subscribed_step {net : Network}
    (subscribed : net.sys.Subscribed server client source sink) {move : Move}
    (valid : net.Valid move) (keeps : KeepsUp server client net move) :
    (net.step move).sys.Subscribed server client source sink := by
  rw [sys_step]
  exact subscribed.run (seen_valid valid) fun event member => (keeps event member).1

/-- Between two states of a run, the caster has written to one peer exactly
what it has taken from the other. -/
def Relayed (source sink : ConnId) (net last : Network) : Prop :=
  ∃ stream, (last.uplink source).taken = (net.uplink source).taken ++ stream ∧
    (last.downlink sink).sent = (net.downlink sink).sent ++ stream

theorem stream_run {net : Network} (distinct : net.sys.Distinct)
    (subscribed : net.sys.Subscribed server client source sink) {moves : List Move}
    (valid : Execution.EachStep step Valid net moves)
    (keeps : Execution.EachStep step (KeepsUp server client) net moves) :
    (Execution.run step net moves).sys.Subscribed server client source sink ∧
      Relayed source sink net (Execution.run step net moves) := by
  induction moves generalizing net with
  | nil => exact ⟨subscribed, [], (List.append_nil _).symm, (List.append_nil _).symm⟩
  | cons move rest inductionHypothesis =>
      rcases inductionHypothesis (net.step_distinct move distinct)
        (subscribed_step subscribed valid.1 keeps.1) valid.2 keeps.2 with
        ⟨lasting, stream, source_taken, sink_sent⟩
      rw [uplink_step distinct subscribed.source_open, List.append_assoc] at source_taken
      rw [downlink_step distinct subscribed keeps.1, List.append_assoc] at sink_sent
      exact ⟨lasting, net.taken server move ++ stream, source_taken, sink_sent⟩

/-- From a subscription on, whatever happens, the caster writes to the client
exactly the bytes that it takes from the server. -/
theorem stream_integrity (before during : List Move) (valid : ValidRun (before ++ during))
    (subscribed :
      (Execution.run step init before).sys.Subscribed server client source sink)
    (keeps : Execution.EachStep step (KeepsUp server client)
      (Execution.run step init before) during) :
    Relayed source sink (Execution.run step init before)
      (Execution.run step init (before ++ during)) := by
  rw [Execution.run_append]
  exact (stream_run (distinct_run before) subscribed
    (Execution.eachStep_append.mp valid).2 keeps).2

theorem subscription_subscribed :
    (Execution.run step init subscription).sys.Subscribed 5 6 0 1 where
  source_open := by decide +kernel
  sink_open := by decide +kernel
  server_once := by decide +kernel
  client_once := by decide +kernel
  listed := by decide +kernel

/-- Three bytes of the server come in two reads, with a stranger in between
who is dropped. -/
def threeBytes : List Move :=
  [.peerSends 0 [0xD3, 0, 0], .casterReceives 5 2 (fun _ => true), .connect 7,
    .peerSends 2 (ascii "x"), .casterReceives 7 kBufferSize (fun _ => true),
    .casterReceives 5 kBufferSize (fun _ => true)]

theorem stream_integrity_threeBytes :
    Relayed 0 1 (Execution.run step init subscription)
      (Execution.run step init (subscription ++ threeBytes)) :=
  stream_integrity subscription threeBytes (by decide +kernel) subscription_subscribed
    (by decide +kernel)

/-! ## Nothing stands in the way -/

/-- The caster's next turn on the server takes what one buffer holds, and the
subscription survives it. -/
theorem exists_turn {net : Network}
    (subscribed : net.sys.Subscribed server client source sink)
    (pending : (net.uplink source).inFlight ≠ [])
    (data : ¬ LooksLikeRequest (net.uplink source).inFlight) :
    net.Valid (.casterReceives server kBufferSize fun _ => true) ∧
      KeepsUp server client net (.casterReceives server kBufferSize fun _ => true) := by
  have inside : net.buffer source kBufferSize <:+: (net.uplink source).inFlight :=
    Channel.front_infix _ _
  have plain : ¬ LooksLikeRequest (net.buffer source kBufferSize) :=
    fun request => data (request.mono inside)
  constructor
  · refine ⟨Nat.le_refl _, source, subscribed.source_open, ?_⟩
    intro empty
    rcases List.take_eq_nil_iff.mp empty with zero | none
    · cases zero
    · exact pending none
  · intro event member
    rw [seen, subscribed.source_open, Option.map_some, Option.toList_some,
      List.mem_singleton] at member
    rw [member]
    refine ⟨⟨fun _ => plain, fun same => absurd same.symm subscribed.different⟩, ?_⟩
    intro _ call made _
    rcases subscribed.servedRecord_eq with ⟨info, served, _⟩
    rw [Event.sends, parseData_of_served plain served] at made
    rcases List.mem_mapIdx.mp made with ⟨index, bound, rfl⟩
    rfl

/-- The caster can read all that the server has sent in some turns of its
event loop. -/
theorem exists_emptied {net : Network} (distinct : net.sys.Distinct)
    (subscribed : net.sys.Subscribed server client source sink)
    (data : ¬ LooksLikeRequest (net.uplink source).inFlight) :
    ∃ moves, (∀ move ∈ moves, move = .casterReceives server kBufferSize fun _ => true) ∧
      Execution.EachStep step Valid net moves ∧
      Execution.EachStep step (KeepsUp server client) net moves ∧
      ((Execution.run step net moves).uplink source).taken = (net.uplink source).sent := by
  generalize size : (net.uplink source).inFlight.length = length
  induction length using Nat.strongRecOn generalizing net with
  | ind length inductionHypothesis =>
      by_cases pending : (net.uplink source).inFlight = []
      · refine ⟨[], fun _ member => absurd member List.not_mem_nil, trivial, trivial, ?_⟩
        rw [Channel.sent, pending, List.append_nil]
        rfl
      · have turn := exists_turn subscribed pending data
        have channel : (net.step (.casterReceives server kBufferSize fun _ => true)).uplink
            source = (net.uplink source).read kBufferSize := by
          rw [uplink_casterReceives subscribed.source_open, Channels.read_self]
        have shorter : ((net.uplink source).inFlight.drop kBufferSize).length < length := by
          have positive : 0 < (net.uplink source).inFlight.length := List.length_pos_iff.mpr pending
          rw [List.length_drop, ← size]
          exact Nat.sub_lt positive (Nat.zero_lt_succ _)
        have plain : ¬ LooksLikeRequest ((net.uplink source).inFlight.drop kBufferSize) :=
          fun request => data (request.mono (List.drop_suffix _ _).isInfix)
        rcases inductionHypothesis _ shorter (net.step_distinct _ distinct)
          (subscribed_step subscribed turn.1 turn.2) (by rw [channel]; exact plain)
          (by rw [channel]; rfl) with ⟨moves, turns, valid, keeps, emptied⟩
        rw [channel, Channel.sent_read] at emptied
        refine ⟨_ :: moves, ?_, ⟨turn.1, valid⟩, ⟨turn.2, keeps⟩, emptied⟩
        intro move member
        exact (List.mem_cons.mp member).elim id (turns move)

/-- Whatever the server has sent can still reach the client in full. -/
theorem stream_drains (before : List Move) (valid : ValidRun before)
    (subscribed :
      (Execution.run step init before).sys.Subscribed server client source sink)
    (data : ¬ LooksLikeRequest ((Execution.run step init before).uplink source).inFlight) :
    ∃ during, ValidRun (before ++ during) ∧
      ((Execution.run step init (before ++ during)).downlink sink).taken =
        ((Execution.run step init before).downlink sink).sent ++
          ((Execution.run step init before).uplink source).inFlight := by
  have distinct := distinct_run before
  generalize current : Execution.run step init before = net at subscribed data distinct
  rcases exists_emptied distinct subscribed data with ⟨moves, _, possible, keeps, emptied⟩
  rcases (stream_run distinct subscribed possible keeps).2 with ⟨stream, sourceTaken, sinkSent⟩
  have whole : stream = (net.uplink source).inFlight :=
    List.append_cancel_left (sourceTaken.symm.trans emptied)
  generalize reached : Execution.run step net moves = last at sinkSent
  refine ⟨moves ++ [.peerReceives sink (last.downlink sink).inFlight.length], ?_, ?_⟩
  · refine Execution.eachStep_append.mpr ⟨valid, ?_⟩
    rw [current]
    exact Execution.eachStep_append.mpr ⟨possible, trivial, trivial⟩
  · rw [Execution.run_append, Execution.run_append, current, reached, ← whole, ← sinkSent]
    change ((last.downlink.read sink _) sink).taken = _
    rw [Channels.read_self, Channel.taken_read_all]

/-- Three bytes are on their way. -/
def underWay : List Move :=
  subscription ++ [.peerSends 0 [0xD3, 0, 0]]

theorem stream_drains_underWay :
    ∃ during, ValidRun (underWay ++ during) ∧
      ((Execution.run step init (underWay ++ during)).downlink 1).taken =
        ((Execution.run step init underWay).downlink 1).sent ++
          ((Execution.run step init underWay).uplink 0).inFlight := by
  have subscribed : (Execution.run step init underWay).sys.Subscribed 5 6 0 1 := by
    rw [underWay, Execution.run_append]
    exact subscription_subscribed
  exact stream_drains underWay (by decide +kernel) subscribed (by decide +kernel)

end Subscription

end Network
end Ntrip
