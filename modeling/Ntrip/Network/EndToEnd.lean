import Ntrip.Network.Session
import Ntrip.Peers.ClientThread

namespace Ntrip

/-!
# From the base station to the rover

The application of a server hands its corrections to `SendData`, the caster
passes them on, and the callback of a client gets them.  With the three
programs put together, what the callback has been given is at every moment a
beginning of what was handed over.
-/

/-- `NtripServer::SendData` for what `send` returns: its value, and the bytes
that go out. -/
def NtripServer.sendData (data : Bytes) (sent : Int) : Int × Bytes :=
  ((if (data.length : Int) = sent then 1 else 0) - 1, data.take sent.toNat)

/-- The bytes that go out when an application sends one piece after the other
until a `SendData` fails. -/
def NtripServer.sendWhileAccepted : List (Bytes × Int) → Bytes
  | [] => []
  | (data, sent) :: rest =>
      let (ret, out) := sendData data sent
      if ret = 0 then out ++ sendWhileAccepted rest else out

/-- Nothing goes out behind a piece that is cut short. -/
theorem NtripServer.sendWhileAccepted_prefix (calls : List (Bytes × Int)) :
    sendWhileAccepted calls <+: (calls.map Prod.fst).flatten := by
  induction calls with
  | nil => exact List.prefix_rfl
  | cons call rest inductionHypothesis =>
      rcases call with ⟨data, sent⟩
      rw [sendWhileAccepted, sendData, List.map_cons, List.flatten_cons]
      by_cases whole : (data.length : Int) = sent
      · have all : data.take sent.toNat = data := by
          rw [← whole, Int.toNat_natCast, List.take_length]
        rw [if_pos whole, all]
        exact (List.prefix_append_right_inj data).mpr inductionHypothesis
      · rw [if_neg whole]
        exact (List.take_prefix _ _).trans (List.prefix_append _ _)

/-- `Run` and the worker of a client have read the stream so far: the reply
line first, on its own, and data behind it. -/
structure ReadsStream (confirmed : Bool) (polls : Nat → RecvResult) (found : ThreadStart)
    (events : List ClientEvent) (reply : Bytes) (rest : List Bytes) : Prop where
  line : reply = okLine ∨ reply = icyLine
  consumed :
    (NtripClient.runHandshake confirmed polls).received ++ received events = reply :: rest
  success : (NtripClient.runHandshake confirmed polls).success = true
  serving : (NtripClient.threadHandler found events).serviceIsRunning = true

theorem ReadsStream.delivered {confirmed : Bool} {polls : Nat → RecvResult} {found : ThreadStart}
    {events : List ClientEvent} {reply : Bytes} {rest : List Bytes}
    (reads : ReadsStream confirmed polls found events reply rest) :
    (NtripClient.threadHandler found events).delivered = rest := by
  have handedOver : received events = rest := by
    apply received_of_success reads.success reads.consumed
    exact answers_of_prefix reads.line List.prefix_rfl
  exact (ClientThread.run_of_running reads.serving).2.trans handedOver

/-- A stream does not begin with both success lines. -/
theorem reply_unique {reply other rest stream : Bytes} (line : reply = okLine ∨ reply = icyLine)
    (otherLine : other = okLine ∨ other = icyLine) (leading : reply ++ rest <+: other ++ stream) :
    reply = other := by
  have both : reply <+: other ∨ other <+: reply :=
    List.prefix_or_prefix_of_prefix ((List.prefix_append reply rest).trans leading)
      (List.prefix_append other stream)
  rcases line with rfl | rfl
  · rcases otherLine with rfl | rfl
    · rfl
    · exact absurd both (by decide)
  · rcases otherLine with rfl | rfl
    · exact absurd both (by decide)
    · rfl

namespace Network

/-- A caster between a server and one of its clients: the run up to the turn in
which the client's request is granted, the run since, and what the client has
read.  The run is one in which roles have been kept up to that turn and in
which server and client keep up since.  `handed` is what the server has sent
and the caster had not taken then, and what it has sent since. -/
structure Hop where
  before : List Move
  during : List Move
  client : Fd
  source : ConnId
  sink : ConnId
  count : Nat
  outcomes : SendOutcomes
  info : MountPointInformation
  valid : ValidRun (before ++ .casterReceives client count outcomes :: during)
  kept : Execution.EachStep step RolesKept init before
  admission : (Execution.run step init before).Admission client source sink count outcomes info
  keeps : Execution.EachStep step (KeepsUp info.serverFd client)
    ((Execution.run step init before).step (.casterReceives client count outcomes)) during
  handed : Bytes
  sent : ((Execution.run step init
    (before ++ .casterReceives client count outcomes :: during)).uplink source).sent =
      ((Execution.run step init before).uplink source).taken ++ handed
  confirmed : Bool
  polls : Nat → RecvResult
  found : ThreadStart
  events : List ClientEvent
  reply : Bytes
  rest : List Bytes
  reads : ReadsStream confirmed polls found events reply rest
  read : (reply :: rest).flatten = ((Execution.run step init
    (before ++ .casterReceives client count outcomes :: during)).downlink sink).taken

/-- The buffers that the client's callback has been given. -/
def Hop.delivered (hop : Hop) : List Bytes :=
  (NtripClient.threadHandler hop.found hop.events).delivered

/-- A caster delivers a beginning of what it is handed. -/
theorem Hop.delivered_prefix (hop : Hop) : hop.delivered.flatten <+: hop.handed := by
  rcases session_run hop.valid hop.kept hop.admission hop.keeps with
    ⟨line, stream, isLine, sinkSent, sourceTaken⟩
  have sent := hop.sent
  have read := hop.read
  generalize Execution.run step init
    (hop.before ++ .casterReceives hop.client hop.count hop.outcomes :: hop.during) = last at *
  have written := Channel.taken_prefix (last.downlink hop.sink)
  have fetched := Channel.taken_prefix (last.uplink hop.source)
  rw [← read, sinkSent, List.flatten_cons] at written
  rw [reply_unique hop.reads.line isLine written, List.prefix_append_right_inj] at written
  rw [sourceTaken, sent, List.prefix_append_right_inj] at fetched
  rw [Hop.delivered, hop.reads.delivered]
  exact written.trans fetched

/-- From the turn on in which the request of a client is granted, whatever
anybody else does, what its callback has been given is a beginning of what the
application of the server has handed to `SendData` since. -/
theorem corrections_arrive_in_order (before during : List Move) (client : Fd)
    (source sink : ConnId) (count : Nat) (outcomes : SendOutcomes) (info : MountPointInformation)
    (valid : ValidRun (before ++ .casterReceives client count outcomes :: during))
    (kept : Execution.EachStep step RolesKept init before)
    (admission : (Execution.run step init before).Admission client source sink count outcomes info)
    (keeps : Execution.EachStep step (KeepsUp info.serverFd client)
      ((Execution.run step init before).step (.casterReceives client count outcomes)) during)
    (calls : List (Bytes × Int))
    (sent : ((Execution.run step init
      (before ++ .casterReceives client count outcomes :: during)).uplink source).sent =
        ((Execution.run step init before).uplink source).taken ++
          NtripServer.sendWhileAccepted calls)
    (confirmed : Bool) (polls : Nat → RecvResult) (found : ThreadStart)
    (events : List ClientEvent) (reply : Bytes) (rest : List Bytes)
    (reads : ReadsStream confirmed polls found events reply rest)
    (read : (reply :: rest).flatten = ((Execution.run step init
      (before ++ .casterReceives client count outcomes :: during)).downlink sink).taken) :
    (NtripClient.threadHandler found events).delivered.flatten <+:
      (calls.map Prod.fst).flatten := by
  let hop : Hop :=
    ⟨before, during, client, source, sink, count, outcomes, info, valid, kept, admission, keeps,
      NtripServer.sendWhileAccepted calls, sent, confirmed, polls, found, events, reply, rest,
      reads, read⟩
  exact hop.delivered_prefix.trans (NtripServer.sendWhileAccepted_prefix calls)

/-- The run up to the client's request. -/
def requested : List Move :=
  [.connect 5, .connect 6,
    .peerSends 0 (ascii "POST /A HTTP/1.1\r\nAuthorization: Basic dTpw\r\n"),
    .casterReceives 5 kBufferSize (fun _ => true),
    .peerSends 1 (ascii "GET /A HTTP/1.1\r\nAuthorization: Basic dTpw\r\n")]

/-- The reply is read, and three bytes of corrections go through in two turns. -/
def corrections : List Move :=
  [.peerReceives 1 17, .peerSends 0 [0xD3, 0, 0], .casterReceives 5 2 (fun _ => true),
    .casterReceives 5 kBufferSize (fun _ => true), .peerReceives 1 3]

def requestedRecord : MountPointInformation :=
  ⟨5, ascii "A", ascii "u", ascii "p", []⟩

theorem rolesKept_requested : Execution.EachStep step RolesKept init requested :=
  ⟨⟨trivial, trivial⟩, ⟨trivial, trivial⟩, trivial,
    ⟨fun listed => absurd listed (by decide +kernel), trivial⟩, trivial, trivial⟩

theorem admission_requested :
    (Execution.run step init requested).Admission 6 0 1 kBufferSize (fun _ => true)
      requestedRecord := by
  have reads : GetReads ((Execution.run step init requested).buffer 1 kBufferSize)
      ⟨⟨ascii "A", ascii "u", ascii "p"⟩, false⟩ :=
    ⟨by decide +kernel, by decide +kernel, by decide⟩
  exact ⟨by decide +kernel, by decide +kernel, by decide +kernel, by decide +kernel,
    by decide +kernel, ⟨_, reads, by decide⟩, Or.inr ⟨_, reads, 0, by decide +kernel, rfl⟩⟩

theorem readsStream_corrections :
    ReadsStream true (secondPoll okLine) everySecond (twoRounds [0xD3, 0, 0]) okLine
      [[0xD3, 0, 0]] :=
  ⟨Or.inl rfl, by decide, by decide, by decide⟩

theorem corrections_arrive_in_order_two_pieces :
    (NtripClient.threadHandler everySecond (twoRounds [0xD3, 0, 0])).delivered.flatten <+:
      ([([0xD3, 0], 2), ([0, 7], 1)].map Prod.fst).flatten :=
  corrections_arrive_in_order requested corrections 6 0 1 kBufferSize (fun _ => true)
    requestedRecord (by decide +kernel) rolesKept_requested admission_requested
    (by decide +kernel) [([0xD3, 0], 2), ([0, 7], 1)] (by decide +kernel) true
    (secondPoll okLine) everySecond (twoRounds [0xD3, 0, 0]) okLine [[0xD3, 0, 0]]
    readsStream_corrections (by decide +kernel)

end Network
end Ntrip
