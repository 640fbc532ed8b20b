import Ntrip.Network.EndToEnd
import Ntrip.Peers.Credentials
import Ntrip.Peers.PositionReport

namespace Ntrip

/-!
# Newcomers

No run, however adverse, leads the service into a state in which it cannot be
used any more, as long as the scan for the checksum of a position report never
leaves its buffer.  A server whose mount point is free and a client of it that
connect then, under numbers that no table mentions, can log in one after the
other, and data gets from one to the other.
-/

/-- `ParseData` scans no buffer past its end. -/
def Event.ScansInside (kind : CharKind) (caster : NtripCaster) : Event → Prop
  | .received fd buffer _ => ChecksGga caster fd buffer → ScanInside kind buffer
  | _ => True

instance (kind : CharKind) (caster : NtripCaster) :
    (event : Event) → Decidable (event.ScansInside kind caster)
  | .accept _ => inferInstanceAs (Decidable True)
  | .received fd buffer _ =>
      inferInstanceAs (Decidable (ChecksGga caster fd buffer → ScanInside kind buffer))
  | .disconnected _ => inferInstanceAs (Decidable True)

theorem Event.scansInside_of_request {kind : CharKind} {caster : NtripCaster} {fd : Fd}
    {buffer : Bytes} {outcomes : SendOutcomes} (request : dispatch buffer ≠ .data) :
    (Event.received fd buffer outcomes).ScansInside kind caster :=
  fun checks => absurd checks.1 request

namespace Network

/-- The caster scans no buffer past its end in the move. -/
def ScansInside (kind : CharKind) (net : Network) (move : Move) : Prop :=
  ∀ event ∈ net.seen move, event.ScansInside kind net.sys.caster

instance (kind : CharKind) (net : Network) (move : Move) : Decidable (ScansInside kind net move) :=
  inferInstanceAs (Decidable (∀ event ∈ _, _))

/-! ## Connections that are yet to come -/

/-- Nothing has been written on a connection before it is accepted. -/
def Unwritten (net : Network) : Prop :=
  ∀ conn, net.sys.accepted ≤ conn →
    net.uplink conn = .settled [] ∧ net.downlink conn = .settled []

theorem unwritten_step {net : Network} (distinct : net.sys.Distinct) {move : Move}
    (valid : net.Valid move) (unwritten : net.Unwritten) : (net.step move).Unwritten := by
  intro conn later
  cases move with
  | connect fd => exact unwritten conn (Nat.le_of_succ_le later)
  | hangUp fd => exact unwritten conn later
  | peerSends sender bytes =>
      have other : conn ≠ sender := Nat.ne_of_gt (Nat.lt_of_lt_of_le valid later)
      exact ⟨(Channels.write_other other bytes).trans (unwritten conn later).1,
        (unwritten conn later).2⟩
  | peerReceives reader count =>
      exact ⟨(unwritten conn later).1,
        Channels.read_of_settled (unwritten conn later).2 reader count⟩
  | casterReceives fd count outcomes =>
      rcases valid with ⟨_, sender, owns, _⟩
      rw [sys_casterReceives owns] at later
      have earlier := unwritten conn later
      rw [uplink_casterReceives owns, downlink_casterReceives owns, Channels.writeAll_apply,
        System.addressed_of_closed ?_, Channel.write_nil]
      · exact ⟨Channels.read_of_settled earlier.1 sender count, earlier.2⟩
      · intro other holds
        exact absurd (distinct.numbered other conn holds) (Nat.not_lt.mpr later)

theorem unwritten_run {moves : List Move} (valid : ValidRun moves) :
    (Execution.run step init moves).Unwritten := by
  have preserved : ∀ (net : Network) move, net.sys.Distinct ∧ net.Unwritten → net.Valid move →
      (net.step move).sys.Distinct ∧ (net.step move).Unwritten :=
    fun net move holds possible =>
      ⟨net.step_distinct move holds.1, unwritten_step holds.1 possible holds.2⟩
  have first : init.sys.Distinct ∧ init.Unwritten :=
    ⟨System.distinct_init, fun _ _ => ⟨rfl, rfl⟩⟩
  exact (Execution.always_of_eachStep preserved first valid).last.2

/-! ## A request and its answer -/

/-- Both channels of a connection are settled. -/
def Settled (net : Network) (conn : ConnId) (up down : Bytes) : Prop :=
  net.uplink conn = .settled up ∧ net.downlink conn = .settled down

/-- A peer sends a request, the caster takes it in one turn, and the peer reads
the answer. -/
def exchange (fd : Fd) (conn : ConnId) (request : Bytes) (count : Nat) : List Move :=
  [.peerSends conn request, .casterReceives fd kBufferSize (fun _ => true),
    .peerReceives conn count]

section Exchange

variable {net : Network} {fd : Fd} {conn : ConnId} {request : Bytes} {up down : Bytes}

theorem exchange_valid (distinct : net.sys.Distinct) (owns : net.sys.owner fd = some conn)
    (settled : net.Settled conn up down) (nonempty : request ≠ [])
    (fits : request.length ≤ kBufferSize) (count : Nat) :
    Execution.EachStep step Valid net (exchange fd conn request count) := by
  refine ⟨distinct.numbered fd conn owns, ⟨Nat.le_refl _, conn, owns, ?_⟩, trivial, trivial⟩
  change ((net.uplink.write conn request) conn).front kBufferSize ≠ []
  rw [Channels.write_self, settled.1, Channel.front_write_settled up fits]
  exact nonempty

theorem exchange_run (owns : net.sys.owner fd = some conn) (settled : net.Settled conn up down)
    (fits : request.length ≤ kBufferSize) (count : Nat) :
    Execution.run step net (exchange fd conn request count) =
      { sys := net.sys.step (.received fd request fun _ => true)
        uplink := (net.uplink.write conn request).read conn kBufferSize
        downlink := (net.downlink.writeAll (net.sys.deliveries
          (parseData net.sys.caster (fun _ => true) fd request).sends)).read conn count } := by
  have whole : (net.step (.peerSends conn request)).buffer conn kBufferSize = request := by
    change ((net.uplink.write conn request) conn).front kBufferSize = request
    rw [Channels.write_self, settled.1, Channel.front_write_settled up fits]
  have turn : (net.step (.peerSends conn request)).step
      (.casterReceives fd kBufferSize fun _ => true) =
        { sys := net.sys.step (.received fd request fun _ => true)
          uplink := (net.uplink.write conn request).read conn kBufferSize
          downlink := net.downlink.writeAll (net.sys.deliveries
            (parseData net.sys.caster (fun _ => true) fd request).sends) } := by
    have holds : (net.step (.peerSends conn request)).sys.owner fd = some conn := owns
    rw [step_casterReceives holds, whole]
    rfl
  change ((net.step (.peerSends conn request)).step _).step (.peerReceives conn count) = _
  rw [turn]
  rfl

/-- The exchange is about a request, or about a text that is scanned inside. -/
theorem exchange_scansInside {kind : CharKind} (owns : net.sys.owner fd = some conn)
    (settled : net.Settled conn up down) (fits : request.length ≤ kBufferSize)
    (scanned : (Event.received fd request fun _ => true).ScansInside kind net.sys.caster)
    (count : Nat) :
    Execution.EachStep step (ScansInside kind) net (exchange fd conn request count) := by
  have none : ∀ event ∈ ([] : List Event), event.ScansInside kind net.sys.caster :=
    fun _ member => absurd member List.not_mem_nil
  refine ⟨none, ?_, fun _ member => absurd member List.not_mem_nil, trivial⟩
  have whole : (net.step (.peerSends conn request)).buffer conn kBufferSize = request := by
    change ((net.uplink.write conn request) conn).front kBufferSize = request
    rw [Channels.write_self, settled.1, Channel.front_write_settled up fits]
  have holds : (net.step (.peerSends conn request)).sys.owner fd = some conn := owns
  intro event member
  rw [seen, holds, Option.map_some, Option.toList_some, List.mem_singleton, whole] at member
  rw [member]
  exact scanned

/-- The peer has its answer, and no other connection has noticed. -/
theorem settled_exchange (distinct : net.sys.Distinct) (owns : net.sys.owner fd = some conn)
    (settled : net.Settled conn up down) (fits : request.length ≤ kBufferSize) {line : Bytes}
    (answered : answer (parseData net.sys.caster (fun _ => true) fd request).sends fd = line) :
    (Execution.run step net (exchange fd conn request line.length)).Settled conn
      (up ++ request) (down ++ line) := by
  rw [exchange_run owns settled fits]
  constructor
  · change (net.uplink.write conn request).read conn kBufferSize conn = _
    rw [Channels.read_self, Channels.write_self, settled.1,
      Channel.read_write_settled up fits]
  · change (net.downlink.writeAll _).read conn line.length conn = _
    rw [Channels.read_self, Channels.writeAll_apply,
      System.addressed_deliveries distinct owns, answered, settled.2,
      Channel.read_write_settled down (Nat.le_refl _)]

theorem settled_exchange_other (owns : net.sys.owner fd = some conn)
    (settled : net.Settled conn up down) (fits : request.length ≤ kBufferSize) {other : ConnId}
    {up' down' : Bytes} (holds : net.Settled other up' down') (different : other ≠ conn)
    (alone : ∀ call ∈ (parseData net.sys.caster (fun _ => true) fd request).sends, call.fd = fd)
    (count : Nat) :
    (Execution.run step net (exchange fd conn request count)).Settled other up' down' := by
  rw [exchange_run owns settled fits]
  have unaddressed : Channels.addressed other (net.sys.deliveries
      (parseData net.sys.caster (fun _ => true) fd request).sends) = [] := by
    apply Channels.addressed_eq_nil
    intro message member same
    rcases List.mem_filterMap.mp member with ⟨call, made, delivered⟩
    split_ifs at delivered with accepted
    rcases Option.map_eq_some_iff.mp delivered with ⟨holder, held, rfl⟩
    rw [alone call made, owns] at held
    exact different (same.symm.trans (Option.some.inj held).symm)
  constructor
  · change (net.uplink.write conn request).read conn kBufferSize other = _
    rw [Channels.read_other different, Channels.write_other different, holds.1]
  · change (net.downlink.writeAll _).read conn count other = _
    rw [Channels.read_other different, Channels.writeAll_apply, unaddressed,
      Channel.write_nil, holds.2]

/-- A request that is accepted can be sent, taken and answered with a success
line, and no other connection notices. -/
theorem exists_exchange (kind : CharKind) (distinct : net.sys.Distinct)
    (owns : net.sys.owner fd = some conn) (settled : net.Settled conn up down)
    (fits : request.length ≤ kBufferSize) (question : dispatch request ≠ .data)
    (kept : (parseData net.sys.caster (fun _ => true) fd request).ret = 0) :
    ∃ moves line, (Execution.EachStep step Valid net moves ∧
        Execution.EachStep step (ScansInside kind) net moves) ∧
      (line = okLine ∨ line = icyLine) ∧
      (Execution.run step net moves).sys = net.sys.step (.received fd request fun _ => true) ∧
      (Execution.run step net moves).Settled conn (up ++ request) (down ++ line) ∧
      ∀ other up' down', other ≠ conn → net.Settled other up' down' →
        (Execution.run step net moves).Settled other up' down' := by
  have nonempty : request ≠ [] := by
    rintro rfl
    exact question (by decide)
  have looks : LooksLikeRequest request := by
    by_contra data
    exact question ((dispatch_eq_data_iff request).mpr data)
  have granted : Granted net.sys.caster (fun _ => true) request :=
    (accepted_request_iff _ _ fd _).mp ⟨kept, looks⟩
  refine ⟨exchange fd conn request _, _, ⟨exchange_valid distinct owns settled nonempty fits _,
    exchange_scansInside owns settled fits (Event.scansInside_of_request question) _⟩,
    answer_granted granted, ?_, settled_exchange distinct owns settled fits rfl, ?_⟩
  · rw [exchange_run owns settled fits]
  · exact fun other up' down' different holds =>
      settled_exchange_other owns settled fits holds different
        (fun call made => (sends_of_request question call made).2.1) _

end Exchange

/-! ## A server and its client -/

/-- A server and a client that are configured alike, with requests that fit
their buffers and in which nothing is ambiguous, and the position report that
the client sends when it is admitted. -/
structure Newcomers (kind : CharKind) where
  serverBuild : Build
  clientBuild : Build
  name : MountName
  account : Account
  str : SourceLine name
  ip : DottedDecimal
  port : Int
  post : Bytes
  get : Bytes
  postSent : sendFormatted ((name.server str account ip port).request serverBuild) = some post
  getSent : sendFormatted ((name.client account).request clientBuild) = some get
  clear : Unambiguous serverBuild clientBuild name account str
  ggaBuffer : Bytes
  gga_report : IsReport kind ggaBuffer
  gga_fits : ggaBuffer.length ≤ kBufferSize

namespace Newcomers

variable {kind : CharKind} (pair : Newcomers kind)

theorem dispatch_post : dispatch pair.post = .post := by
  rw [(sendFormatted_eq_some.mp pair.postSent).1]
  exact dispatch_server pair.serverBuild _

theorem dispatch_get : dispatch pair.get = .get := by
  rw [(sendFormatted_eq_some.mp pair.getSent).1]
  exact dispatch_client pair.clientBuild pair.name pair.account

theorem post_fits : pair.post.length ≤ kBufferSize := by
  rcases sendFormatted_eq_some.mp pair.postSent with ⟨same, fits⟩
  rw [same]
  exact Nat.le_trans fits (by decide)

theorem get_fits : pair.get.length ≤ kBufferSize := by
  rcases sendFormatted_eq_some.mp pair.getSent with ⟨same, fits⟩
  rw [same]
  exact Nat.le_trans fits (by decide)

theorem loginSucceeds {caster : NtripCaster}
    (unused : pair.name.bytes ∉ mountNames caster.mountPointInfos) (server client : Fd) :
    LoginSucceeds pair.name caster server client pair.post pair.get := by
  rw [(sendFormatted_eq_some.mp pair.postSent).1, (sendFormatted_eq_some.mp pair.getSent).1]
  exact loginSucceeds_of_unambiguous unused pair.clear

/-- What the two requests do, one after the other. -/
theorem accepted {caster : NtripCaster}
    (unused : pair.name.bytes ∉ mountNames caster.mountPointInfos) (server client : Fd) :
    let posted := parseData caster (fun _ => true) server pair.post
    let got := parseData posted.caster (fun _ => true) client pair.get
    posted.ret = 0 ∧ got.ret = 0 ∧ ∃ record, record.serverFd = server ∧
      record.clientSocketList = [client] ∧
      got.caster.mountPointInfos = caster.mountPointInfos ++ [record] := by
  rcases pair.loginSucceeds unused server client with
    ⟨record, registered, _, serves, appended, admitted, joined⟩
  rcases parseData_of_post pair.dispatch_post registered with ⟨fields, ntripStr, _, result⟩
  have made : record = fields.toRecord server := by
    rw [result, NtripCaster.register_mountPointInfos] at appended
    exact (List.cons.inj (List.append_cancel_left appended)).1.symm
  refine ⟨registered, admitted, record.addClient client, serves, ?_, joined⟩
  rw [made]
  rfl

end Newcomers

end Network

namespace System

open Network

/-- Two newcomers that log in one after the other are a subscription. -/
theorem subscribed_of_newcomers {kind : CharKind} {sys : System} (pair : Newcomers kind)
    (unused : pair.name.bytes ∉ mountNames sys.caster.mountPointInfos) {server client : Fd}
    {source sink : ConnId} (different : server ≠ client)
    (serverOpen : sys.owner server = some source) (clientOpen : sys.owner client = some sink)
    (serverNew : server ∉ descriptors sys.caster.mountPointInfos)
    (clientNew : client ∉ descriptors sys.caster.mountPointInfos) :
    ((sys.step (.received server pair.post fun _ => true)).step
      (.received client pair.get fun _ => true)).Subscribed server client source sink := by
  rcases pair.accepted unused server client with ⟨posted, got, record, serves, listed, joined⟩
  have table : ((sys.step (.received server pair.post fun _ => true)).step
      (.received client pair.get fun _ => true)).caster.mountPointInfos =
        sys.caster.mountPointInfos ++ [record] := joined
  have counts : ∀ fd, (descriptors (sys.caster.mountPointInfos ++ [record])).count fd =
      (descriptors sys.caster.mountPointInfos).count fd + [server, client].count fd := by
    intro fd
    rw [descriptors_append, List.count_append, descriptors_cons,
      MountPointInformation.descriptors, serves, listed]
    rfl
  constructor
  · rw [owner_step_kept got, owner_step_kept posted, serverOpen]
  · rw [owner_step_kept got, owner_step_kept posted, clientOpen]
  · rw [table, counts, List.count_eq_zero_of_not_mem serverNew]
    simp [different.symm]
  · rw [table, counts, List.count_eq_zero_of_not_mem clientNew]
    simp [different]
  · rw [table]
    exact ⟨record, List.mem_append_right _ List.mem_cons_self, serves,
      listed ▸ List.mem_cons_self⟩

end System

/-! ## The worker of the client -/

/-- A round in which the worker receives something. -/
def ClientEvent.IsReception : ClientEvent → Prop
  | .round (.bytes _) _ _ => True
  | _ => False

namespace ClientThread

theorem running_of_reception (reportInterval : Int) {thread : ClientThread}
    (running : thread.serviceIsRunning = true) {event : ClientEvent}
    (reception : event.IsReception) :
    (thread.step reportInterval event).serviceIsRunning = true := by
  cases event with
  | stop => cases reception
  | storeGgaBuffer ggaBuffer => cases reception
  | storeGgaIsUpdate => cases reception
  | round recv clock generated =>
      cases recv with
      | negative errno => cases reception
      | closed => cases reception
      | bytes buffer =>
          rw [step, if_pos running, round]
          split
          · exact running
          · unfold report
            split
            · -- The counter was set when the buffer arrived.
              have counting : ¬ (thread.receive buffer).receiveTimeoutCnt ≤ 0 :=
                (by decide : ¬ kReceiveTimeoutPeriod ≤ 0)
              rw [if_neg counting]
              exact running
            · exact running

theorem running_of_receptions (reportInterval : Int) {thread : ClientThread}
    (running : thread.serviceIsRunning = true) {events : List ClientEvent}
    (receptions : ∀ event ∈ events, event.IsReception) :
    (Execution.run (step reportInterval) thread events).serviceIsRunning = true := by
  induction events generalizing thread with
  | nil => exact running
  | cons event rest inductionHypothesis =>
      apply inductionHypothesis
      · exact running_of_reception reportInterval running (receptions event List.mem_cons_self)
      · exact fun later member => receptions later (List.mem_cons_of_mem event member)

end ClientThread

/-- A worker that starts behind the reply and goes on receiving reads the
stream. -/
theorem readsStream_of_receptions (found : ThreadStart) {events : List ClientEvent}
    (receptions : ∀ event ∈ events, event.IsReception) {reply : Bytes}
    (line : reply = okLine ∨ reply = icyLine) :
    ReadsStream true (secondPoll reply) found events reply (received events) where
  line := line
  consumed := by
    have first : (NtripClient.runHandshake true (secondPoll reply)).received = [reply] := by
      rcases line with rfl | rfl <;> decide
    rw [first]
    rfl
  success := by
    rcases line with rfl | rfl <;> decide
  serving := ClientThread.running_of_receptions found.reportInterval rfl receptions

namespace Network

/-! ## Both in turn -/

/-- A turn of the event loop on one descriptor leaves to all peers what they
have sent and read. -/
theorem peers_run_of_turns {server : Fd} {moves : List Move}
    (turns : ∀ move ∈ moves, move = .casterReceives server kBufferSize fun _ => true)
    (net : Network) (conn : ConnId) :
    ((Execution.run step net moves).uplink conn).sent = (net.uplink conn).sent ∧
      ((Execution.run step net moves).downlink conn).taken = (net.downlink conn).taken := by
  induction moves generalizing net with
  | nil => exact ⟨rfl, rfl⟩
  | cons move rest inductionHypothesis =>
      have later := inductionHypothesis
        (fun other member => turns other (List.mem_cons_of_mem move member)) (net.step move)
      rw [turns move List.mem_cons_self] at later ⊢
      cases owner : net.sys.owner server with
      | none =>
          have same : net.step (.casterReceives server kBufferSize fun _ => true) = net := by
            rw [step, owner]
          rw [same] at later
          rw [Execution.run, same]
          exact later
      | some holder =>
          rw [uplink_casterReceives owner, downlink_casterReceives owner, Channels.sent_read,
            Channels.taken_writeAll] at later
          exact later

/-- Two connections have been accepted and have been silent since. -/
structure Arrived (net : Network) (server client : Fd) (arrived : Network) : Prop where
  distinct : arrived.sys.Distinct
  table : arrived.sys.caster = net.sys.caster
  serverOpen : arrived.sys.owner server = some net.sys.accepted
  clientOpen : arrived.sys.owner client = some (net.sys.accepted + 1)
  serverQuiet : arrived.Settled net.sys.accepted [] []
  clientQuiet : arrived.Settled (net.sys.accepted + 1) [] []

theorem arrived_of_connect {net : Network} (distinct : net.sys.Distinct)
    (unwritten : net.Unwritten) {server client : Fd} (different : server ≠ client) :
    Arrived net server client ((net.step (.connect server)).step (.connect client)) where
  distinct := step_distinct _ _ (step_distinct net (.connect server) distinct)
  table := rfl
  serverOpen := by
    change ((net.sys.step (.accept server)).step (.accept client)).owner server = _
    rw [System.owner_step_accept, if_neg different, System.owner_step_accept, if_pos rfl]
  clientOpen := by
    change ((net.sys.step (.accept server)).step (.accept client)).owner client = _
    rw [System.owner_step_accept, if_pos rfl]
    rfl
  serverQuiet := unwritten net.sys.accepted (Nat.le_refl _)
  clientQuiet := unwritten (net.sys.accepted + 1) (Nat.le_succ _)

/-- The newcomers can log in one after the other. -/
theorem exists_login {kind : CharKind} {net : Network} (distinct : net.sys.Distinct)
    (unwritten : net.Unwritten) (pair : Newcomers kind)
    (unused : pair.name.bytes ∉ mountNames net.sys.caster.mountPointInfos)
    {server client : Fd} (different : server ≠ client)
    (serverNew : net.sys.owner server = none ∧ server ∉ descriptors net.sys.caster.mountPointInfos)
    (clientNew : net.sys.owner client = none ∧
      client ∉ descriptors net.sys.caster.mountPointInfos) :
    ∃ opening line reply, (Execution.EachStep step Valid net opening ∧
        Execution.EachStep step (ScansInside kind) net opening) ∧
      (line = okLine ∨ line = icyLine) ∧ (reply = okLine ∨ reply = icyLine) ∧
      (Execution.run step net opening).Settled net.sys.accepted pair.post line ∧
      (Execution.run step net opening).Settled (net.sys.accepted + 1) pair.get reply ∧
      (Execution.run step net opening).sys.Subscribed server client net.sys.accepted
        (net.sys.accepted + 1) := by
  rcases pair.accepted unused server client with ⟨posted, got, _⟩
  have arrive : Execution.EachStep step Valid net [.connect server, .connect client] := by
    refine ⟨serverNew.1, ?_, trivial⟩
    change (net.sys.step (.accept server)).owner client = none
    rw [System.owner_step_accept, if_neg different.symm, clientNew.1]
  have both := arrived_of_connect distinct unwritten different
  generalize reached : (net.step (.connect server)).step (.connect client) = arrived at both
  have table := both.table
  have apart : net.sys.accepted ≠ net.sys.accepted + 1 := Nat.ne_of_lt (Nat.lt_succ_self _)
  rw [← table] at posted got unused serverNew clientNew
  -- The server registers its mount point.
  rcases exists_exchange kind both.distinct both.serverOpen both.serverQuiet pair.post_fits
    (by rw [pair.dispatch_post]; simp) posted with
    ⟨registering, line, register, isLine, registered, serverTold, elsewhere⟩
  have clientWaits := elsewhere _ [] [] apart.symm both.clientQuiet
  generalize middle : Execution.run step arrived registering = midway at *
  have midwayDistinct : midway.sys.Distinct := by
    rw [registered]
    exact System.step_distinct _ _ both.distinct
  have clientStays : midway.sys.owner client = some (net.sys.accepted + 1) := by
    rw [registered, System.owner_step_kept posted, both.clientOpen]
  have table' : midway.sys.caster =
      (parseData arrived.sys.caster (fun _ => true) server pair.post).caster := by
    rw [registered]
    rfl
  -- The client is admitted to it.
  rcases exists_exchange kind midwayDistinct clientStays clientWaits pair.get_fits
    (by rw [pair.dispatch_get]; simp) (table'.symm ▸ got) with
    ⟨asking, reply, ask, isReply, admitted, clientTold, elsewhere'⟩
  refine ⟨[.connect server, .connect client] ++ (registering ++ asking), line, reply, ?_, isLine,
    isReply, ?_⟩
  · have joined : ∀ {condition : Network → Move → Prop},
        Execution.EachStep step condition net [.connect server, .connect client] →
        Execution.EachStep step condition arrived registering →
        Execution.EachStep step condition midway asking →
        Execution.EachStep step condition net
          ([.connect server, .connect client] ++ (registering ++ asking)) := by
      intro condition first second third
      refine Execution.eachStep_append.mpr ⟨first, ?_⟩
      change Execution.EachStep step condition
        ((net.step (.connect server)).step (.connect client)) (registering ++ asking)
      rw [reached]
      exact Execution.eachStep_append.mpr ⟨second, middle.symm ▸ third⟩
    refine ⟨joined arrive register.1 ask.1, joined ?_ register.2 ask.2⟩
    exact ⟨fun _ member => List.mem_singleton.mp member ▸ trivial,
      fun _ member => List.mem_singleton.mp member ▸ trivial, trivial⟩
  · have last : Execution.run step net ([.connect server, .connect client] ++
        (registering ++ asking)) = Execution.run step midway asking := by
      rw [Execution.run_append, Execution.run_append, ← middle, ← reached]
      rfl
    rw [last]
    refine ⟨elsewhere' _ _ _ apart serverTold, clientTold, ?_⟩
    rw [admitted, registered]
    exact System.subscribed_of_newcomers pair unused different both.serverOpen both.clientOpen
      serverNew.2 clientNew.2

/-- The report of a subscribed client is taken without consequences. -/
theorem exists_report {kind : CharKind} {net : Network} (distinct : net.sys.Distinct)
    {server client : Fd} {source sink : ConnId}
    (subscribed : net.sys.Subscribed server client source sink) (apart : source ≠ sink)
    (pair : Newcomers kind) {post line get reply : Bytes}
    (serverSettled : net.Settled source post line) (clientSettled : net.Settled sink get reply) :
    ∃ moves, (Execution.EachStep step Valid net moves ∧
        Execution.EachStep step (ScansInside kind) net moves) ∧
      (Execution.run step net moves).Settled source post line ∧
      (Execution.run step net moves).Settled sink (get ++ pair.ggaBuffer) reply ∧
      (Execution.run step net moves).sys.Subscribed server client source sink := by
  have silent := pair.gga_report.parseData_eq subscribed.servedRecord_client fun _ => true
  have valid := exchange_valid distinct subscribed.sink_open clientSettled
    pair.gga_report.nonempty pair.gga_fits 0
  have scans := exchange_scansInside subscribed.sink_open clientSettled
    pair.gga_fits (fun _ => pair.gga_report.scanned) 0
  refine ⟨_, ⟨valid, scans⟩, ?_, ?_, ?_⟩
  · apply settled_exchange_other subscribed.sink_open clientSettled pair.gga_fits serverSettled
      apart
    rw [silent]
    exact fun call made => absurd made List.not_mem_nil
  · have unanswered : answer (parseData net.sys.caster (fun _ => true) client
        pair.ggaBuffer).sends client = [] := by
      rw [silent]
      rfl
    have told := settled_exchange distinct subscribed.sink_open clientSettled pair.gga_fits
      unanswered
    rwa [List.append_nil] at told
  · rw [exchange_run subscribed.sink_open clientSettled pair.gga_fits]
    have possible : net.sys.Valid (.received client pair.ggaBuffer fun _ => true) :=
      ⟨by rw [subscribed.sink_open]; rfl, pair.gga_report.nonempty, pair.gga_fits⟩
    have sustains : System.Sustains server client (.received client pair.ggaBuffer fun _ => true) :=
      ⟨fun same => absurd same subscribed.different,
        fun _ => ⟨pair.gga_report.plain, pair.gga_report.marked⟩⟩
    exact subscribed.step possible sustains

/-- A server's data is not scanned. -/
theorem scansInside_of_turns {kind : CharKind} {net : Network} {server client : Fd}
    {source sink : ConnId} (subscribed : net.sys.Subscribed server client source sink)
    {moves : List Move}
    (turns : ∀ move ∈ moves, move = .casterReceives server kBufferSize fun _ => true)
    (valid : Execution.EachStep step Valid net moves)
    (keeps : Execution.EachStep step (KeepsUp server client) net moves) :
    Execution.EachStep step (ScansInside kind) net moves := by
  induction moves generalizing net with
  | nil => trivial
  | cons move rest inductionHypothesis =>
      refine ⟨?_, inductionHypothesis (subscribed_step subscribed valid.1 keeps.1)
        (fun other member => turns other (List.mem_cons_of_mem move member)) valid.2 keeps.2⟩
      rw [turns move List.mem_cons_self]
      intro event member
      rw [seen, subscribed.source_open, Option.map_some, Option.toList_some,
        List.mem_singleton] at member
      rw [member]
      rcases subscribed.servedRecord_eq with ⟨info, served, _⟩
      intro checks
      have unserved := checks.2.1
      rw [served] at unserved
      cases unserved

/-- What a subscribed server hands over can reach its client. -/
theorem exists_transfer (kind : CharKind) {net : Network} (distinct : net.sys.Distinct)
    {server client : Fd} {source sink : ConnId}
    (subscribed : net.sys.Subscribed server client source sink) (apart : source ≠ sink)
    {post line get reply : Bytes}
    (serverSettled : net.Settled source post line) (clientSettled : net.Settled sink get reply)
    {data : Bytes} (plain : ¬ LooksLikeRequest data) :
    ∃ moves, (Execution.EachStep step Valid net moves ∧
        Execution.EachStep step (ScansInside kind) net moves) ∧
      ((Execution.run step net moves).uplink source).sent = post ++ data ∧
      ((Execution.run step net moves).uplink sink).sent = get ∧
      ((Execution.run step net moves).downlink source).taken = line ∧
      ((Execution.run step net moves).downlink sink).taken = reply ++ data := by
  have uplink : (net.step (.peerSends source data)).uplink source =
      (Channel.settled post).write data := by
    change net.uplink.write source data source = _
    rw [Channels.write_self, serverSettled.1]
  have pending : ((net.step (.peerSends source data)).uplink source).inFlight = data := by
    rw [uplink]
    rfl
  rcases exists_emptied (step_distinct net (.peerSends source data) distinct) subscribed
    (pending.symm ▸ plain) with ⟨turns, sameTurn, valid, keeps, emptied⟩
  have lasting : (net.step (.peerSends source data)).sys.Subscribed server client source sink :=
    subscribed
  have scans : Execution.EachStep step (ScansInside kind) (net.step (.peerSends source data))
      turns := scansInside_of_turns lasting sameTurn valid keeps
  have peers := peers_run_of_turns sameTurn (net.step (.peerSends source data))
  rcases (stream_run (step_distinct net (.peerSends source data) distinct) subscribed valid
    keeps).2 with ⟨stream, sourceTaken, sinkSent⟩
  have whole : stream = data := by
    rw [emptied, uplink, Channel.sent_write, Channel.sent_settled, Channel.taken_write]
      at sourceTaken
    exact (List.append_cancel_left sourceTaken).symm
  generalize reached : Execution.run step (net.step (.peerSends source data)) turns = last at *
  have asked : (net.step (.peerSends source data)).uplink sink = .settled get := by
    change net.uplink.write source data sink = _
    rw [Channels.write_other apart.symm, clientSettled.1]
  refine ⟨.peerSends source data :: turns ++
    [.peerReceives sink (last.downlink sink).inFlight.length], ?_, ?_⟩
  · have silent : ∀ event ∈ ([] : List Event), event.ScansInside kind net.sys.caster :=
      fun _ member => absurd member List.not_mem_nil
    constructor
    · refine Execution.eachStep_append.mpr ⟨⟨?_, valid⟩, trivial, trivial⟩
      exact distinct.numbered server source subscribed.source_open
    · refine Execution.eachStep_append.mpr ⟨⟨silent, scans⟩, ?_, trivial⟩
      exact fun _ member => absurd member List.not_mem_nil
  · have final : Execution.run step net (.peerSends source data :: turns ++
        [.peerReceives sink (last.downlink sink).inFlight.length]) =
          last.step (.peerReceives sink (last.downlink sink).inFlight.length) := by
      rw [Execution.run_append, ← reached]
      rfl
    rw [final]
    refine ⟨?_, ?_, ?_, ?_⟩
    · exact (peers source).1.trans (by rw [uplink, Channel.sent_write, Channel.sent_settled])
    · exact (peers sink).1.trans (by rw [asked, Channel.sent_settled])
    · change (last.downlink.read sink _ source).taken = line
      rw [Channels.read_other apart, (peers source).2]
      exact congrArg Channel.taken serverSettled.2
    · change (last.downlink.read sink _ sink).taken = reply ++ data
      rw [Channels.read_self, Channel.taken_read_all, sinkSent, whole]
      exact congrArg (· ++ data) (congrArg Channel.sent clientSettled.2 |>.trans
        (Channel.sent_settled reply))

/-- The newcomers have met.  Each has sent its request, the client its report
and the server the data behind it; `Run` of the server succeeds on what it has
read; and so does `Run` of the client, whose callback gets the data however it
is cut. -/
structure Met {kind : CharKind} (pair : Newcomers kind) (data : Bytes) (source sink : ConnId)
    (net : Network) : Prop where
  posted : (net.uplink source).sent = pair.post ++ data
  asked : (net.uplink sink).sent = pair.get ++ pair.ggaBuffer
  registered :
    (NtripServer.runHandshake (secondPoll (net.downlink source).taken)).success = true
  delivered : ∃ reply, (net.downlink sink).taken = reply ++ data ∧
    ∀ (found : ThreadStart) (events : List ClientEvent), (∀ event ∈ events, event.IsReception) →
      (received events).flatten = data →
        ReadsStream true (secondPoll reply) found events reply (received events) ∧
          (NtripClient.threadHandler found events).delivered.flatten = data

/-- A server and its client that come again under the old numbers, after the
server has hung up. -/
def returning : Newcomers .signed where
  serverBuild := release
  clientBuild := release
  name := mountA
  account := userPass
  str := strA
  ip := localhost
  port := 8090
  post := (mountA.server strA userPass localhost 8090).request release
  get := (mountA.client userPass).request release
  postSent := sendFormatted_postA
  getSent := sendFormatted_getA
  clear := ⟨by decide +kernel, by decide +kernel, fun occurs => absurd occurs (by decide +kernel),
    fun _ occurs => absurd occurs strA_plain⟩
  ggaBuffer :=
    ascii "$GPGGA,083552.00,3000.0000000,N,11900.0000000,E,1,08,1.0,0.0,M,100.0,M,,*57\r\n"
  gga_report := ⟨by decide +kernel, by decide +kernel, by decide +kernel⟩
  gga_fits := by decide +kernel

end Network
end Ntrip
