import Ntrip.Foundation.Execution
import Ntrip.Peers.Handshake

namespace Ntrip

/-!
# The worker of the client

`NtripClient::ThreadHandler` reads the connection that `Run` has handed over,
passes every buffer to the callback and reports its position at intervals.
What the operating system, the clock and the application contribute comes in
with the events of a run.  `Run` and the worker take their bytes from one
stream; the second half says when nothing of it falls between the two.
-/

/-! ## The loop -/

def kReceiveTimeoutPeriod : Int := 3

/-- The values of `errno` that the loop goes on with. -/
def EINTR : Int := 4
def EAGAIN : Int := 11
def EWOULDBLOCK : Int := 11

/-- What `recv` returns to the worker: a negative value with `errno`, zero
after an orderly close, or the bytes of a buffer. -/
inductive WorkerRecv
  | negative (errno : Int)
  | closed
  | bytes (buffer : Bytes)
deriving DecidableEq, Repr

/-- The buffer given to the callback, if any. -/
def WorkerRecv.buffers : WorkerRecv → List Bytes
  | .negative _ => []
  | .closed => []
  | .bytes buffer => [buffer]

/-- The readings of `steady_clock` in one round, in nanoseconds: before the
test of the interval, and when the interval starts anew. -/
structure ClockReadings where
  tpEnd : Int
  tpBeg : Int
deriving DecidableEq, Repr

/-- A position report: the reading it fell due at and the bytes sent. -/
structure Report where
  tick : Int
  frame : Bytes
deriving DecidableEq, Repr

/-- The members and locals of the loop, and for the statements what the
callback and `send` have been given. -/
structure ClientThread where
  serviceIsRunning : Bool
  ggaIsUpdate : Bool
  ggaBuffer : Bytes
  tpBeg : Int
  receiveTimeoutCnt : Int
  delivered : List Bytes
  reports : List Report
deriving DecidableEq, Repr

/-- What the worker finds when it is started: the members set by the
application and by `Run`, and the first reading of the clock. -/
structure ThreadStart where
  reportInterval : Int
  ggaIsUpdate : Bool
  ggaBuffer : Bytes
  now : Int
deriving DecidableEq, Repr

/-- What can happen while the worker runs: `Stop` of the application, either
store of its `set_gga_buffer`, and a round of the loop.  `generated` is what
`GGAFrameGenerate` would write in the round. -/
inductive ClientEvent
  | stop
  | storeGgaBuffer (ggaBuffer : Bytes)
  | storeGgaIsUpdate
  | round (recv : WorkerRecv) (clock : ClockReadings) (generated : Bytes)
deriving DecidableEq, Repr

/-- The buffers that an event brings. -/
def ClientEvent.buffers : ClientEvent → List Bytes
  | .stop => []
  | .storeGgaBuffer _ => []
  | .storeGgaIsUpdate => []
  | .round recv _ _ => recv.buffers

/-- `duration_cast<milliseconds>`. -/
def milliseconds (nanoseconds : Int) : Int :=
  nanoseconds.tdiv 1000000

namespace ClientThread

/-- The state in which the loop is entered. -/
def start (found : ThreadStart) : ClientThread where
  serviceIsRunning := true
  ggaIsUpdate := found.ggaIsUpdate
  ggaBuffer := found.ggaBuffer
  tpBeg := found.now
  receiveTimeoutCnt := kReceiveTimeoutPeriod
  delivered := []
  reports := []

/-- A `break`. -/
def leave (thread : ClientThread) : ClientThread :=
  { thread with serviceIsRunning := false }

/-- The branch of a `recv` that has returned bytes, up to the `continue`. -/
def receive (thread : ClientThread) (buffer : Bytes) : ClientThread :=
  { thread with
    receiveTimeoutCnt := kReceiveTimeoutPeriod
    delivered := thread.delivered ++ [buffer] }

/-- The part of the loop that looks at the clock. -/
def report (intvMs : Int) (thread : ClientThread) (clock : ClockReadings)
    (generated : Bytes) : ClientThread :=
  if intvMs ≤ milliseconds (clock.tpEnd - thread.tpBeg) then
    let counted := { thread with receiveTimeoutCnt := thread.receiveTimeoutCnt - 1 }
    if thread.receiveTimeoutCnt ≤ 0 then counted.leave
    else
      let ggaBuffer := if thread.ggaIsUpdate then thread.ggaBuffer else generated
      { counted with
        tpBeg := clock.tpBeg
        ggaBuffer := ggaBuffer
        reports := thread.reports ++ [⟨clock.tpEnd, ggaBuffer⟩] }
  else thread

/-- The body of the loop. -/
def round (intvMs : Int) (thread : ClientThread) (clock : ClockReadings) (generated : Bytes) :
    WorkerRecv → ClientThread
  | .closed => thread.leave
  | .negative errno =>
      if errno ≠ 0 ∧ errno ≠ EAGAIN ∧ errno ≠ EWOULDBLOCK ∧ errno ≠ EINTR then thread.leave
      else thread.report intvMs clock generated
  | .bytes buffer =>
      if buffer.length = kSendBufferSize then thread.receive buffer
      else (thread.receive buffer).report intvMs clock generated

/-- One event, for `intv_ms` computed from the interval in seconds. -/
def step (reportInterval : Int) (thread : ClientThread) : ClientEvent → ClientThread
  | .stop => thread.leave
  | .storeGgaBuffer ggaBuffer => { thread with ggaBuffer := ggaBuffer }
  | .storeGgaIsUpdate => { thread with ggaIsUpdate := true }
  | .round recv clock generated =>
      if thread.serviceIsRunning then thread.round (reportInterval * 1000) clock generated recv
      else thread

end ClientThread

/-- `NtripClient::ThreadHandler`, up to the end of the events. -/
def NtripClient.threadHandler (found : ThreadStart) (events : List ClientEvent) : ClientThread :=
  Execution.run (ClientThread.step found.reportInterval) (ClientThread.start found) events

/-! ## What the callback is given -/

/-- The buffers that the worker receives in a run. -/
def received (events : List ClientEvent) : List Bytes :=
  events.flatMap ClientEvent.buffers

namespace ClientThread

theorem report_delivered (intvMs : Int) (thread : ClientThread) (clock : ClockReadings)
    (generated : Bytes) :
    (thread.report intvMs clock generated).delivered = thread.delivered := by
  unfold report
  split
  · split
    · rfl
    · rfl
  · rfl

theorem round_delivered (intvMs : Int) (thread : ClientThread) (clock : ClockReadings)
    (generated : Bytes) (recv : WorkerRecv) :
    (thread.round intvMs clock generated recv).delivered =
      thread.delivered ++ recv.buffers := by
  cases recv with
  | closed => exact (List.append_nil _).symm
  | negative errno =>
      rw [round, WorkerRecv.buffers, List.append_nil]
      split
      · rfl
      · exact report_delivered intvMs thread clock generated
  | bytes buffer =>
      rw [round, WorkerRecv.buffers]
      split
      · rfl
      · exact report_delivered intvMs (thread.receive buffer) clock generated

/-- A worker that runs after an event ran before it, and has passed on what
the event brought. -/
theorem step_of_running {reportInterval : Int} {thread : ClientThread} {event : ClientEvent}
    (running : (thread.step reportInterval event).serviceIsRunning = true) :
    thread.serviceIsRunning = true ∧
      (thread.step reportInterval event).delivered = thread.delivered ++ event.buffers := by
  cases event with
  | stop => cases running
  | storeGgaBuffer ggaBuffer => exact ⟨running, (List.append_nil _).symm⟩
  | storeGgaIsUpdate => exact ⟨running, (List.append_nil _).symm⟩
  | round recv clock generated =>
      have before : thread.serviceIsRunning = true := by
        by_contra left
        rw [step, if_neg left] at running
        exact left running
      rw [step, if_pos before]
      exact ⟨before, round_delivered _ thread clock generated recv⟩

/-- While the worker runs, the callback has been given every buffer received,
in order and once. -/
theorem run_of_running {reportInterval : Int} {thread : ClientThread} {events : List ClientEvent}
    (running : (Execution.run (step reportInterval) thread events).serviceIsRunning = true) :
    thread.serviceIsRunning = true ∧
      (Execution.run (step reportInterval) thread events).delivered =
        thread.delivered ++ received events := by
  induction events generalizing thread with
  | nil => exact ⟨running, (List.append_nil _).symm⟩
  | cons event events inductionHypothesis =>
      have later := inductionHypothesis running
      have here := step_of_running later.1
      refine ⟨here.1, ?_⟩
      rw [Execution.run, later.2, here.2, List.append_assoc]
      rfl

end ClientThread

/-! ## The hand-over -/

/-- A loop that ends before its counter is used up has searched every result
but the last in vain. -/
theorem received_of_left {confirmed : Bool} {polls : Nat → RecvResult} {timeout poll : Nat}
    {remaining : Int} (exit : (handshakeLoop confirmed polls timeout poll).exit = .left remaining)
    (inTime : 0 ≤ remaining) :
    ∃ front result, (handshakeLoop confirmed polls timeout poll).received = front ++ [result] ∧
      ∀ earlier ∈ front, answers earlier = false := by
  induction timeout generalizing poll with
  | zero =>
      rw [← LoopExit.left.inj exit] at inTime
      exact absurd inTime (by decide)
  | succ timeout inductionHypothesis =>
      rw [handshakeLoop] at exit ⊢
      cases recv : polls poll with
      | nothing =>
          rw [recv] at exit
          exact inductionHypothesis exit
      | closed =>
          rw [recv] at exit
          cases exit
      | bytes result =>
          rw [recv] at exit
          dsimp only at exit ⊢
          cases verdict : answers result with
          | true =>
              refine ⟨[], result, ?_, by simp⟩
              cases confirmed with
              | true => rfl
              | false => rw [verdict] at exit; cases exit
          | false =>
              rw [verdict] at exit
              rcases inductionHypothesis exit with ⟨front, last, whole, vain⟩
              refine ⟨result :: front, last, congrArg (result :: ·) whole, ?_⟩
              intro earlier member
              rcases List.mem_cons.mp member with same | member
              · rw [same, verdict]
              · exact vain earlier member

/-- A successful `Run` whose first result has a success line has taken that
result, and no other. -/
theorem received_of_success {confirmed : Bool} {polls : Nat → RecvResult}
    {first : Bytes} {later rest : List Bytes}
    (success : (NtripClient.runHandshake confirmed polls).success = true)
    (stream : (NtripClient.runHandshake confirmed polls).received ++ later = first :: rest)
    (answer : answers first = true) :
    later = rest := by
  unfold NtripClient.runHandshake Handshake.outcome at success stream
  cases exit : (handshakeLoop confirmed polls 30 0).exit with
  | returned =>
      rw [exit] at success
      cases success
  | left remaining =>
      rw [exit] at success stream
      by_cases out : remaining ≤ 0
      · simp [out] at success
      · rcases received_of_left exit (by omega) with ⟨front, result, whole, vain⟩
        simp only [if_neg out, whole] at stream
        cases front with
        | nil => exact (List.cons.inj stream).2
        | cons earlier front =>
            have same : earlier = first := (List.cons.inj stream).1
            have silent := vain earlier (List.mem_cons_self)
            rw [same, answer] at silent
            cases silent

/-- A result that begins with a reply line has a success line. -/
theorem answers_of_prefix {reply first : Bytes} (line : reply = okLine ∨ reply = icyLine)
    (leading : reply <+: first) : answers first = true := by
  unfold answers
  rw [Bool.or_eq_true, mentions_iff, mentions_iff]
  rcases line with rfl | rfl
  · exact Or.inl ((List.prefix_append (ascii "HTTP/1.1 200 OK") crlf).isInfix.trans leading.isInfix)
  · exact Or.inr ((List.prefix_append (ascii "ICY 200 OK") crlf).isInfix.trans leading.isInfix)

/-- A stream that `Run` and then the worker take to its end: a reply line,
whole in the first result, and data behind it. -/
structure TakesStream (confirmed : Bool) (polls : Nat → RecvResult) (events : List ClientEvent)
    (reply data first : Bytes) (rest : List Bytes) : Prop where
  line : reply = okLine ∨ reply = icyLine
  leading : reply <+: first
  stream : (first :: rest).flatten = reply ++ data
  consumed :
    (NtripClient.runHandshake confirmed polls).received ++ received events = first :: rest

/-- The callback is given exactly the data if and only if no byte of it has
come with the reply line. -/
theorem delivered_iff {confirmed : Bool} {polls : Nat → RecvResult} {events : List ClientEvent}
    {reply data first : Bytes} {rest : List Bytes} (found : ThreadStart)
    (takes : TakesStream confirmed polls events reply data first rest)
    (success : (NtripClient.runHandshake confirmed polls).success = true)
    (serving : (NtripClient.threadHandler found events).serviceIsRunning = true) :
    (NtripClient.threadHandler found events).delivered.flatten = data ↔ first = reply := by
  have handedOver : received events = rest := by
    apply received_of_success success takes.consumed
    exact answers_of_prefix takes.line takes.leading
  have delivers : (NtripClient.threadHandler found events).delivered = rest :=
    (ClientThread.run_of_running serving).2.trans handedOver
  have stream := takes.stream
  rcases takes.leading with ⟨coalesced, rfl⟩
  rw [List.flatten_cons, List.append_assoc, List.append_cancel_left_eq] at stream
  rw [delivers, ← stream, List.self_eq_append_left, List.append_right_eq_self]

/-- The second poll takes the first result. -/
def secondPoll (first : Bytes) : Nat → RecvResult
  | 1 => .bytes first
  | _ => .nothing

/-- A round without data, and one with a buffer. -/
def twoRounds (buffer : Bytes) : List ClientEvent :=
  [.round (.negative EAGAIN) ⟨5000000, 5000000⟩ [],
    .round (.bytes buffer) ⟨15000000, 15000000⟩ []]

def everySecond : ThreadStart := ⟨1, false, [], 0⟩

theorem takesStream_separate :
    TakesStream true (secondPoll icyLine) (twoRounds [0xD3, 0x00]) icyLine [0xD3, 0x00] icyLine
      [[0xD3, 0x00]] where
  line := Or.inr rfl
  leading := List.prefix_rfl
  stream := by decide
  consumed := by decide

theorem delivered_separate :
    (NtripClient.threadHandler everySecond (twoRounds [0xD3, 0x00])).delivered.flatten =
      [0xD3, 0x00] :=
  (delivered_iff everySecond takesStream_separate (by decide) (by decide)).mpr rfl

/-- The first byte of the data comes with the reply line. -/
theorem delivered_fails :
    ¬ ∀ (polls : Nat → RecvResult) (events : List ClientEvent) (reply data first : Bytes)
      (rest : List Bytes) (found : ThreadStart),
      (∀ segment ∈ first :: rest, segment ≠ [] ∧ segment.length ≤ kSendBufferSize) →
      TakesStream true polls events reply data first rest →
      (NtripClient.runHandshake true polls).success = true →
      (NtripClient.threadHandler found events).serviceIsRunning = true →
      (NtripClient.threadHandler found events).delivered.flatten = data := by
  intro always
  have whole := always (secondPoll (okLine ++ [0xD3])) (twoRounds [0x00]) okLine
    [0xD3, 0x00] (okLine ++ [0xD3]) [[0x00]] everySecond (by decide)
    ⟨Or.inl rfl, List.prefix_append _ _, by decide, by decide⟩ (by decide) (by decide)
  revert whole
  decide

end Ntrip
