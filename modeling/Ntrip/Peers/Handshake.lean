import Ntrip.Caster.Requests
import Ntrip.Peers.Request

namespace Ntrip

/-!
# Waiting for the reply

The last part of `NtripServer::Run` and `NtripClient::Run`: up to thirty polls
of the socket after the request has been sent.  The counter that bounds the
loop is tested once more behind it, so its value at the `break` decides what
`Run` returns.  A result of `recv` is searched for a success line on its own;
nothing is kept of the results before it.
-/

/-- What one `recv` of the non-blocking socket returns: a negative value, zero
after an orderly close, or a number of bytes. -/
inductive RecvResult
  | nothing
  | closed
  | bytes (result : Bytes)
deriving DecidableEq, Repr

/-- The test on a result. -/
def answers (result : Bytes) : Bool :=
  mentions result "HTTP/1.1 200 OK" || mentions result "ICY 200 OK"

/-- How the loop ends: with a value of `timeout`, or with a `return false`
that has closed the socket. -/
inductive LoopExit
  | left (timeout : Int)
  | returned
deriving DecidableEq, Repr

/-- The end of the loop, and for the statements only the results that it
took out of the stream. -/
structure Handshake where
  exit : LoopExit
  received : List Bytes
deriving DecidableEq, Repr

/-- The loop `while (timeout--)`.  `confirmed` is what becomes of the message
that is sent after a success line: a client's position report, nothing for a
server. -/
def handshakeLoop (confirmed : Bool) (polls : Nat → RecvResult) : Nat → Nat → Handshake
  | 0, _ => ⟨.left (-1), []⟩
  | timeout + 1, poll =>
      match polls poll with
      | .bytes result =>
          if answers result then
            if confirmed then ⟨.left timeout, [result]⟩ else ⟨.returned, [result]⟩
          else
            let later := handshakeLoop confirmed polls timeout (poll + 1)
            ⟨later.exit, result :: later.received⟩
      | .closed => ⟨.returned, []⟩
      | .nothing => handshakeLoop confirmed polls timeout (poll + 1)

/-- What `Run` returns, whether the socket is open then, and the results taken
out of the stream. -/
structure RunOutcome where
  success : Bool
  socketOpen : Bool
  received : List Bytes
deriving DecidableEq, Repr

/-- The test of the counter behind the loop. -/
def Handshake.outcome (handshake : Handshake) : RunOutcome :=
  match handshake.exit with
  | .returned => ⟨false, false, handshake.received⟩
  | .left timeout =>
      if timeout ≤ 0 then ⟨false, false, handshake.received⟩ else ⟨true, true, handshake.received⟩

/-- `NtripServer::Run` from its first `recv` on. -/
def NtripServer.runHandshake (polls : Nat → RecvResult) : RunOutcome :=
  (handshakeLoop true polls 30 0).outcome

/-- `NtripClient::Run` from its first `recv` on. -/
def NtripClient.runHandshake (ggaSent : Bool) (polls : Nat → RecvResult) : RunOutcome :=
  (handshakeLoop ggaSent polls 30 0).outcome

/-! ## The verdict -/

/-- A poll that lets the loop go on. -/
def RecvResult.Quiet (recv : RecvResult) : Prop :=
  recv ≠ .closed ∧ ∀ result, recv = .bytes result → answers result = false

/-- A poll whose result has a success line. -/
def RecvResult.Answers (recv : RecvResult) : Prop :=
  ∃ result, recv = .bytes result ∧ answers result = true

/-- Before any close, a single result has a success line, and it comes at one
of the first polls. -/
def AnsweredWithin (polls : Nat → RecvResult) (bound : Nat) : Prop :=
  ∃ poll < bound, (∀ earlier ≤ poll, polls earlier ≠ .closed) ∧ (polls poll).Answers

theorem RecvResult.quiet_or (recv : RecvResult) :
    recv.Quiet ∨ recv = .closed ∨ recv.Answers := by
  cases recv with
  | nothing => exact Or.inl ⟨by simp, by simp⟩
  | closed => exact Or.inr (Or.inl rfl)
  | bytes result =>
      cases verdict : answers result with
      | true => exact Or.inr (Or.inr ⟨result, rfl, verdict⟩)
      | false =>
          refine Or.inl ⟨by simp, ?_⟩
          intro other same
          cases same
          exact verdict

theorem RecvResult.Quiet.not_answers {recv : RecvResult} (quiet : recv.Quiet) :
    ¬ recv.Answers := by
  rintro ⟨result, same, verdict⟩
  rw [quiet.2 result same] at verdict
  cases verdict

theorem handshakeLoop_of_quiet {polls : Nat → RecvResult} {poll : Nat}
    (quiet : (polls poll).Quiet) (confirmed : Bool) (timeout : Nat) :
    (handshakeLoop confirmed polls (timeout + 1) poll).exit =
      (handshakeLoop confirmed polls timeout (poll + 1)).exit := by
  rw [handshakeLoop]
  cases recv : polls poll with
  | nothing => rfl
  | closed => exact absurd recv quiet.1
  | bytes result =>
      dsimp only
      rw [quiet.2 result recv, if_neg Bool.false_ne_true]

/-- One more quiet poll before a row of quiet polls. -/
theorem quiet_cons {polls : Nat → RecvResult} {poll count : Nat} (first : (polls poll).Quiet)
    (later : ∀ earlier < count, (polls (poll + 1 + earlier)).Quiet) :
    ∀ earlier < count + 1, (polls (poll + earlier)).Quiet := by
  intro earlier bound
  cases earlier with
  | zero => exact first
  | succ earlier =>
      rw [← Nat.add_assoc, Nat.add_right_comm]
      exact later earlier (Nat.lt_of_succ_lt_succ bound)

/-- The loop ends at the first poll that is not quiet, or runs out. -/
theorem handshakeLoop_cases (polls : Nat → RecvResult) (timeout poll : Nat) :
    (∃ quiet < timeout, (∀ earlier < quiet, (polls (poll + earlier)).Quiet) ∧
        (polls (poll + quiet)).Answers ∧
        (handshakeLoop true polls timeout poll).exit = .left (timeout - 1 - quiet : Nat)) ∨
      (∃ quiet < timeout, (∀ earlier < quiet, (polls (poll + earlier)).Quiet) ∧
        polls (poll + quiet) = .closed ∧
        (handshakeLoop true polls timeout poll).exit = .returned) ∨
      ((∀ earlier < timeout, (polls (poll + earlier)).Quiet) ∧
        (handshakeLoop true polls timeout poll).exit = .left (-1)) := by
  induction timeout generalizing poll with
  | zero => exact Or.inr (Or.inr ⟨fun _ impossible => absurd impossible (Nat.not_lt_zero _), rfl⟩)
  | succ timeout inductionHypothesis =>
      rcases (polls poll).quiet_or with quiet | closed | ⟨result, recv, verdict⟩
      · have step := handshakeLoop_of_quiet quiet true timeout
        have shift : ∀ count, poll + 1 + count = poll + (count + 1) := by
          intro count
          omega
        rcases inductionHypothesis (poll + 1) with
          ⟨count, bound, earlier, answer, exit⟩ | ⟨count, bound, earlier, closed, exit⟩ |
          ⟨earlier, exit⟩
        · refine Or.inl ⟨count + 1, Nat.succ_lt_succ bound, quiet_cons quiet earlier,
            shift count ▸ answer, ?_⟩
          rw [step, exit]
          congr 2
          omega
        · exact Or.inr (Or.inl ⟨count + 1, Nat.succ_lt_succ bound, quiet_cons quiet earlier,
            shift count ▸ closed, step.trans exit⟩)
        · exact Or.inr (Or.inr ⟨quiet_cons quiet earlier, step.trans exit⟩)
      · refine Or.inr (Or.inl ⟨0, Nat.zero_lt_succ _, by simp, closed, ?_⟩)
        rw [handshakeLoop, closed]
      · refine Or.inl ⟨0, Nat.zero_lt_succ _, by simp, ⟨result, recv, verdict⟩, ?_⟩
        rw [handshakeLoop, recv]
        simp [verdict]

/-- The loop keeps the counter positive exactly until the last poll. -/
theorem outcome_cases (polls : Nat → RecvResult) :
    (∃ poll < 30, (∀ earlier < poll, (polls earlier).Quiet) ∧ (polls poll).Answers ∧
        (handshakeLoop true polls 30 0).exit = .left (29 - poll : Nat)) ∨
      (∃ poll < 30, (∀ earlier < poll, (polls earlier).Quiet) ∧ polls poll = .closed ∧
        (handshakeLoop true polls 30 0).exit = .returned) ∨
      ((∀ earlier < 30, (polls earlier).Quiet) ∧
        (handshakeLoop true polls 30 0).exit = .left (-1)) := by
  have cases := handshakeLoop_cases polls 30 0
  simpa only [Nat.zero_add] using cases

theorem outcome_of_left {handshake : Handshake} {timeout : Int}
    (exit : handshake.exit = .left timeout) :
    handshake.outcome.success = decide (0 < timeout) ∧
      handshake.outcome.socketOpen = decide (0 < timeout) := by
  unfold Handshake.outcome
  rw [exit]
  by_cases out : timeout ≤ 0
  · simp [out, Int.not_lt.mpr out]
  · simp [out, Int.not_le.mp out]

theorem outcome_of_returned {handshake : Handshake} (exit : handshake.exit = .returned) :
    handshake.outcome.success = false ∧ handshake.outcome.socketOpen = false := by
  unfold Handshake.outcome
  rw [exit]
  exact ⟨rfl, rfl⟩

/-- A poll before which all polls are quiet is not behind an answer. -/
theorem AnsweredWithin.le {polls : Nat → RecvResult} {bound count : Nat}
    (answered : AnsweredWithin polls bound) (quiet : ∀ earlier < count, (polls earlier).Quiet) :
    ∃ poll < bound, count ≤ poll ∧ (∀ earlier ≤ poll, polls earlier ≠ .closed) ∧
      (polls poll).Answers := by
  rcases answered with ⟨poll, inBound, unclosed, answer⟩
  refine ⟨poll, inBound, ?_, unclosed, answer⟩
  apply Nat.le_of_not_lt
  intro before
  exact (quiet poll before).not_answers answer

/-- What `Run` reports, and what becomes of the socket. -/
structure Verdict (polls : Nat → RecvResult) (outcome : RunOutcome) : Prop where
  success : AnsweredWithin polls 29 → outcome.success = true
  failure : ¬ AnsweredWithin polls 30 → outcome.success = false
  closed : outcome.success = false → outcome.socketOpen = false

theorem loop_verdict (polls : Nat → RecvResult) :
    Verdict polls (handshakeLoop true polls 30 0).outcome := by
  rcases outcome_cases polls with
    ⟨poll, inBound, quiet, answer, exit⟩ | ⟨poll, inBound, quiet, closed, exit⟩ | ⟨quiet, exit⟩
  · have result := outcome_of_left exit
    constructor
    · intro answered
      rcases answered.le quiet with ⟨later, before, order, _⟩
      rw [result.1]
      apply decide_eq_true
      omega
    · intro unanswered
      refine absurd ⟨poll, inBound, ?_, answer⟩ unanswered
      intro earlier upTo
      rcases Nat.lt_or_eq_of_le upTo with before | same
      · exact (quiet earlier before).1
      · rcases answer with ⟨bytes, recv, _⟩
        rw [same, recv]
        simp
    · intro failed
      rw [result.2, ← result.1, failed]
  · have result := outcome_of_returned exit
    constructor
    · intro answered
      rcases answered.le quiet with ⟨later, _, order, unclosed, _⟩
      exact absurd closed (unclosed poll order)
    · exact fun _ => result.1
    · exact fun _ => result.2
  · have result := outcome_of_left exit
    constructor
    · intro answered
      rcases answered.le quiet with ⟨later, before, order, _⟩
      exact absurd before (by omega)
    · exact fun _ => result.1
    · exact fun _ => result.2

/-- Both peers report success when a single result with a success line comes
at one of the first 29 polls and before any close, and failure when none comes
before a close at any of the 30; a failure leaves no open socket. -/
theorem handshake_verdict (polls : Nat → RecvResult) :
    Verdict polls (NtripServer.runHandshake polls) ∧
      Verdict polls (NtripClient.runHandshake true polls) :=
  ⟨loop_verdict polls, loop_verdict polls⟩

/-- The bytes of a poll. -/
def RecvResult.data : RecvResult → Bytes
  | .bytes result => result
  | _ => []

/-- The bytes received up to a poll, in order. -/
def receivedThrough (polls : Nat → RecvResult) (poll : Nat) : Bytes :=
  (List.range (poll + 1)).flatMap fun index => (polls index).data

/-- The success line comes in two pieces. -/
def splitReply : Nat → RecvResult
  | 0 => .bytes (ascii "HTTP/1.1 20")
  | 1 => .bytes (ascii "0 OK\r\n")
  | _ => .nothing

theorem handshake_fails :
    ¬ ∀ polls : Nat → RecvResult,
      (NtripServer.runHandshake polls).success = true ↔
        ∃ poll < 30, (∀ earlier ≤ poll, polls earlier ≠ .closed) ∧
          answers (receivedThrough polls poll) = true := by
  intro always
  have whole : (NtripServer.runHandshake splitReply).success = true := by
    apply (always splitReply).mpr
    exact ⟨1, by decide, by decide, by decide⟩
  revert whole
  decide

end Ntrip
