import Ntrip.Foundation.Ledger
import Ntrip.Peers.ClientThread

namespace Ntrip

/-!
# The life cycle of the peers

`NtripClient` and `NtripServer` share the skeleton of `Run`, `Stop` and
`ThreadHandler`.  One step is a test or store of the flag, a block that closes
`socket_fd_`, a round of the loop, or another part of a call that touches the
members at most once.  Every socket that `Run` opens has a number of its own,
and a ledger keeps which of them the descriptors stand for.
-/

/-- `errno` of a call on `-1`. -/
def EBADF : Int := 9

/-- What `Run` meets between `socket` and the assignment to `socket_fd_`. -/
structure Contact where
  connected : Bool
  requestSent : Bool
  ggaSent : Bool
  polls : Nat → RecvResult

/-- `close(socket_fd)` and `return false`. -/
def RunOutcome.abandoned : RunOutcome :=
  ⟨false, false, []⟩

/-- `NtripServer::Run` from `connect` on. -/
def NtripServer.contact (contact : Contact) : RunOutcome :=
  if contact.connected = false then .abandoned
  else if contact.requestSent = false then .abandoned
  else NtripServer.runHandshake contact.polls

/-- `NtripClient::Run` from `connect` on. -/
def NtripClient.contact (contact : Contact) : RunOutcome :=
  if contact.connected = false then .abandoned
  else if contact.requestSent = false then .abandoned
  else NtripClient.runHandshake contact.ggaSent contact.polls

/-- What a round of the worker meets. -/
structure Surroundings where
  recv : WorkerRecv
  clock : ClockReadings
  generated : Bytes

/-- What the two peers do not share: the part of `Run` that speaks to the
caster, and the body of the worker's loop, which gives nothing at a `break`. -/
structure PeerCode (Locals : Type) where
  contact : Contact → RunOutcome
  start : ThreadStart → Locals
  round : Locals → Surroundings → Option Locals
  socketOpen_eq : ∀ met, (contact met).socketOpen = (contact met).success
  round_badDescriptor : ∀ locals met, met.recv = .negative EBADF → round locals met = none

theorem Handshake.socketOpen_outcome (handshake : Handshake) :
    handshake.outcome.socketOpen = handshake.outcome.success := by
  unfold outcome
  split
  · rfl
  · split
    · rfl
    · rfl

/-- Every exit of `Run` behind `socket` that returns `false` closes the socket. -/
theorem socketOpen_contact (connected requestSent : Bool) (handshake : Handshake) :
    (if connected = false then RunOutcome.abandoned
      else if requestSent = false then .abandoned else handshake.outcome).socketOpen =
      (if connected = false then RunOutcome.abandoned
        else if requestSent = false then .abandoned else handshake.outcome).success := by
  split
  · rfl
  · split
    · rfl
    · exact handshake.socketOpen_outcome

/-- The body of the loop in `NtripServer::ThreadHandler`. -/
def NtripServer.round (recv : WorkerRecv) : Option Unit :=
  match recv with
  | .closed => none
  | .negative errno =>
      if errno ≠ 0 ∧ errno ≠ EAGAIN ∧ errno ≠ EWOULDBLOCK ∧ errno ≠ EINTR then none else some ()
  | .bytes _ => some ()

def NtripServer.code : PeerCode Unit where
  contact := NtripServer.contact
  start := fun _ => ()
  round := fun _ met => NtripServer.round met.recv
  socketOpen_eq := fun met => socketOpen_contact met.connected met.requestSent _
  round_badDescriptor := by
    intro _ met bad
    rw [bad]
    rfl

/-- The body of the loop in `NtripClient::ThreadHandler`. -/
def NtripClient.round (reportInterval : Int) (thread : ClientThread) (met : Surroundings) :
    Option ClientThread :=
  let next := thread.round (reportInterval * 1000) met.clock met.generated met.recv
  if next.serviceIsRunning then some next else none

def NtripClient.code (reportInterval : Int) : PeerCode ClientThread where
  contact := NtripClient.contact
  start := ClientThread.start
  round := NtripClient.round reportInterval
  socketOpen_eq := fun met => socketOpen_contact met.connected met.requestSent _
  round_badDescriptor := by
    intro thread met bad
    unfold NtripClient.round
    rw [bad]
    rfl

/-! ## One step -/

/-- Where the worker is in `ThreadHandler`. -/
inductive Phase (Locals : Type)
  | starting
  | looping (locals : Locals)
  | leaving
  | storing
  | done

/-- Where the application is: in no call, in the `Stop` that it or `Run`
called, or in another part of `Run`. -/
inductive Call
  | idle
  | testing
  | storing (inRun : Bool)
  | closing (inRun : Bool)
  | joining (inRun : Bool)
  | opening
  | contacting (fd : Int) (socket : Nat)
  | assigning (fd : Int) (socket : Nat)
  | resetting (socket : Nat)
deriving DecidableEq, Repr

/-- The descriptor and socket that `Run` has not handed over yet. -/
def Call.unassigned : Call → Option (Int × Nat)
  | .contacting fd socket => some (fd, socket)
  | .assigning fd socket => some (fd, socket)
  | _ => none

/-- A call that has returned, with the socket that it opened. -/
inductive Return
  | stop
  | run (success : Bool) (socket : Option Nat)
deriving DecidableEq, Repr

/-- The members, the two parties, and for the statements the ledger of the
sockets and the calls that have returned. -/
structure LifeCycle (Locals : Type) where
  serviceIsRunning : Bool
  socketFd : Int
  thread : Option (Phase Locals)
  call : Call
  ledger : Ledger Int Nat
  returns : List Return

/-- A call of the application, the next step of the call, or the next step of
the worker, with what each step would meet. -/
inductive LifeEvent
  | callRun
  | callStop
  | application (fd : Int) (contact : Contact)
  | worker (found : ThreadStart) (met : Surroundings)

namespace LifeCycle

variable {Locals : Type}

def init : LifeCycle Locals where
  serviceIsRunning := false
  socketFd := -1
  thread := none
  call := .idle
  ledger := .empty
  returns := []

/-- `if (socket_fd_ > 0) { close(socket_fd_); socket_fd_ = -1; }` -/
def closeSocket (state : LifeCycle Locals) : LifeCycle Locals :=
  if 0 < state.socketFd then
    { state with socketFd := -1, ledger := state.ledger.release state.socketFd }
  else state

def finish (state : LifeCycle Locals) (result : Return) : LifeCycle Locals :=
  { state with call := .idle, returns := state.returns ++ [result] }

/-- The next step of `Run` or `Stop`. -/
def advance (code : PeerCode Locals) (state : LifeCycle Locals) (fd : Int) (contact : Contact) :
    LifeCycle Locals :=
  match state.call with
  | .idle => state
  | .testing =>
      if state.serviceIsRunning then state.finish (.run true none)
      else { state with call := .storing true }
  | .storing inRun => { state with serviceIsRunning := false, call := .closing inRun }
  | .closing inRun => { state.closeSocket with call := .joining inRun }
  | .joining inRun =>
      if inRun then { state with thread := none, call := .opening }
      else { state with thread := none }.finish .stop
  | .opening =>
      if fd = -1 then state.finish (.run false none)
      else
        let socket := state.ledger.obtained.length
        { state with ledger := state.ledger.obtain fd socket, call := .contacting fd socket }
  | .contacting fd socket =>
      let outcome := code.contact contact
      let after :=
        if outcome.socketOpen then state
        else { state with ledger := state.ledger.release fd }
      if outcome.success then { after with call := .assigning fd socket }
      else after.finish (.run false (some socket))
  | .assigning fd socket => { state with socketFd := fd, call := .resetting socket }
  | .resetting socket => { state with thread := some .starting }.finish (.run true (some socket))

/-- The next step of `ThreadHandler`. -/
def work (code : PeerCode Locals) (state : LifeCycle Locals) (found : ThreadStart)
    (met : Surroundings) : LifeCycle Locals :=
  match state.thread with
  | none => state
  | some .starting =>
      { state with serviceIsRunning := true, thread := some (.looping (code.start found)) }
  | some (.looping locals) =>
      if state.serviceIsRunning then
        match code.round locals met with
        | some next => { state with thread := some (.looping next) }
        | none => { state with thread := some .leaving }
      else { state with thread := some .leaving }
  | some .leaving => { state.closeSocket with thread := some .storing }
  | some .storing => { state with serviceIsRunning := false, thread := some .done }
  | some .done => state

def step (code : PeerCode Locals) (state : LifeCycle Locals) : LifeEvent → LifeCycle Locals
  | .callRun => { state with call := .testing }
  | .callStop => { state with call := .storing false }
  | .application fd contact => state.advance code fd contact
  | .worker found met => state.work code found met

/-- There is no worker to wait for. -/
def Ended (thread : Option (Phase Locals)) : Prop :=
  thread = none ∨ thread = some .done

/-- The application calls from no call; `join` waits for the worker; `socket`
fails or returns a positive number that is not open; `recv` on `-1` fails. -/
def Valid (state : LifeCycle Locals) : LifeEvent → Prop
  | .callRun => state.call = .idle
  | .callStop => state.call = .idle
  | .application fd _ =>
      match state.call with
      | .idle => False
      | .joining _ => Ended state.thread
      | .resetting _ => Ended state.thread
      | .opening => fd = -1 ∨ 0 < fd ∧ state.ledger.holder fd = none
      | _ => True
  | .worker _ met =>
      match state.thread with
      | none => False
      | some .done => False
      | some (.looping _) => state.socketFd = -1 → met.recv = .negative EBADF
      | _ => True

/-- The steps of a run, in any order that the two parties allow. -/
abbrev ValidRun (code : PeerCode Locals) (events : List LifeEvent) : Prop :=
  Execution.EachStep (step code) Valid init events

end LifeCycle
end Ntrip
