import Ntrip.Peers.PositionReport
import Ntrip.Peers.SilenceTimeout

namespace Ntrip

/-!
# A client over its sessions

The application tells a client its location or the text of its reports
whenever it likes, also while the worker is making a report.  A setter stores
two members and the worker reads them one after the other, so that either may
come between the steps of the other; every access to a member is one step.
`Run` sends a report when it finds a success line, and the worker sends one at
every tick; all of them go through `gga_buffer_`, which outlives the worker.
-/

/-! ## A round in steps -/

inductive Axis
  | latitude
  | longitude
deriving DecidableEq, Repr

structure Coordinate where
  degree : ℚ
  degree_le : |degree| ≤ 180

abbrev Location := Axis → Coordinate

/-- What `GGAFrameGenerate` writes at some time, for the altitude that the
client gives it. -/
def Location.frame (kind : CharKind) (location : Location) (time : LocalTime) : Bytes :=
  (ggaReport kind time (location .latitude).degree (location .longitude).degree 10).1

theorem Location.frame_eq (kind : CharKind) (location : Location) (time : LocalTime) :
    location.frame kind time =
      ggaFrame (ggaBody time (location .latitude).degree (location .longitude).degree 10)
        (checkSum (ggaBody time (location .latitude).degree (location .longitude).degree 10)) := by
  rw [frame, ggaReport_eq kind time (location .latitude).degree_le
    (location .longitude).degree_le (by norm_num [abs_le])]

theorem Location.frame_nonempty (kind : CharKind) (location : Location) (time : LocalTime) :
    location.frame kind time ≠ [] := by
  rw [frame_eq]
  exact List.cons_ne_nil _ _

/-- The arguments of `GGAFrameGenerate`, when both have been loaded. -/
def arguments (loaded : Axis → Option Coordinate) : Option Location :=
  match loaded .latitude, loaded .longitude with
  | some latitude, some longitude =>
      some fun
        | .latitude => latitude
        | .longitude => longitude
  | _, _ => none

theorem arguments_eq_some {loaded : Axis → Option Coordinate} {location : Location}
    (complete : arguments loaded = some location) (axis : Axis) :
    loaded axis = some (location axis) := by
  unfold arguments at complete
  cases latitude : loaded .latitude with
  | none => simp [latitude] at complete
  | some first =>
      cases longitude : loaded .longitude with
      | none => simp [latitude, longitude] at complete
      | some second =>
          rw [latitude, longitude] at complete
          rw [← Option.some.inj complete]
          cases axis with
          | latitude => exact latitude
          | longitude => exact longitude

/-- Where the worker is: before a round, past the test of `gga_is_update_`
with the arguments loaded so far, or before `send`. -/
inductive Making
  | resting
  | loading (tick : Int) (loaded : Axis → Option Coordinate)
  | sending (tick : Int)

namespace Making

def isResting : Making → Bool
  | .resting => true
  | _ => false

/-- The coordinate has still to be loaded. -/
def lacks (axis : Axis) : Making → Bool
  | .loading _ loaded => (loaded axis).isNone
  | _ => false

/-- The location that a frame is about to be generated from. -/
def complete : Making → Option Location
  | .loading _ loaded => arguments loaded
  | _ => none

def isSending : Making → Bool
  | .sending _ => true
  | _ => false

end Making

namespace ClientThread

/-- The part of the loop that looks at the clock, as far as the test of
`gga_is_update_`, and whether it comes to that. -/
def lookAtClock (intvMs : Int) (thread : ClientThread) (clock : ClockReadings) :
    ClientThread × Bool :=
  if intvMs ≤ milliseconds (clock.tpEnd - thread.tpBeg) then
    let counted := { thread with receiveTimeoutCnt := thread.receiveTimeoutCnt - 1 }
    if thread.receiveTimeoutCnt ≤ 0 then (counted.leave, false)
    else ({ counted with tpBeg := clock.tpBeg }, true)
  else (thread, false)

/-- The body of the loop as far as the test, and whether it comes to that. -/
def poll (intvMs : Int) (thread : ClientThread) (clock : ClockReadings) (recv : WorkerRecv) :
    ClientThread × Bool :=
  if recv.breaks then (thread.leave, false)
  else if recv.reachesClock then (thread.arrive recv).lookAtClock intvMs clock
  else (thread.arrive recv, false)

/-- The whole body, when nothing comes between its steps. -/
theorem round_eq_poll (intvMs : Int) (thread : ClientThread) (clock : ClockReadings)
    (generated : Bytes) (recv : WorkerRecv) :
    thread.round intvMs clock generated recv =
      let polled := thread.poll intvMs clock recv
      let ggaBuffer := if polled.1.ggaIsUpdate then polled.1.ggaBuffer else generated
      if polled.2 then
        { polled.1 with
          ggaBuffer := ggaBuffer
          reports := polled.1.reports ++ [⟨clock.tpEnd, ggaBuffer⟩] }
      else polled.1 := by
  rw [round_eq, poll]
  by_cases breaks : recv.breaks
  · rw [if_pos breaks, if_pos breaks]
    rfl
  · rw [if_neg breaks, if_neg breaks]
    by_cases clocked : recv.reachesClock
    · rw [if_pos clocked, if_pos clocked, report, lookAtClock]
      by_cases due : intvMs ≤ milliseconds (clock.tpEnd - (thread.arrive recv).tpBeg)
      · rw [if_pos due, if_pos due]
        by_cases out : (thread.arrive recv).receiveTimeoutCnt ≤ 0
        · simp only [if_pos out]
          rfl
        · simp only [if_neg out]
          rfl
      · rw [if_neg due, if_neg due]
        rfl
    · rw [if_neg clocked, if_neg clocked]
      rfl

/-- As far as the test the worker leaves the buffer and the flag alone. -/
theorem poll_fields (intvMs : Int) (thread : ClientThread) (clock : ClockReadings)
    (recv : WorkerRecv) :
    (thread.poll intvMs clock recv).1.ggaBuffer = thread.ggaBuffer ∧
      (thread.poll intvMs clock recv).1.ggaIsUpdate = thread.ggaIsUpdate := by
  have arrived : (thread.arrive recv).ggaBuffer = thread.ggaBuffer ∧
      (thread.arrive recv).ggaIsUpdate = thread.ggaIsUpdate := by
    cases recv with
    | negative errno => exact ⟨rfl, rfl⟩
    | closed => exact ⟨rfl, rfl⟩
    | bytes buffer => exact ⟨rfl, rfl⟩
  rw [poll]
  split
  · exact ⟨rfl, rfl⟩
  · split
    · rw [lookAtClock]
      split
      · split
        · exact arrived
        · exact arrived
      · exact arrived
    · exact arrived

end ClientThread

/-! ## A client over its sessions -/

/-- What a setter of the application has still to store. -/
inductive Pending
  | nothing
  | longitude
  | ggaIsUpdate
deriving DecidableEq, Repr

/-- The members that the reports depend on, the interval that the worker has
computed when it was started, and where the worker and the application are. -/
structure ClientSession where
  location : Location
  reportInterval : Int
  workerInterval : Int
  thread : ClientThread
  making : Making
  pending : Pending

/-- The steps of a round: as far as the test of `gga_is_update_`, the loads of
the arguments, the store of `GGAFrameGenerate`, and `send`. -/
inductive RoundStep
  | poll (recv : WorkerRecv) (clock : ClockReadings)
  | loadCoordinate (axis : Axis)
  | generate (time : LocalTime)
  | send

/-- The stores of the application's setters, the branch of `Run` behind a
success line, `Stop`, the start of the worker, and a step of a round. -/
inductive SessionEvent
  | storeCoordinate (axis : Axis) (coordinate : Coordinate)
  | setReportInterval (interval : Int)
  | storeGgaBuffer (ggaBuffer : Bytes)
  | storeGgaIsUpdate
  | login (time : LocalTime)
  | stop
  | start (now : Int)
  | work (roundStep : RoundStep)

namespace SessionEvent

def isPoll : SessionEvent → Bool
  | .work (.poll _ _) => true
  | _ => false

def isGenerate : SessionEvent → Bool
  | .work (.generate _) => true
  | _ => false

end SessionEvent

namespace ClientSession

/-- The default values of the members. -/
def initial : ClientSession where
  location
    | .latitude => ⟨22570535 / 1000000, by norm_num [abs_le]⟩
    | .longitude => ⟨113937739 / 1000000, by norm_num [abs_le]⟩
  reportInterval := 1
  workerInterval := 0
  thread :=
    { serviceIsRunning := false
      ggaIsUpdate := false
      ggaBuffer := []
      tpBeg := 0
      receiveTimeoutCnt := 0
      delivered := []
      reports := [] }
  making := .resting
  pending := .nothing

variable (kind : CharKind)

/-- A step of a round; nothing, where the worker has not come to it. -/
def work (session : ClientSession) : RoundStep → ClientThread × Making
  | .poll recv clock =>
      if session.thread.serviceIsRunning then
        let polled := session.thread.poll (session.workerInterval * 1000) clock recv
        (polled.1,
          if polled.2 then
            if polled.1.ggaIsUpdate then .sending clock.tpEnd
            else .loading clock.tpEnd fun _ => none
          else .resting)
      else (session.thread, session.making)
  | .loadCoordinate axis =>
      match session.making with
      | .loading tick loaded =>
          (session.thread,
            .loading tick (Function.update loaded axis (some (session.location axis))))
      | _ => (session.thread, session.making)
  | .generate time =>
      match session.making with
      | .loading tick loaded =>
          match arguments loaded with
          | some location =>
              ({ session.thread with ggaBuffer := location.frame kind time }, .sending tick)
          | none => (session.thread, session.making)
      | _ => (session.thread, session.making)
  | .send =>
      match session.making with
      | .sending tick =>
          ({ session.thread with
              reports := session.thread.reports ++ [⟨tick, session.thread.ggaBuffer⟩] },
            .resting)
      | _ => (session.thread, session.making)

def step (session : ClientSession) : SessionEvent → ClientSession
  | .storeCoordinate axis coordinate =>
      { session with
        location := Function.update session.location axis coordinate
        pending :=
          match axis with
          | .latitude => .longitude
          | .longitude => .nothing }
  | .setReportInterval interval => { session with reportInterval := interval }
  | .storeGgaBuffer ggaBuffer =>
      { session with
        thread := session.thread.step session.workerInterval (.storeGgaBuffer ggaBuffer)
        pending := .ggaIsUpdate }
  | .storeGgaIsUpdate =>
      { session with
        thread := session.thread.step session.workerInterval .storeGgaIsUpdate
        pending := .nothing }
  | .login time =>
      let ggaBuffer :=
        if session.thread.ggaBuffer = [] then session.location.frame kind time
        else session.thread.ggaBuffer
      { session with thread := { session.thread with ggaBuffer := ggaBuffer } }
  | .stop => { session with thread := session.thread.step session.workerInterval .stop }
  | .start now =>
      { session with
        workerInterval := session.reportInterval
        thread := .start ⟨session.reportInterval, session.thread.ggaIsUpdate,
          session.thread.ggaBuffer, now⟩ }
  | .work roundStep =>
      { session with
        thread := (session.work kind roundStep).1
        making := (session.work kind roundStep).2 }

/-- The worker has come to the step. -/
def Reached (session : ClientSession) : RoundStep → Prop
  | .poll _ _ => session.making.isResting = true ∧ session.thread.serviceIsRunning = true
  | .loadCoordinate axis => session.making.lacks axis = true
  | .generate _ => session.making.complete.isSome = true
  | .send => session.making.isSending = true

instance (session : ClientSession) (roundStep : RoundStep) :
    Decidable (session.Reached roundStep) :=
  match roundStep with
  | .poll _ _ => inferInstanceAs (Decidable (_ ∧ _))
  | .loadCoordinate _ => inferInstanceAs (Decidable (_ = _))
  | .generate _ => inferInstanceAs (Decidable (_ = _))
  | .send => inferInstanceAs (Decidable (_ = _))

/-- Which step can come next: the application calls one function after the
other, `Run` and the start of a worker come when the worker before has ended,
and the worker goes through its round. -/
def Valid (session : ClientSession) : SessionEvent → Prop
  | .storeCoordinate .latitude _ => session.pending = .nothing
  | .storeCoordinate .longitude _ => session.pending = .longitude
  | .setReportInterval _ => session.pending = .nothing
  | .storeGgaBuffer _ => session.pending = .nothing
  | .storeGgaIsUpdate => session.pending = .ggaIsUpdate
  | .login _ =>
      session.pending = .nothing ∧ session.making.isResting = true ∧
        session.thread.serviceIsRunning = false
  | .stop => session.pending = .nothing
  | .start _ => session.making.isResting = true ∧ session.thread.serviceIsRunning = false
  | .work roundStep => session.Reached roundStep

instance (session : ClientSession) (event : SessionEvent) : Decidable (session.Valid event) :=
  match event with
  | .storeCoordinate .latitude _ => inferInstanceAs (Decidable (_ = _))
  | .storeCoordinate .longitude _ => inferInstanceAs (Decidable (_ = _))
  | .setReportInterval _ => inferInstanceAs (Decidable (_ = _))
  | .storeGgaBuffer _ => inferInstanceAs (Decidable (_ = _))
  | .storeGgaIsUpdate => inferInstanceAs (Decidable (_ = _))
  | .login _ => inferInstanceAs (Decidable (_ ∧ _ ∧ _))
  | .stop => inferInstanceAs (Decidable (_ = _))
  | .start _ => inferInstanceAs (Decidable (_ ∧ _))
  | .work _ => inferInstanceAs (Decidable (Reached _ _))

/-- The reports that are sent in one step. -/
def sends (session : ClientSession) : SessionEvent → List Bytes
  | .login time => [(session.step kind (.login time)).thread.ggaBuffer]
  | .work .send => if session.making.isSending then [session.thread.ggaBuffer] else []
  | _ => []

/-- A client after some steps. -/
def after (events : List SessionEvent) : ClientSession :=
  Execution.run (step kind) initial events

/-- All reports that are sent in a run. -/
def reported (events : List SessionEvent) : List Bytes :=
  (Execution.steps (step kind) initial events).flatMap fun taken => taken.1.sends kind taken.2

/-- The steps are possible ones, from a new client on. -/
def ValidRun (events : List SessionEvent) : Prop :=
  Execution.EachStep (step kind) Valid initial events

instance (events : List SessionEvent) : Decidable (ValidRun kind events) :=
  inferInstanceAs (Decidable (Execution.EachStep _ _ _ _))

end ClientSession

/-! ## The steps of a round -/

namespace Making

theorem exists_of_lacks {axis : Axis} {making : Making} (lacks : making.lacks axis = true) :
    ∃ tick loaded, making = .loading tick loaded := by
  cases making with
  | loading tick loaded => exact ⟨tick, loaded, rfl⟩
  | resting => cases lacks
  | sending tick => cases lacks

theorem exists_of_complete {making : Making} (complete : making.complete.isSome = true) :
    ∃ tick loaded location, making = .loading tick loaded ∧ arguments loaded = some location := by
  cases making with
  | loading tick loaded =>
      rcases Option.isSome_iff_exists.mp complete with ⟨location, found⟩
      exact ⟨tick, loaded, location, rfl, found⟩
  | resting => cases complete
  | sending tick => cases complete

theorem exists_of_isSending {making : Making} (sending : making.isSending = true) :
    ∃ tick, making = .sending tick := by
  cases making with
  | sending tick => exact ⟨tick, rfl⟩
  | resting => cases sending
  | loading tick loaded => cases sending

theorem eq_resting {making : Making} (resting : making.isResting = true) : making = .resting := by
  cases making with
  | resting => rfl
  | loading tick loaded => cases resting
  | sending tick => cases resting

end Making

namespace ClientSession

variable {kind : CharKind} {session : ClientSession}

theorem step_login_ggaBuffer (kind : CharKind) (session : ClientSession) (time : LocalTime) :
    (session.step kind (.login time)).thread.ggaBuffer =
      if session.thread.ggaBuffer = [] then session.location.frame kind time
      else session.thread.ggaBuffer := rfl

/-- As far as the test a round leaves the buffer and the flag alone, and comes
to its `send` only if the flag is set. -/
theorem step_poll (kind : CharKind) (running : session.thread.serviceIsRunning = true)
    (recv : WorkerRecv) (clock : ClockReadings) :
    (session.step kind (.work (.poll recv clock))).thread.ggaBuffer = session.thread.ggaBuffer ∧
      (session.step kind (.work (.poll recv clock))).thread.ggaIsUpdate =
        session.thread.ggaIsUpdate ∧
      ((session.step kind (.work (.poll recv clock))).making = .resting ∨
        (session.thread.ggaIsUpdate = false ∧ ∃ tick,
          (session.step kind (.work (.poll recv clock))).making = .loading tick fun _ => none) ∨
        (session.thread.ggaIsUpdate = true ∧ ∃ tick,
          (session.step kind (.work (.poll recv clock))).making = .sending tick)) := by
  have fields := session.thread.poll_fields (session.workerInterval * 1000) clock recv
  rw [step, work, if_pos running]
  refine ⟨fields.1, fields.2, ?_⟩
  dsimp only
  rw [fields.2]
  cases (session.thread.poll (session.workerInterval * 1000) clock recv).2 with
  | false => exact Or.inl rfl
  | true =>
      right
      rw [if_pos rfl]
      cases update : session.thread.ggaIsUpdate with
      | false => exact Or.inl ⟨rfl, clock.tpEnd, rfl⟩
      | true => exact Or.inr ⟨rfl, clock.tpEnd, rfl⟩

theorem step_loadCoordinate {axis : Axis} (reached : session.Reached (.loadCoordinate axis)) :
    ∃ tick loaded, session.making = .loading tick loaded ∧
      session.step kind (.work (.loadCoordinate axis)) =
        { session with
          making :=
            .loading tick (Function.update loaded axis (some (session.location axis))) } := by
  rcases Making.exists_of_lacks reached with ⟨tick, loaded, making⟩
  exact ⟨tick, loaded, making, by rw [step, work, making]⟩

theorem step_generate {time : LocalTime} (reached : session.Reached (.generate time)) :
    ∃ tick loaded location, session.making = .loading tick loaded ∧
      arguments loaded = some location ∧
      session.step kind (.work (.generate time)) =
        { session with
          thread := { session.thread with ggaBuffer := location.frame kind time }
          making := .sending tick } := by
  rcases Making.exists_of_complete reached with ⟨tick, loaded, location, making, complete⟩
  refine ⟨tick, loaded, location, making, complete, ?_⟩
  rw [step, work, making]
  simp only [complete]

theorem step_send (reached : session.Reached .send) :
    ∃ tick, session.making = .sending tick ∧
      session.step kind (.work .send) =
        { session with
          thread :=
            { session.thread with
              reports := session.thread.reports ++ [⟨tick, session.thread.ggaBuffer⟩] }
          making := .resting } := by
  rcases Making.exists_of_isSending reached with ⟨tick, making⟩
  exact ⟨tick, making, by rw [step, work, making]⟩

theorem step_work_ggaIsUpdate {roundStep : RoundStep} (reached : session.Reached roundStep) :
    (session.step kind (.work roundStep)).thread.ggaIsUpdate = session.thread.ggaIsUpdate := by
  cases roundStep with
  | poll recv clock => exact (step_poll kind reached.2 recv clock).2.1
  | loadCoordinate axis =>
      rcases step_loadCoordinate reached with ⟨tick, loaded, making, same⟩
      rw [same]
  | generate time =>
      rcases step_generate reached with ⟨tick, loaded, location, making, complete, same⟩
      rw [same]
  | send =>
      rcases step_send reached with ⟨tick, making, same⟩
      rw [same]

/-- Only `GGAFrameGenerate` touches the buffer. -/
theorem step_work_ggaBuffer {roundStep : RoundStep} (reached : session.Reached roundStep)
    (apart : ∀ time, roundStep ≠ .generate time) :
    (session.step kind (.work roundStep)).thread.ggaBuffer = session.thread.ggaBuffer := by
  cases roundStep with
  | poll recv clock => exact (step_poll kind reached.2 recv clock).1
  | loadCoordinate axis =>
      rcases step_loadCoordinate reached with ⟨tick, loaded, making, same⟩
      rw [same]
  | generate time => exact absurd rfl (apart time)
  | send =>
      rcases step_send reached with ⟨tick, making, same⟩
      rw [same]

/-- A round that nothing comes between is a round of the loop. -/
theorem run_uninterrupted (resting : session.making = .resting) (recv : WorkerRecv)
    (clock : ClockReadings) (time : LocalTime) :
    Execution.run (step kind) session
        [.work (.poll recv clock), .work (.loadCoordinate .latitude),
          .work (.loadCoordinate .longitude), .work (.generate time), .work .send] =
      { session with
        thread := session.thread.step session.workerInterval
          (.round recv clock (session.location.frame kind time)) } := by
  rcases session with ⟨location, reportInterval, workerInterval, thread, making, pending⟩
  cases resting
  by_cases running : thread.serviceIsRunning = true
  · have whole : thread.step workerInterval (.round recv clock (location.frame kind time)) =
        thread.round (workerInterval * 1000) clock (location.frame kind time) recv :=
      if_pos running
    rw [whole, ClientThread.round_eq_poll]
    simp only [Execution.run, step, work, if_pos running]
    cases due : (thread.poll (workerInterval * 1000) clock recv).2 with
    | false => simp
    | true =>
        cases update : (thread.poll (workerInterval * 1000) clock recv).1.ggaIsUpdate with
        | true => simp [update]
        | false => simp [update, arguments, Location.frame]
  · have silent : thread.step workerInterval (.round recv clock (location.frame kind time)) =
        thread :=
      if_neg running
    rw [silent]
    simp [Execution.run, step, work, running]

end ClientSession

end Ntrip
