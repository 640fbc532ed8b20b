import Ntrip.Peers.ClientThread

namespace Ntrip

/-!
# Silence of the caster

The worker counts a timeout down at every report and anew at every reception,
while its timer runs on through receptions.  A history records what the
counter stands for: receptions and reports in their order, with the readings
of the clock.  The invariant below ties the counter, the reports since the
latest reception and the timer together.
-/

/-! ## Histories -/

/-- A reception with the reading of its round, or a report with the reading
at which it fell due. -/
inductive Happening
  | reception (reading : Int)
  | frame (tick : Int)
deriving DecidableEq, Repr

def Happening.isFrame : Happening → Bool
  | .reception _ => false
  | .frame _ => true

/-- The reports sent since the latest reception, or since the start. -/
def framesSinceReception (happenings : List Happening) : Nat :=
  (happenings.reverse.takeWhile Happening.isFrame).length

@[simp] theorem framesSinceReception_nil : framesSinceReception [] = 0 := rfl

@[simp] theorem framesSinceReception_reception (happenings : List Happening) (reading : Int) :
    framesSinceReception (happenings ++ [.reception reading]) = 0 := by
  simp [framesSinceReception, Happening.isFrame]

@[simp] theorem framesSinceReception_frame (happenings : List Happening) (tick : Int) :
    framesSinceReception (happenings ++ [.frame tick]) =
      framesSinceReception happenings + 1 := by
  have isFrame : (Happening.frame tick).isFrame = true := rfl
  simp [framesSinceReception, List.takeWhile_cons_of_pos isFrame]

/-- The reception of a round, if it has one. -/
def receptions (recv : WorkerRecv) (clock : ClockReadings) : List Happening :=
  recv.buffers.map fun _ => .reception clock.tpEnd

/-- The reports that a step has sent. -/
def newFrames (before after : ClientThread) : List Happening :=
  (after.reports.drop before.reports.length).map fun report => .frame report.tick

/-- What a step adds: the reception of its round, then its report. -/
def seen (before after : ClientThread) : ClientEvent → List Happening
  | .stop => []
  | .storeGgaBuffer _ => []
  | .storeGgaIsUpdate => []
  | .round recv clock _ =>
      if before.serviceIsRunning then receptions recv clock ++ newFrames before after else []

/-- The worker together with what has happened so far. -/
structure History where
  thread : ClientThread
  happenings : List Happening
deriving DecidableEq, Repr

namespace History

def start (found : ThreadStart) : History :=
  ⟨ClientThread.start found, []⟩

def step (reportInterval : Int) (history : History) (event : ClientEvent) : History where
  thread := history.thread.step reportInterval event
  happenings := history.happenings ++
    seen history.thread (history.thread.step reportInterval event) event

/-- Recording changes nothing of the run. -/
theorem run_thread (reportInterval : Int) (history : History) (events : List ClientEvent) :
    (Execution.run (step reportInterval) history events).thread =
      Execution.run (ClientThread.step reportInterval) history.thread events :=
  Execution.run_view History.thread (fun _ _ => rfl) history events

end History

/-- The history of `NtripClient::ThreadHandler`. -/
def history (found : ThreadStart) (events : List ClientEvent) : History :=
  Execution.run (History.step found.reportInterval) (History.start found) events

theorem history_thread (found : ThreadStart) (events : List ClientEvent) :
    (history found events).thread = NtripClient.threadHandler found events :=
  History.run_thread found.reportInterval (History.start found) events

/-! ## The clock -/

def ClientEvent.readings : ClientEvent → List Int
  | .stop => []
  | .storeGgaBuffer _ => []
  | .storeGgaIsUpdate => []
  | .round _ clock _ => [clock.tpEnd, clock.tpBeg]

/-- The readings never decrease.  A round that does not come to the clock, or
not to a new start of the interval, has its readings all the same; they say
when it was. -/
def Clocked (found : ThreadStart) (events : List ClientEvent) : Prop :=
  (found.now :: events.flatMap ClientEvent.readings).Pairwise (· ≤ ·)

instance (found : ThreadStart) (events : List ClientEvent) : Decidable (Clocked found events) :=
  inferInstanceAs (Decidable (List.Pairwise _ _))

/-- The report interval in nanoseconds; its milliseconds are taken to fit an
`int`, as the code does. -/
def intervalOf (found : ThreadStart) : Int :=
  found.reportInterval * 1000 * 1000000

theorem interval_le_of_due {intvMs nanoseconds : Int} (increasing : 0 ≤ nanoseconds)
    (due : intvMs ≤ milliseconds nanoseconds) : intvMs * 1000000 ≤ nanoseconds := by
  rw [milliseconds, Int.tdiv_eq_ediv_of_nonneg increasing] at due
  omega

/-! ## How the loop is left -/

/-- A `recv` at which the loop breaks. -/
def WorkerRecv.breaks : WorkerRecv → Prop
  | .closed => True
  | .negative errno => errno ≠ 0 ∧ errno ≠ EAGAIN ∧ errno ≠ EWOULDBLOCK ∧ errno ≠ EINTR
  | .bytes _ => False

instance (recv : WorkerRecv) : Decidable recv.breaks :=
  match recv with
  | .closed => inferInstanceAs (Decidable True)
  | .negative _ => inferInstanceAs (Decidable (_ ∧ _ ∧ _ ∧ _))
  | .bytes _ => inferInstanceAs (Decidable False)

/-- A `recv` after which the loop looks at the clock. -/
def WorkerRecv.reachesClock : WorkerRecv → Prop
  | .closed => False
  | .negative errno => ¬ (WorkerRecv.negative errno).breaks
  | .bytes buffer => buffer.length ≠ kSendBufferSize

instance (recv : WorkerRecv) : Decidable recv.reachesClock :=
  match recv with
  | .closed => inferInstanceAs (Decidable False)
  | .negative _ => inferInstanceAs (Decidable (¬ _))
  | .bytes _ => inferInstanceAs (Decidable (_ ≠ _))

namespace ClientThread

/-- A report tick falls due in the round. -/
def TickDue (reportInterval : Int) (thread : ClientThread) (recv : WorkerRecv)
    (clock : ClockReadings) : Prop :=
  thread.serviceIsRunning = true ∧ recv.reachesClock ∧
    reportInterval * 1000 ≤ milliseconds (clock.tpEnd - thread.tpBeg)

instance (reportInterval : Int) (thread : ClientThread) (recv : WorkerRecv)
    (clock : ClockReadings) : Decidable (thread.TickDue reportInterval recv clock) :=
  inferInstanceAs (Decidable (_ ∧ _ ∧ _))

/-- The round leaves the loop, and not because of what `recv` returned. -/
def TimeoutBreak (reportInterval : Int) (thread : ClientThread) (recv : WorkerRecv)
    (clock : ClockReadings) (generated : Bytes) : Prop :=
  thread.serviceIsRunning = true ∧ ¬ recv.breaks ∧
    (thread.step reportInterval (.round recv clock generated)).serviceIsRunning = false

instance (reportInterval : Int) (thread : ClientThread) (recv : WorkerRecv)
    (clock : ClockReadings) (generated : Bytes) :
    Decidable (thread.TimeoutBreak reportInterval recv clock generated) :=
  inferInstanceAs (Decidable (_ ∧ _ ∧ _))

/-- The reception of a round, if it has one. -/
def arrive (thread : ClientThread) : WorkerRecv → ClientThread
  | .negative _ => thread
  | .closed => thread
  | .bytes buffer => thread.receive buffer

theorem arrive_fields (thread : ClientThread) (recv : WorkerRecv) :
    (thread.arrive recv).serviceIsRunning = thread.serviceIsRunning ∧
      (thread.arrive recv).tpBeg = thread.tpBeg ∧
      (thread.arrive recv).reports = thread.reports := by
  cases recv with
  | negative errno => exact ⟨rfl, rfl, rfl⟩
  | closed => exact ⟨rfl, rfl, rfl⟩
  | bytes buffer => exact ⟨rfl, rfl, rfl⟩

/-- What a round can do. -/
theorem round_eq (intvMs : Int) (thread : ClientThread) (clock : ClockReadings)
    (generated : Bytes) (recv : WorkerRecv) :
    thread.round intvMs clock generated recv =
      if recv.breaks then thread.leave
      else if recv.reachesClock then (thread.arrive recv).report intvMs clock generated
      else thread.arrive recv := by
  cases recv with
  | closed => rfl
  | negative errno =>
      by_cases fatal : (WorkerRecv.negative errno).breaks
      · rw [if_pos fatal]
        exact if_pos fatal
      · rw [if_neg fatal, if_pos (show (WorkerRecv.negative errno).reachesClock from fatal)]
        exact if_neg fatal
  | bytes buffer =>
      rw [if_neg (show ¬ (WorkerRecv.bytes buffer).breaks from id)]
      by_cases full : buffer.length = kSendBufferSize
      · rw [if_neg (show ¬ (WorkerRecv.bytes buffer).reachesClock from not_not_intro full)]
        exact if_pos full
      · rw [if_pos (show (WorkerRecv.bytes buffer).reachesClock from full)]
        exact if_neg full

/-- What the part behind the clock can do: nothing, leave the loop, or send a
report and start the interval anew. -/
theorem report_cases (intvMs : Int) (thread : ClientThread) (clock : ClockReadings)
    (generated : Bytes) :
    (¬ intvMs ≤ milliseconds (clock.tpEnd - thread.tpBeg) ∧
      thread.report intvMs clock generated = thread) ∨
    (intvMs ≤ milliseconds (clock.tpEnd - thread.tpBeg) ∧ thread.receiveTimeoutCnt ≤ 0 ∧
      thread.report intvMs clock generated =
        { thread with
          serviceIsRunning := false
          receiveTimeoutCnt := thread.receiveTimeoutCnt - 1 }) ∨
    (intvMs ≤ milliseconds (clock.tpEnd - thread.tpBeg) ∧ 0 < thread.receiveTimeoutCnt ∧
      ∃ frame, thread.report intvMs clock generated =
        { thread with
          receiveTimeoutCnt := thread.receiveTimeoutCnt - 1
          tpBeg := clock.tpBeg
          ggaBuffer := frame
          reports := thread.reports ++ [⟨clock.tpEnd, frame⟩] }) := by
  unfold report
  by_cases due : intvMs ≤ milliseconds (clock.tpEnd - thread.tpBeg)
  · right
    rw [if_pos due]
    by_cases out : thread.receiveTimeoutCnt ≤ 0
    · left
      exact ⟨due, out, if_pos out⟩
    · right
      exact ⟨due, by omega, _, if_neg out⟩
  · left
    exact ⟨due, if_neg due⟩

end ClientThread

/-! ## The invariant -/

theorem newFrames_same {before after : ClientThread} (same : after.reports = before.reports) :
    newFrames before after = [] := by
  rw [newFrames, same, List.drop_length]
  rfl

theorem newFrames_leave (thread : ClientThread) : newFrames thread thread.leave = [] :=
  newFrames_same rfl

theorem newFrames_congr {before before' after : ClientThread}
    (same : before.reports = before'.reports) : newFrames before after = newFrames before' after := by
  rw [newFrames, newFrames, same]

theorem newFrames_append {before after : ClientThread} {report : Report}
    (more : after.reports = before.reports ++ [report]) :
    newFrames before after = [.frame report.tick] := by
  rw [newFrames, more, List.drop_left]
  rfl

theorem receptions_of_breaks {recv : WorkerRecv} (breaks : recv.breaks) (clock : ClockReadings) :
    receptions recv clock = [] := by
  cases recv with
  | negative errno => rfl
  | closed => rfl
  | bytes buffer => exact absurd breaks id

theorem not_reachesClock_of_breaks {recv : WorkerRecv} (breaks : recv.breaks) :
    ¬ recv.reachesClock := by
  cases recv with
  | negative errno => exact not_not_intro breaks
  | closed => exact id
  | bytes buffer => exact absurd breaks id

/-- A running worker has counted the reports since the latest reception, and
the interval that runs began at the latest of them, at least one interval
behind each one before. -/
structure Watched (interval : Int) (thread : ClientThread) (happenings : List Happening)
    (now : Int) : Prop where
  bounded : framesSinceReception happenings ≤ kReceiveTimeoutPeriod
  counted : thread.serviceIsRunning = true →
    thread.receiveTimeoutCnt = kReceiveTimeoutPeriod - framesSinceReception happenings
  begun : thread.tpBeg ≤ now
  ticks : ∀ report ∈ thread.reports, report.tick ≤ thread.tpBeg
  apart : thread.reports.Pairwise fun earlier later => earlier.tick + interval ≤ later.tick
  earlier : ∀ reading, .reception reading ∈ happenings → reading ≤ now
  since : ∀ reading, .reception reading ∈ happenings → 0 < framesSinceReception happenings →
    reading + (framesSinceReception happenings - 1) * interval ≤ thread.tpBeg

namespace Watched

variable {interval : Int} {thread : ClientThread} {happenings : List Happening} {now : Int}

theorem start (interval : Int) (found : ThreadStart) :
    Watched interval (ClientThread.start found) [] found.now where
  bounded := by decide
  counted := fun _ => rfl
  begun := Int.le_refl found.now
  ticks := fun _ member => absurd member List.not_mem_nil
  apart := List.Pairwise.nil
  earlier := fun _ member => absurd member List.not_mem_nil
  since := fun _ member => absurd member List.not_mem_nil

theorem later (watched : Watched interval thread happenings now) {now' : Int}
    (advanced : now ≤ now') : Watched interval thread happenings now' where
  bounded := watched.bounded
  counted := watched.counted
  begun := Int.le_trans watched.begun advanced
  ticks := watched.ticks
  apart := watched.apart
  earlier := fun reading member => Int.le_trans (watched.earlier reading member) advanced
  since := watched.since

theorem leave (watched : Watched interval thread happenings now) (count : Int) :
    Watched interval
      { thread with serviceIsRunning := false, receiveTimeoutCnt := count } happenings now where
  bounded := watched.bounded
  counted := fun running => absurd running Bool.false_ne_true
  begun := watched.begun
  ticks := watched.ticks
  apart := watched.apart
  earlier := watched.earlier
  since := watched.since

theorem store (watched : Watched interval thread happenings now) (ggaBuffer : Bytes)
    (ggaIsUpdate : Bool) :
    Watched interval { thread with ggaBuffer := ggaBuffer, ggaIsUpdate := ggaIsUpdate }
      happenings now where
  bounded := watched.bounded
  counted := watched.counted
  begun := watched.begun
  ticks := watched.ticks
  apart := watched.apart
  earlier := watched.earlier
  since := watched.since

theorem receive (watched : Watched interval thread happenings now) (buffer : Bytes) :
    Watched interval (thread.receive buffer) (happenings ++ [.reception now]) now where
  bounded := by
    rw [framesSinceReception_reception]
    decide
  counted := by
    intro _
    rw [framesSinceReception_reception]
    rfl
  begun := watched.begun
  ticks := watched.ticks
  apart := watched.apart
  earlier := by
    intro reading member
    rcases List.mem_append.mp member with old | new
    · exact watched.earlier reading old
    · cases List.mem_singleton.mp new
      exact Int.le_refl now
  since := by
    intro reading _ counting
    rw [framesSinceReception_reception] at counting
    exact absurd counting (Nat.lt_irrefl 0)

theorem arrive (watched : Watched interval thread happenings now) (clock : ClockReadings)
    (advanced : now ≤ clock.tpEnd) (recv : WorkerRecv) :
    Watched interval (thread.arrive recv) (happenings ++ receptions recv clock)
      clock.tpEnd := by
  have current := watched.later advanced
  cases recv with
  | negative errno =>
      rw [receptions, WorkerRecv.buffers, List.map_nil, List.append_nil]
      exact current
  | closed =>
      rw [receptions, WorkerRecv.buffers, List.map_nil, List.append_nil]
      exact current
  | bytes buffer => exact current.receive buffer

/-- A report is sent only while the counter is positive, and one interval
after the timer was started. -/
theorem report (watched : Watched interval thread happenings now) {intvMs : Int}
    {clock : ClockReadings} (same : interval = intvMs * 1000000) (reading : clock.tpEnd = now)
    (advanced : clock.tpEnd ≤ clock.tpBeg) (running : thread.serviceIsRunning = true)
    (generated : Bytes) :
    Watched interval (thread.report intvMs clock generated)
      (happenings ++ newFrames thread (thread.report intvMs clock generated)) clock.tpBeg := by
  have current := watched.later (reading ▸ advanced)
  rcases thread.report_cases intvMs clock generated with
    ⟨_, unchanged⟩ | ⟨_, _, left⟩ | ⟨due, positive, frame, sent⟩
  · rw [unchanged, newFrames_same rfl, List.append_nil]
    exact current
  · have silent : newFrames thread (thread.report intvMs clock generated) = [] := by
      apply newFrames_same
      rw [left]
    rw [silent, List.append_nil, left]
    exact current.leave _
  · rw [sent, newFrames_append rfl]
    have count := watched.counted running
    have begun := watched.begun
    have passed : interval ≤ clock.tpEnd - thread.tpBeg := by
      rw [same]
      exact interval_le_of_due (by omega) due
    have next := framesSinceReception_frame happenings clock.tpEnd
    dsimp only
    constructor
    · omega
    · intro _
      dsimp only
      omega
    · exact Int.le_refl clock.tpBeg
    · intro report member
      rcases List.mem_append.mp member with old | new
      · have := watched.ticks report old
        dsimp only
        omega
      · rw [List.mem_singleton.mp new]
        exact advanced
    · refine List.pairwise_append.mpr ⟨watched.apart, List.pairwise_singleton _ _, ?_⟩
      intro earlier member later last
      rw [List.mem_singleton.mp last]
      have := watched.ticks earlier member
      dsimp only
      omega
    · intro reading member
      rcases List.mem_append.mp member with old | new
      · exact current.earlier reading old
      · cases List.mem_singleton.mp new
    · intro reading member _
      have old : .reception reading ∈ happenings := by
        rcases List.mem_append.mp member with old | new
        · exact old
        · cases List.mem_singleton.mp new
      have before := watched.earlier reading old
      dsimp only
      rcases Nat.eq_zero_or_pos (framesSinceReception happenings) with none | counting
      · have first : ((framesSinceReception (happenings ++ [.frame clock.tpEnd]) : Int) - 1) *
            interval = 0 := by
          rw [next, none]
          exact Int.zero_mul interval
        omega
      · have more : ((framesSinceReception (happenings ++ [.frame clock.tpEnd]) : Int) - 1) *
            interval = (framesSinceReception happenings - 1) * interval + interval := by
          rw [next, show ((framesSinceReception happenings + 1 : Nat) : Int) - 1 =
            framesSinceReception happenings - 1 + 1 by omega, Int.add_mul, Int.one_mul]
        have := watched.since reading old counting
        omega

/-- One round. -/
theorem round (watched : Watched interval thread happenings now) {intvMs : Int}
    {clock : ClockReadings} (same : interval = intvMs * 1000000) (reached : now ≤ clock.tpEnd)
    (advanced : clock.tpEnd ≤ clock.tpBeg) (running : thread.serviceIsRunning = true)
    (generated : Bytes) (recv : WorkerRecv) :
    Watched interval (thread.round intvMs clock generated recv)
      (happenings ++ (receptions recv clock ++
        newFrames thread (thread.round intvMs clock generated recv))) clock.tpBeg := by
  have arrived := watched.arrive clock reached recv
  have fields := thread.arrive_fields recv
  rw [← List.append_assoc, ClientThread.round_eq]
  split
  · rename_i breaks
    rw [receptions_of_breaks breaks, newFrames_leave, List.append_nil, List.append_nil]
    exact (watched.later (Int.le_trans reached advanced)).leave _
  · split
    · rw [newFrames_congr fields.2.2.symm]
      exact arrived.report same rfl advanced (fields.1.trans running) generated
    · rw [newFrames_same fields.2.2, List.append_nil]
      exact arrived.later advanced

/-- One event.  What follows it on the clock still does. -/
theorem step (watched : Watched interval thread happenings now) {reportInterval : Int}
    (same : interval = reportInterval * 1000 * 1000000) (event : ClientEvent) {later : List Int}
    (ordered : (now :: (event.readings ++ later)).Pairwise (· ≤ ·)) :
    ∃ now', Watched interval (thread.step reportInterval event)
        (happenings ++ seen thread (thread.step reportInterval event) event) now' ∧
      (now' :: later).Pairwise (· ≤ ·) := by
  cases event with
  | stop =>
      refine ⟨now, ?_, ordered⟩
      rw [seen, List.append_nil]
      exact watched.leave _
  | storeGgaBuffer ggaBuffer =>
      refine ⟨now, ?_, ordered⟩
      rw [seen, List.append_nil]
      exact watched.store ggaBuffer thread.ggaIsUpdate
  | storeGgaIsUpdate =>
      refine ⟨now, ?_, ordered⟩
      rw [seen, List.append_nil]
      exact watched.store thread.ggaBuffer true
  | round recv clock generated =>
      have parts := List.pairwise_cons.mp ordered
      have inner := List.pairwise_cons.mp parts.2
      have reached : now ≤ clock.tpEnd := parts.1 _ List.mem_cons_self
      have advanced : clock.tpEnd ≤ clock.tpBeg := inner.1 _ List.mem_cons_self
      refine ⟨clock.tpBeg, ?_, inner.2⟩
      by_cases running : thread.serviceIsRunning = true
      · rw [seen, if_pos running, ClientThread.step, if_pos running]
        exact watched.round same reached advanced running generated recv
      · rw [seen, if_neg running, List.append_nil, ClientThread.step, if_neg running]
        exact watched.later (Int.le_trans reached advanced)

/-- A run. -/
theorem run (history : History) (watched : Watched interval history.thread history.happenings now)
    {reportInterval : Int} (same : interval = reportInterval * 1000 * 1000000)
    (events : List ClientEvent) {later : List Int}
    (ordered : (now :: (events.flatMap ClientEvent.readings ++ later)).Pairwise (· ≤ ·)) :
    ∃ now', Watched interval
        (Execution.run (History.step reportInterval) history events).thread
        (Execution.run (History.step reportInterval) history events).happenings now' ∧
      (now' :: later).Pairwise (· ≤ ·) := by
  induction events generalizing history now with
  | nil => exact ⟨now, watched, ordered⟩
  | cons event events inductionHypothesis =>
      rw [List.flatMap_cons, List.append_assoc] at ordered
      rcases watched.step same event ordered with ⟨now', next, rest⟩
      exact inductionHypothesis (history.step reportInterval event) next rest

end Watched

/-! ## The timeout -/

/-- The loop is left for silence exactly by a report tick that falls due with
all reports sent since the latest reception. -/
theorem Watched.timeoutBreak_iff {interval : Int} {thread : ClientThread}
    {happenings : List Happening} {now : Int}
    (watched : Watched interval thread happenings now) {clock : ClockReadings}
    (reached : now ≤ clock.tpEnd) (reportInterval : Int) (recv : WorkerRecv) (generated : Bytes) :
    thread.TimeoutBreak reportInterval recv clock generated ↔
      thread.TickDue reportInterval recv clock ∧
        framesSinceReception (happenings ++ receptions recv clock) = kReceiveTimeoutPeriod := by
  have arrived := watched.arrive clock reached recv
  have fields := thread.arrive_fields recv
  have bounded := arrived.bounded
  unfold ClientThread.TimeoutBreak ClientThread.TickDue
  rw [and_assoc]
  apply and_congr_right
  intro running
  have counted := arrived.counted (fields.1.trans running)
  rw [ClientThread.step, if_pos running, ClientThread.round_eq]
  by_cases breaks : recv.breaks
  · constructor
    · exact fun left => absurd breaks left.1
    · exact fun due => absurd due.1.1 (not_reachesClock_of_breaks breaks)
  rw [if_neg breaks]
  by_cases clocked : recv.reachesClock
  · rw [if_pos clocked]
    rcases (thread.arrive recv).report_cases (reportInterval * 1000) clock generated with
      ⟨early, unchanged⟩ | ⟨due, out, left⟩ | ⟨due, positive, frame, sent⟩
    · rw [unchanged, fields.1, running]
      rw [fields.2.1] at early
      constructor
      · exact fun left => absurd left.2.symm Bool.false_ne_true
      · exact fun tick => absurd tick.1.2 early
    · rw [left]
      rw [fields.2.1] at due
      constructor
      · exact fun _ => ⟨⟨clocked, due⟩, by omega⟩
      · exact fun _ => ⟨breaks, rfl⟩
    · rw [sent]
      dsimp only
      rw [fields.1, running]
      constructor
      · exact fun left => absurd left.2.symm Bool.false_ne_true
      · intro tick
        have := tick.2
        omega
  · rw [if_neg clocked, fields.1, running]
    constructor
    · exact fun left => absurd left.2.symm Bool.false_ne_true
    · exact fun tick => absurd tick.1.1 clocked

/-- A tick that ends the loop comes three intervals behind every reception. -/
theorem Watched.timeoutBreak_late {interval : Int} {thread : ClientThread}
    {happenings : List Happening} {now : Int}
    (watched : Watched interval thread happenings now) {reportInterval : Int}
    (same : interval = reportInterval * 1000 * 1000000) {clock : ClockReadings}
    (reached : now ≤ clock.tpEnd) {recv : WorkerRecv} {generated : Bytes}
    (left : thread.TimeoutBreak reportInterval recv clock generated) {reading : Int}
    (member : .reception reading ∈ happenings ++ receptions recv clock) :
    kReceiveTimeoutPeriod * interval ≤ clock.tpEnd - reading := by
  rcases (watched.timeoutBreak_iff reached reportInterval recv generated).mp left with
    ⟨⟨_, _, due⟩, frames⟩
  have arrived := watched.arrive clock reached recv
  have begun := watched.begun
  have passed : interval ≤ clock.tpEnd - thread.tpBeg := by
    rw [same]
    exact interval_le_of_due (by omega) due
  have positive : 0 < framesSinceReception (happenings ++ receptions recv clock) := by
    change _ = (3 : Int) at frames
    omega
  have since := arrived.since reading member positive
  rw [frames, (thread.arrive_fields recv).2.1] at since
  change reading + 2 * interval ≤ _ at since
  change 3 * interval ≤ _
  omega

/-- However the receptions fall: at most three reports follow the latest of
them, reports are an interval apart, and the loop is left for silence exactly
by a fourth tick, three intervals behind the reception or later. -/
theorem silence_timeout (found : ThreadStart) (events : List ClientEvent)
    (clocked : Clocked found events) :
    framesSinceReception (history found events).happenings ≤ kReceiveTimeoutPeriod ∧
    (NtripClient.threadHandler found events).reports.Pairwise
      (fun earlier later => earlier.tick + intervalOf found ≤ later.tick) ∧
    ∀ recv clock generated, Clocked found (events ++ [.round recv clock generated]) →
      ((NtripClient.threadHandler found events).TimeoutBreak found.reportInterval recv clock
          generated ↔
        (NtripClient.threadHandler found events).TickDue found.reportInterval recv clock ∧
          framesSinceReception ((history found events).happenings ++ receptions recv clock) =
            kReceiveTimeoutPeriod) ∧
      ((NtripClient.threadHandler found events).TimeoutBreak found.reportInterval recv clock
          generated →
        ∀ reading, .reception reading ∈ (history found events).happenings →
          kReceiveTimeoutPeriod * intervalOf found ≤ clock.tpEnd - reading) := by
  have begin := Watched.start (intervalOf found) found
  have ordered : (found.now :: (events.flatMap ClientEvent.readings ++ [])).Pairwise (· ≤ ·) := by
    rw [List.append_nil]
    exact clocked
  rcases begin.run (History.start found) rfl events ordered with ⟨_, watched, _⟩
  rw [← history_thread]
  refine ⟨watched.bounded, watched.apart, ?_⟩
  intro recv clock generated later
  unfold Clocked at later
  rw [List.flatMap_append] at later
  rcases begin.run (History.start found) rfl events later with ⟨now, current, rest⟩
  have reached : now ≤ clock.tpEnd := (List.pairwise_cons.mp rest).1 _ List.mem_cons_self
  refine ⟨current.timeoutBreak_iff reached found.reportInterval recv generated, ?_⟩
  intro left reading member
  exact current.timeoutBreak_late rfl reached left (List.mem_append_left _ member)

/-- A buffer after half a second, then silence: reports after one, two and
three seconds. -/
def silentRounds : List ClientEvent :=
  [.round (.bytes [0xD3]) ⟨500000000, 500000000⟩ [],
    .round (.negative EAGAIN) ⟨1000000000, 1000000000⟩ [],
    .round (.negative EAGAIN) ⟨2000000000, 2000000000⟩ [],
    .round (.negative EAGAIN) ⟨3000000000, 3000000000⟩ []]

/-- After four seconds the loop is left. -/
theorem silence_timeout_fourSeconds :
    Clocked everySecond silentRounds ∧
    (NtripClient.threadHandler everySecond silentRounds).TimeoutBreak 1 (.negative EAGAIN)
      ⟨4000000000, 4000000000⟩ [] ∧
    kReceiveTimeoutPeriod * intervalOf everySecond ≤ 4000000000 - 500000000 := by
  have clocked : Clocked everySecond silentRounds := by decide
  have left : (NtripClient.threadHandler everySecond silentRounds).TimeoutBreak 1
      (.negative EAGAIN) ⟨4000000000, 4000000000⟩ [] := by
    decide
  rcases silence_timeout everySecond silentRounds clocked with ⟨_, _, rounds⟩
  exact ⟨clocked, left, (rounds (.negative EAGAIN) ⟨4000000000, 4000000000⟩ [] (by decide)).2 left
    500000000 (by decide)⟩

end Ntrip
