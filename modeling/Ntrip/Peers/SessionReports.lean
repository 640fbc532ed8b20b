import Ntrip.Peers.ClientSession

namespace Ntrip

/-!
# What a client reports

The history of the steps says which text each report carries, over any number
of sessions: the text that the application has stored last, or the frame that
has been generated last, and then from which coordinates.
-/

/-! ## What the application has said -/

/-- The text that the application has stored last. -/
def lastText (events : List SessionEvent) : Option Bytes :=
  (events.filterMap fun
    | .storeGgaBuffer ggaBuffer => some ggaBuffer
    | _ => none).getLast?

/-- The text that the application has stored last, unless the worker has
generated a frame since. -/
def standingText (events : List SessionEvent) : Option Bytes :=
  (events.filterMap fun
    | .storeGgaBuffer ggaBuffer => some (some ggaBuffer)
    | .work (.generate _) => some none
    | _ => none).getLast?.join

/-- The coordinate that the application has stored last. -/
def lastCoordinate (axis : Axis) (events : List SessionEvent) : Coordinate :=
  (events.filterMap fun
    | .storeCoordinate stored coordinate => if stored = axis then some coordinate else none
    | _ => none).getLast?.getD (ClientSession.initial.location axis)

def lastLocation (events : List SessionEvent) : Location :=
  fun axis => lastCoordinate axis events

/-- It was so at some moment since the latest round began. -/
def InRound (events : List SessionEvent) (holds : List SessionEvent → Prop) : Prop :=
  ∃ before since, events = before ++ since ∧ (∀ event ∈ since, event.isPoll = false) ∧
    holds before

/-- The frame generated last: each of its coordinates was the client's at some
moment of the round.  Before the first text this is the latest round. -/
def Generated (kind : CharKind) (events : List SessionEvent) (frame : Bytes) : Prop :=
  ∃ before time since, ∃ location : Location,
    events = before ++ .work (.generate time) :: since ∧
    (∀ axis, InRound before fun moment => lastCoordinate axis moment = location axis) ∧
    frame = location.frame kind time ∧
    ∀ event ∈ since, event.isGenerate = false ∧ (lastText events = none → event.isPoll = false)

/-! ## One more step -/

theorem getLast?_filterMap_concat {Entry Value : Type*} (read : Entry → Option Value)
    (entries : List Entry) (entry : Entry) :
    ((entries ++ [entry]).filterMap read).getLast? =
      (read entry).or (entries.filterMap read).getLast? := by
  cases found : read entry with
  | none => simp [found]
  | some value => simp [found]

theorem lastText_concat (events : List SessionEvent) (event : SessionEvent) :
    lastText (events ++ [event]) =
      match event with
      | .storeGgaBuffer ggaBuffer => some ggaBuffer
      | _ => lastText events := by
  rw [lastText, getLast?_filterMap_concat]
  cases event with
  | _ => rfl

theorem standingText_concat (events : List SessionEvent) (event : SessionEvent) :
    standingText (events ++ [event]) =
      match event with
      | .storeGgaBuffer ggaBuffer => some ggaBuffer
      | .work (.generate _) => none
      | _ => standingText events := by
  rw [standingText, getLast?_filterMap_concat]
  cases event with
  | work roundStep => cases roundStep with
    | _ => rfl
  | _ => rfl

theorem lastCoordinate_concat (axis : Axis) (events : List SessionEvent) (event : SessionEvent) :
    lastCoordinate axis (events ++ [event]) =
      match event with
      | .storeCoordinate stored coordinate =>
          if stored = axis then coordinate else lastCoordinate axis events
      | _ => lastCoordinate axis events := by
  rw [lastCoordinate, getLast?_filterMap_concat]
  cases event with
  | storeCoordinate stored coordinate =>
      by_cases same : stored = axis
      · simp [same]
      · simp [same, lastCoordinate]
  | _ => rfl

theorem InRound.concat {events : List SessionEvent} {holds : List SessionEvent → Prop}
    (inRound : InRound events holds) {event : SessionEvent} (apart : event.isPoll = false) :
    InRound (events ++ [event]) holds := by
  rcases inRound with ⟨before, since, rfl, quiet, held⟩
  refine ⟨before, since ++ [event], List.append_assoc before since [event], ?_, held⟩
  intro earlier member
  rcases List.mem_append.mp member with old | new
  · exact quiet earlier old
  · rw [List.mem_singleton.mp new]
    exact apart

theorem Generated.concat {kind : CharKind} {events : List SessionEvent} {frame : Bytes}
    (generated : Generated kind events frame) {event : SessionEvent}
    (unset : lastText (events ++ [event]) = lastText events)
    (apart : event.isGenerate = false)
    (within : lastText events = none → event.isPoll = false) :
    Generated kind (events ++ [event]) frame := by
  rcases generated with ⟨before, time, since, location, rfl, held, written, quiet⟩
  refine ⟨before, time, since ++ [event], location, List.append_assoc before _ [event], held,
    written, ?_⟩
  rw [unset]
  intro earlier member
  rcases List.mem_append.mp member with old | new
  · exact quiet earlier old
  · rw [List.mem_singleton.mp new]
    exact ⟨apart, within⟩

namespace ClientSession

variable {kind : CharKind}

theorem after_concat (events : List SessionEvent) (event : SessionEvent) :
    after kind (events ++ [event]) = (after kind events).step kind event :=
  Execution.run_append initial events [event]

theorem reported_concat (events : List SessionEvent) (event : SessionEvent) :
    reported kind (events ++ [event]) =
      reported kind events ++ (after kind events).sends kind event := by
  rw [reported, Execution.steps_append, List.flatMap_append]
  simp [reported, after, Execution.steps]

theorem reported_concat_silent {events : List SessionEvent} {event : SessionEvent}
    (silent : (after kind events).sends kind event = []) :
    reported kind (events ++ [event]) = reported kind events := by
  rw [reported_concat, silent, List.append_nil]

theorem getLast?_reported_concat {events : List SessionEvent} {event : SessionEvent}
    {report : Bytes} (sent : (after kind events).sends kind event = [report]) :
    (reported kind (events ++ [event])).getLast? = some report := by
  rw [reported_concat, sent, List.getLast?_concat]

theorem validRun_concat {events : List SessionEvent} {event : SessionEvent} :
    ValidRun kind (events ++ [event]) ↔
      ValidRun kind events ∧ (after kind events).Valid event := by
  rw [ValidRun, Execution.eachStep_append]
  exact and_congr_right fun _ => and_iff_left trivial

end ClientSession

theorem Generated.nonempty {kind : CharKind} {events : List SessionEvent} {frame : Bytes}
    (generated : Generated kind events frame) : frame ≠ [] := by
  rcases generated with ⟨_, time, _, location, _, _, written, _⟩
  rw [written]
  exact location.frame_nonempty kind time

/-! ## What the members hold -/

namespace ClientSession

variable {kind : CharKind} {events : List SessionEvent}

theorem location_after (kind : CharKind) (events : List SessionEvent) :
    (after kind events).location = lastLocation events := by
  induction events using List.reverseRecOn with
  | nil => rfl
  | append_singleton events event inductionHypothesis =>
      funext axis
      rw [after_concat, lastLocation, lastCoordinate_concat]
      have held : (after kind events).location axis = lastCoordinate axis events :=
        congrFun inductionHypothesis axis
      cases event with
      | storeCoordinate stored coordinate =>
          change Function.update (after kind events).location stored coordinate axis = _
          by_cases same : stored = axis
          · subst same
            rw [Function.update_self]
            exact (if_pos rfl).symm
          · rw [Function.update_of_ne (Ne.symm same), held]
            exact (if_neg same).symm
      | _ => exact held

/-- The flag is set, or about to be, only behind a text. -/
theorem lastText_of_update (valid : ValidRun kind events)
    (update : (after kind events).pending = .ggaIsUpdate ∨
      (after kind events).thread.ggaIsUpdate = true) : lastText events ≠ none := by
  induction events using List.reverseRecOn with
  | nil => exact update.elim (fun pending => nomatch pending) fun flag => nomatch flag
  | append_singleton events event inductionHypothesis =>
      rcases validRun_concat.mp valid with ⟨earlier, here⟩
      rw [after_concat] at update
      rw [lastText_concat]
      have before := inductionHypothesis earlier
      cases event with
      | storeGgaBuffer ggaBuffer => exact Option.some_ne_none ggaBuffer
      | storeGgaIsUpdate => exact before (Or.inl here)
      | storeCoordinate axis coordinate =>
          refine before (Or.inr (update.resolve_left ?_))
          cases axis with
          | latitude => exact fun pending => nomatch pending
          | longitude => exact fun pending => nomatch pending
      | work roundStep =>
          rw [step_work_ggaIsUpdate here] at update
          exact before update
      | _ => exact before update

/-- The arguments loaded so far were the client's coordinates in the round. -/
theorem inRound_of_loaded (valid : ValidRun kind events) {tick : Int}
    {loaded : Axis → Option Coordinate} (making : (after kind events).making = .loading tick loaded)
    {axis : Axis} {coordinate : Coordinate} (load : loaded axis = some coordinate) :
    InRound events fun moment => lastCoordinate axis moment = coordinate := by
  induction events using List.reverseRecOn generalizing tick loaded with
  | nil => cases making
  | append_singleton events event inductionHypothesis =>
      rcases validRun_concat.mp valid with ⟨earlier, here⟩
      rw [after_concat] at making
      cases event with
      | work roundStep =>
          cases roundStep with
          | poll recv clock =>
              rcases (step_poll kind here.2 recv clock).2.2 with
                ended | ⟨_, _, fresh⟩ | ⟨_, _, sending⟩
              · cases ended.symm.trans making
              · cases fresh.symm.trans making
                cases load
              · cases sending.symm.trans making
          | loadCoordinate stored =>
              rcases step_loadCoordinate here with ⟨earlierTick, earlierLoaded, loading, same⟩
              rw [same] at making
              cases making
              by_cases this : axis = stored
              · subst this
                rw [Function.update_self, location_after] at load
                exact ⟨events, [.work (.loadCoordinate axis)], rfl, by simp [SessionEvent.isPoll],
                  Option.some.inj load⟩
              · rw [Function.update_of_ne this] at load
                exact (inductionHypothesis earlier loading load).concat rfl
          | generate time =>
              rcases step_generate here with ⟨_, _, _, _, _, same⟩
              rw [same] at making
              cases making
          | send =>
              rcases step_send here with ⟨_, _, same⟩
              rw [same] at making
              cases making
      | _ => exact (inductionHypothesis earlier making load).concat rfl

/-- A text that stands is in the buffer. -/
theorem ggaBuffer_of_standing (valid : ValidRun kind events) {text : Bytes}
    (stands : standingText events = some text) (nonempty : text ≠ []) :
    (after kind events).thread.ggaBuffer = text := by
  induction events using List.reverseRecOn with
  | nil => cases stands
  | append_singleton events event inductionHypothesis =>
      rcases validRun_concat.mp valid with ⟨earlier, here⟩
      rw [standingText_concat] at stands
      rw [after_concat]
      cases event with
      | storeGgaBuffer ggaBuffer => exact Option.some.inj stands
      | login time =>
          have before := inductionHypothesis earlier stands
          rw [step_login_ggaBuffer, if_neg (before.symm ▸ nonempty)]
          exact before
      | work roundStep =>
          have reached : (after kind events).Reached roundStep := here
          cases roundStep with
          | generate time => cases stands
          | _ =>
              rw [step_work_ggaBuffer reached fun _ => RoundStep.noConfusion]
              exact inductionHypothesis earlier stands
      | _ => exact inductionHypothesis earlier stands

/-- Without a text that stands, the buffer holds the frame generated last:
once there has been a text, and before the worker's `send`. -/
theorem generated_ggaBuffer (valid : ValidRun kind events) (unset : standingText events = none)
    (written : lastText events ≠ none ∨ (after kind events).making.isSending = true) :
    Generated kind events (after kind events).thread.ggaBuffer := by
  induction events using List.reverseRecOn with
  | nil => exact written.elim (fun text => absurd rfl text) fun sending => nomatch sending
  | append_singleton events event inductionHypothesis =>
      rcases validRun_concat.mp valid with ⟨earlier, here⟩
      rw [standingText_concat] at unset
      rw [lastText_concat, after_concat] at written
      rw [after_concat]
      have before := inductionHypothesis earlier
      cases event with
      | storeGgaBuffer ggaBuffer => cases unset
      | login time =>
          have generated := before unset written
          rw [step_login_ggaBuffer, if_neg generated.nonempty]
          exact generated.concat (lastText_concat _ _) rfl fun _ => rfl
      | work roundStep =>
          cases roundStep with
          | poll recv clock =>
              have polled := step_poll kind here.2 recv clock
              have text : lastText events ≠ none := by
                rcases written with text | sending
                · exact text
                · rcases polled.2.2 with ended | ⟨_, _, loading⟩ | ⟨update, _⟩
                  · rw [ended] at sending
                    cases sending
                  · rw [loading] at sending
                    cases sending
                  · exact lastText_of_update earlier (Or.inr update)
              rw [polled.1]
              exact (before unset (Or.inl text)).concat (lastText_concat _ _) rfl
                fun unwritten => absurd unwritten text
          | loadCoordinate axis =>
              rcases step_loadCoordinate here with ⟨_, _, _, same⟩
              rw [same] at written ⊢
              have text : lastText events ≠ none :=
                written.resolve_right fun sending => nomatch sending
              exact (before unset (Or.inl text)).concat (lastText_concat _ _) rfl fun _ => rfl
          | generate time =>
              rcases step_generate here with ⟨tick, loaded, location, loading, complete, same⟩
              rw [same]
              dsimp only
              refine ⟨events, time, [], location, rfl, ?_, rfl, ?_⟩
              · intro axis
                exact inRound_of_loaded earlier loading (arguments_eq_some complete axis)
              · exact fun _ member => absurd member List.not_mem_nil
          | send =>
              rcases step_send here with ⟨_, _, same⟩
              rw [same]
              exact (before unset (Or.inr here)).concat (lastText_concat _ _) rfl fun _ => rfl
      | _ => exact (before unset written).concat (lastText_concat _ _) rfl fun _ => rfl

/-- Without a text that stands, the buffer holds the report sent last, if
there has been any, until the worker comes to its next one. -/
theorem ggaBuffer_repeated (valid : ValidRun kind events) (unset : standingText events = none)
    (idle : (after kind events).making.isSending = false) :
    (after kind events).thread.ggaBuffer = (reported kind events).getLast?.getD [] ∧
      (reported kind events).getLast? ≠ some [] := by
  induction events using List.reverseRecOn with
  | nil => exact ⟨rfl, by simp [reported, Execution.steps]⟩
  | append_singleton events event inductionHypothesis =>
      rcases validRun_concat.mp valid with ⟨earlier, here⟩
      rw [standingText_concat] at unset
      rw [after_concat] at idle
      rw [after_concat]
      have before := inductionHypothesis earlier
      cases event with
      | storeGgaBuffer ggaBuffer => cases unset
      | login time =>
          have sent : (after kind events).sends kind (.login time) =
              [((after kind events).step kind (.login time)).thread.ggaBuffer] := rfl
          have report : ((after kind events).step kind (.login time)).thread.ggaBuffer ≠ [] := by
            rw [step_login_ggaBuffer]
            split_ifs with empty
            · exact Location.frame_nonempty kind _ time
            · exact empty
          rw [getLast?_reported_concat sent]
          exact ⟨rfl, fun same => report (Option.some.inj same)⟩
      | work roundStep =>
          cases roundStep with
          | poll recv clock =>
              rw [reported_concat_silent rfl, (step_poll kind here.2 recv clock).1]
              exact before unset (Making.eq_resting here.1 ▸ rfl)
          | loadCoordinate axis =>
              rcases step_loadCoordinate here with ⟨_, _, loading, same⟩
              rw [reported_concat_silent rfl, same]
              exact before unset (loading ▸ rfl)
          | generate time =>
              rcases step_generate here with ⟨_, _, _, _, _, same⟩
              rw [same] at idle
              cases idle
          | send =>
              rcases step_send here with ⟨_, _, same⟩
              have report := (generated_ggaBuffer earlier unset (Or.inr here)).nonempty
              have sent : (after kind events).sends kind (.work .send) =
                  [(after kind events).thread.ggaBuffer] := if_pos here
              rw [getLast?_reported_concat sent, same]
              exact ⟨rfl, fun empty => report (Option.some.inj empty)⟩
      | _ =>
          rw [reported_concat_silent rfl]
          exact before unset idle

end ClientSession

/-- What `Run` sends when it is answered. -/
def expectedAtLogin (kind : CharKind) (events : List SessionEvent) (time : LocalTime) : Bytes :=
  match standingText events, (ClientSession.reported kind events).getLast? with
  | some text, _ => text
  | none, some earlier => earlier
  | none, none => (lastLocation events).frame kind time

/-- Once the flag is set and the worker has gone past its test, no frame is
generated any more: of all texts only the first can be lost. -/
theorem texts_stand {kind : CharKind} {before later : List SessionEvent}
    (valid : ClientSession.ValidRun kind (before ++ later))
    (update : (ClientSession.after kind before).thread.ggaIsUpdate = true)
    (past : ∀ tick loaded, (ClientSession.after kind before).making ≠ .loading tick loaded)
    (stands : standingText before = lastText before) :
    standingText (before ++ later) = lastText (before ++ later) := by
  have all : (ClientSession.after kind (before ++ later)).thread.ggaIsUpdate = true ∧
      (∀ tick loaded,
        (ClientSession.after kind (before ++ later)).making ≠ .loading tick loaded) ∧
      standingText (before ++ later) = lastText (before ++ later) := by
    induction later using List.reverseRecOn with
    | nil =>
        rw [List.append_nil]
        exact ⟨update, past, stands⟩
    | append_singleton later event inductionHypothesis =>
        rw [← List.append_assoc] at valid ⊢
        rcases ClientSession.validRun_concat.mp valid with ⟨earlier, here⟩
        rcases inductionHypothesis earlier with ⟨flag, apart, same⟩
        rw [ClientSession.after_concat, standingText_concat, lastText_concat]
        cases event with
        | storeGgaIsUpdate => exact ⟨rfl, apart, same⟩
        | storeGgaBuffer ggaBuffer => exact ⟨flag, apart, rfl⟩
        | work roundStep =>
            refine ⟨(ClientSession.step_work_ggaIsUpdate here).trans flag, ?_⟩
            cases roundStep with
            | poll recv clock =>
                refine ⟨?_, same⟩
                intro tick loaded making
                rcases (ClientSession.step_poll kind here.2 recv clock).2.2 with
                  ended | ⟨unset, _⟩ | ⟨_, _, sending⟩
                · cases ended.symm.trans making
                · cases unset.symm.trans flag
                · cases sending.symm.trans making
            | loadCoordinate axis =>
                rcases Making.exists_of_lacks here with ⟨tick, loaded, loading⟩
                exact absurd loading (apart tick loaded)
            | generate time =>
                rcases Making.exists_of_complete here with ⟨tick, loaded, _, loading, _⟩
                exact absurd loading (apart tick loaded)
            | send =>
                rcases ClientSession.step_send here with ⟨_, _, sent⟩
                rw [sent]
                exact ⟨fun _ _ making => Making.noConfusion making, same⟩
        | _ => exact ⟨flag, apart, same⟩
  exact all.2.2

def evening : LocalTime where
  hour := 20
  minute := 15
  second := 30
  hour_lt := by decide
  minute_lt := by decide
  second_le := by decide

def origin : Coordinate := ⟨0, by norm_num⟩

/-- A session at noon, and another location for the next one. -/
def moved : List SessionEvent :=
  [.login noon, .start 0, .stop, .storeCoordinate .latitude origin,
    .storeCoordinate .longitude origin]

theorem reported_moved :
    ClientSession.reported .signed moved =
      [ClientSession.initial.location.frame .signed noon] := by
  simp [ClientSession.reported, Execution.steps, moved, ClientSession.sends, ClientSession.step,
    ClientSession.initial]

/-- A text that comes between the test of the worker and its frame. -/
def overtaken : List SessionEvent :=
  [.login noon, .start 0, .work (.poll (.negative EAGAIN) ⟨1000000000, 1000000000⟩),
    .work (.loadCoordinate .latitude), .storeGgaBuffer (ascii "$GPGGA,1*41"),
    .work (.loadCoordinate .longitude), .work (.generate evening), .storeGgaIsUpdate]

/-- The buffer holds a report, or nothing yet, and then the worker will not
send it. -/
def HoldsReport (kind : CharKind) (session : ClientSession) : Prop :=
  IsReport kind session.thread.ggaBuffer ∨
    (session.thread.ggaBuffer = [] ∧ session.thread.ggaIsUpdate = false ∧
      session.pending ≠ .ggaIsUpdate ∧ session.making.isSending = false)

theorem Location.isReport_frame (kind : CharKind) (location : Location) (time : LocalTime) :
    IsReport kind (location.frame kind time) := by
  rw [frame_eq]
  exact isReport_ggaFrame kind time _ _ _ _

/-- The event sets no text but a report. -/
def SessionEvent.SetsReport (kind : CharKind) : SessionEvent → Prop
  | .storeGgaBuffer ggaBuffer => IsReport kind ggaBuffer
  | _ => True

theorem holdsReport_step (kind : CharKind) {session : ClientSession}
    (holds : HoldsReport kind session) {event : SessionEvent} (here : session.Valid event)
    (sets : event.SetsReport kind) :
    HoldsReport kind (session.step kind event) ∧
      ∀ report ∈ session.sends kind event, IsReport kind report := by
  have none : ∀ report ∈ ([] : List Bytes), IsReport kind report :=
    fun _ member => absurd member List.not_mem_nil
  cases event with
  | storeCoordinate axis coordinate =>
      refine ⟨holds.imp_right fun nothing => ⟨nothing.1, nothing.2.1, ?_, nothing.2.2.2⟩, none⟩
      cases axis with
      | latitude => exact fun pending => nomatch pending
      | longitude => exact fun pending => nomatch pending
  | storeGgaBuffer ggaBuffer => exact ⟨Or.inl sets, none⟩
  | storeGgaIsUpdate =>
      exact ⟨Or.inl (holds.resolve_right fun nothing => nothing.2.2.1 here), none⟩
  | login time =>
      have report : IsReport kind (session.step kind (.login time)).thread.ggaBuffer := by
        rw [ClientSession.step_login_ggaBuffer]
        split_ifs with empty
        · exact Location.isReport_frame kind session.location time
        · exact holds.resolve_right fun nothing => empty nothing.1
      exact ⟨Or.inl report, fun sent member => List.mem_singleton.mp member ▸ report⟩
  | work roundStep =>
      cases roundStep with
      | poll recv clock =>
          have polled := ClientSession.step_poll kind here.2 recv clock
          rw [HoldsReport, polled.1, polled.2.1]
          refine ⟨holds.imp_right fun nothing => ⟨nothing.1, nothing.2.1, nothing.2.2.1, ?_⟩, none⟩
          rcases polled.2.2 with ended | ⟨_, _, loading⟩ | ⟨update, _⟩
          · rw [ended]
            rfl
          · rw [loading]
            rfl
          · cases nothing.2.1.symm.trans update
      | loadCoordinate axis =>
          rcases ClientSession.step_loadCoordinate here with ⟨_, _, _, same⟩
          rw [same]
          refine ⟨holds.imp_right fun nothing => ?_, none⟩
          exact ⟨nothing.1, nothing.2.1, nothing.2.2.1, rfl⟩
      | generate time =>
          rcases ClientSession.step_generate here with ⟨_, _, location, _, _, same⟩
          rw [same]
          refine ⟨Or.inl ?_, none⟩
          dsimp only
          exact location.isReport_frame kind time
      | send =>
          have report : IsReport kind session.thread.ggaBuffer :=
            holds.resolve_right fun nothing => Bool.false_ne_true (nothing.2.2.2.symm.trans here)
          have sent : session.sends kind (.work .send) = [session.thread.ggaBuffer] := if_pos here
          rcases ClientSession.step_send here with ⟨_, _, same⟩
          rw [same, sent]
          exact ⟨Or.inl report, fun message member => List.mem_singleton.mp member ▸ report⟩
  | _ => exact ⟨holds, none⟩

/-- Whatever a client reports over any number of sessions, if its application
sets no text but reports, the caster takes it from a client without dropping
the connection, sending or changing anything. -/
theorem reports_are_taken (kind : CharKind) (events : List SessionEvent)
    (valid : ClientSession.ValidRun kind events)
    (texts : ∀ event ∈ events, event.SetsReport kind) :
    ∀ report ∈ ClientSession.reported kind events, ∀ (caster : NtripCaster) (fd : Fd)
      (outcomes : SendOutcomes), servedRecord caster.mountPointInfos fd = none →
        parseData caster outcomes fd report = ⟨0, caster, []⟩ := by
  have all : HoldsReport kind (ClientSession.after kind events) ∧
      ∀ report ∈ ClientSession.reported kind events, IsReport kind report := by
    induction events using List.reverseRecOn with
    | nil =>
        refine ⟨Or.inr ⟨rfl, rfl, Pending.noConfusion, rfl⟩, ?_⟩
        exact fun _ member => absurd member List.not_mem_nil
    | append_singleton events event inductionHypothesis =>
        rcases ClientSession.validRun_concat.mp valid with ⟨earlier, here⟩
        rcases inductionHypothesis earlier fun past member =>
          texts past (List.mem_append_left [event] member) with ⟨holds, reports⟩
        have next := holdsReport_step kind holds here
          (texts event (List.mem_append_right events List.mem_cons_self))
        rw [ClientSession.after_concat, ClientSession.reported_concat]
        refine ⟨next.1, ?_⟩
        intro report member
        exact (List.mem_append.mp member).elim (reports report) (next.2 report)
  exact fun report member caster fd outcomes unserved =>
    (all.2 report member).parseData_eq unserved outcomes

/-- A text that is set before the session. -/
def told : List SessionEvent :=
  [.storeGgaBuffer (ascii "$GPGGA,1*41"), .storeGgaIsUpdate, .login noon]

theorem reports_are_taken_told :
    parseData .empty (fun _ => true) 5 (ascii "$GPGGA,1*41") = ⟨0, .empty, []⟩ := by
  have text : IsReport .signed (ascii "$GPGGA,1*41") := ⟨by decide, by decide, by decide⟩
  refine reports_are_taken .signed told (by decide) ?_ _ (by decide) .empty 5 (fun _ => true) rfl
  simp [told, SessionEvent.SetsReport, text]

end Ntrip
