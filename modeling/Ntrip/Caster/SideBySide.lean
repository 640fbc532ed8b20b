import Ntrip.Foundation.Execution
import Ntrip.Caster.Commutation

namespace Ntrip

/-!
# Mount points side by side

Some names are set apart, and every event is either about records with these
names only or about none of them.  Then the events of the first kind have no
part in the others: they return the same, send the same and leave the same
records as if the caster had nothing else to do.
-/

open Sequence

/-! ## The calls of `send` depend on the covered records only -/

/-- When every reply is taken, the first record that is asked for is the last
one to be tried. -/
theorem admitClient_taken {outcomes : SendOutcomes} (taken : ∀ index, outcomes index = true)
    (fields : RequestFields) (response : Bytes) (fd : Fd) (count : Nat)
    (infos : List MountPointInformation) :
    (admitClient outcomes fields response fd count infos).1.isSome =
        infos.any (fun info => fields.Matches info) ∧
      (admitClient outcomes fields response fd count infos).2 =
        if infos.any (fun info => fields.Matches info) then
          [⟨.clientConnectRequest, fd, response, true⟩] else [] := by
  induction infos with
  | nil => exact ⟨rfl, rfl⟩
  | cons info rest inductionHypothesis =>
      by_cases good : fields.Matches info
      · simp [admitClient, good, taken count]
      · simpa [admitClient, good] using inductionHypothesis

section Sends

variable {names : List Bytes} {outcomes : SendOutcomes} {lines : List Bytes} {fd : Fd}

theorem serverConnectRequest_sends_of_read {caster alone : NtripCaster}
    (alike : readServerLines alone.mountPointInfos {} lines =
      readServerLines caster.mountPointInfos {} lines) :
    (serverConnectRequest alone outcomes lines fd).sends =
      (serverConnectRequest caster outcomes lines fd).sends := by
  unfold serverConnectRequest
  rw [alike]
  cases readServerLines caster.mountPointInfos {} lines with
  | error refusal => cases refusal <;> rfl
  | ok fields =>
      cases str : readStrLines fields.mountPoint [] lines with
      | none => simp only [str]
      | some ntripStr =>
          simp only [str]
          split_ifs <;> rfl

/-- When every reply is taken, a client gets one line. -/
theorem clientConnectRequest_sends_taken (caster : NtripCaster)
    (taken : ∀ index, outcomes index = true) :
    (clientConnectRequest caster outcomes lines fd).sends =
      [⟨.clientConnectRequest, fd,
        if (readClientLines {} lines).Complete ∧ caster.mountPointInfos.any
            (fun info => (readClientLines {} lines).toRequestFields.Matches info) then
          clientReply (readClientLines {} lines)
        else unauthorizedLine, true⟩] := by
  unfold clientConnectRequest
  by_cases complete : (readClientLines {} lines).Complete
  · have walk := admitClient_taken taken (readClientLines {} lines).toRequestFields
      (clientReply (readClientLines {} lines)) fd 0 caster.mountPointInfos
    cases hit : caster.mountPointInfos.any
        (fun info => (readClientLines {} lines).toRequestFields.Matches info) with
    | true =>
        rw [hit] at walk
        rcases Option.isSome_iff_exists.mp walk.1 with ⟨infos, admitted⟩
        simp only [if_pos complete, admitted, walk.2]
        simp [complete]
    | false =>
        rw [hit] at walk
        have refused := Option.isSome_eq_false_iff.mp walk.1
        simp only [if_pos complete, Option.isNone_iff_eq_none.mp refused, walk.2]
        simp [taken]
  · simp [complete, taken]

end Sends

/-- An event whose sends are all taken sends the same from the covered part of
the table. -/
theorem sends_of_filter {names : List Bytes} {caster alone : NtripCaster} {event : Event}
    (taken : event.Taken) (covers : Covers names caster.mountPointInfos event)
    (part : alone.mountPointInfos = caster.mountPointInfos.filter (named names)) :
    event.sends alone = event.sends caster := by
  cases event with
  | accept fd => rfl
  | disconnected fd => rfl
  | received fd buffer outcomes =>
      have text : parsedNames buffer ⊆ names := covers.text
      unfold parsedNames at text
      change (parseData alone outcomes fd buffer).sends = (parseData caster outcomes fd buffer).sends
      unfold parseData
      cases kind : dispatch buffer with
      | unknownVersion => rfl
      | post =>
          simp only [kind] at text ⊢
          apply serverConnectRequest_sends_of_read
          rw [part]
          exact readServerLines_filter {} text
      | get =>
          simp only [kind] at text ⊢
          rw [clientConnectRequest_sends_taken alone taken,
            clientConnectRequest_sends_taken caster taken, part]
          by_cases complete : (readClientLines {} (requestLines buffer)).Complete
          · have asked : login buffer =
                some (readClientLines {} (requestLines buffer)).toRequestFields := by
              simp [login, complete]
            have inNames := text (name_of_login kind asked)
            rw [any_filter_of_hits]
            intro info _ good
            exact named_iff.mpr ((of_decide_eq_true good).1 ▸ inNames)
          · simp [complete]
      | data =>
          have served : servedRecord alone.mountPointInfos fd =
              servedRecord caster.mountPointInfos fd := by
            rw [part]
            apply find?_filter_of_hits
            intro info member serves
            have mentioned := (info.mem_descriptors fd).mpr
              (Or.inl (of_decide_eq_true serves).symm)
            exact named_iff.mpr (covers.mentioned info member mentioned)
          have passed : ∀ tables : NtripCaster, (parseData tables outcomes fd buffer).sends =
              (tryToForwardServerData tables outcomes fd buffer).sends := by
            intro tables
            simp only [parseData, kind]
            split <;> rfl
          have forwarded : (tryToForwardServerData alone outcomes fd buffer).sends =
              (tryToForwardServerData caster outcomes fd buffer).sends := by
            rw [tryToForwardServerData, tryToForwardServerData, served]
            cases servedRecord caster.mountPointInfos fd <;> rfl
          have whole := (passed alone).trans (forwarded.trans (passed caster).symm)
          simpa only [parseData, kind] using whole

/-- What a disconnect closes, by the first record that mentions the
descriptor. -/
theorem disconnect_closes (caster : NtripCaster) (fd : Fd) :
    (disconnect caster fd).2 =
      match caster.mountPointInfos.find? (fun info => fd ∈ info.descriptors) with
      | some info => if info.serverFd = fd then info.clientSocketList ++ [fd] else [fd]
      | none => [fd] := by
  rcases exists_mentionSplit caster.mountPointInfos fd with absent | ⟨before, info, after, found⟩
  · have missing : caster.mountPointInfos.find? (fun info => fd ∈ info.descriptors) = none := by
      apply List.find?_eq_none.mpr
      intro info member mentioned
      exact absent (mem_descriptors.mpr ⟨info, member, of_decide_eq_true mentioned⟩)
    rw [disconnect_of_notMem absent, missing]
  · have first : caster.mountPointInfos.find? (fun info => fd ∈ info.descriptors) = some info := by
      apply List.find?_eq_some_iff_append.mpr
      refine ⟨decide_eq_true found.mentioned, before, after, found.split, ?_⟩
      intro other member
      simpa using found.unmentioned other member
    rw [first]
    by_cases serves : info.serverFd = fd
    · rw [disconnect_of_server found serves]
      exact (if_pos serves).symm
    · rw [disconnect_of_client found serves]
      exact (if_neg serves).symm

/-! ## Runs -/

namespace Event

/-- The descriptors that the loop closes in an event. -/
def closes (caster : NtripCaster) : Event → List Fd
  | .accept _ => []
  | .received fd buffer outcomes =>
      if (parseData caster outcomes fd buffer).ret < 0 then [fd] else []
  | .disconnected fd => (disconnect caster fd).2

/-- All that an event does outside the tables. -/
def observed (caster : NtripCaster) (event : Event) : Option Int × List SendCall × List Fd :=
  (event.ret caster, event.sends caster, event.closes caster)

/-- The event is about records with the names only, or about none of them. -/
def Separated (names : List Bytes) (caster : NtripCaster) (event : Event) : Prop :=
  event.footprint caster ⊆ names ∨ (event.footprint caster).Disjoint names

/-- The event is about records with the names. -/
def concerns (names : List Bytes) (caster : NtripCaster) (event : Event) : Bool :=
  event.footprint caster ⊆ names

end Event

/-- The second caster has the records with the names, and no others. -/
def Part (names : List Bytes) (caster alone : NtripCaster) : Prop :=
  alone.mountPointInfos = caster.mountPointInfos.filter (named names)

section Steps

variable {names : List Bytes} {caster alone : NtripCaster} {event : Event}

theorem covers_of_footprint (inside : event.footprint caster ⊆ names) :
    Covers names caster.mountPointInfos event where
  text := fun _ member => inside ((covers_footprint caster event).text member)
  mentioned := fun info member mentions =>
    inside ((covers_footprint caster event).mentioned info member mentions)

theorem ret_of_part (taken : event.Taken) (covers : Covers names caster.mountPointInfos event)
    (part : Part names caster alone) : event.ret alone = event.ret caster :=
  calc event.ret alone
      = (event.effect alone.mountPointInfos).1 := congrArg Prod.fst (effect_eq alone event taken)
    _ = (event.effect (caster.mountPointInfos.filter (named names))).1 := by rw [part]
    _ = (event.effect caster.mountPointInfos).1 := (effect_local covers).2
    _ = event.ret caster := (congrArg Prod.fst (effect_eq caster event taken)).symm

theorem closes_of_part (taken : event.Taken) (covers : Covers names caster.mountPointInfos event)
    (part : Part names caster alone) : event.closes alone = event.closes caster := by
  cases event with
  | accept fd => rfl
  | received fd buffer outcomes =>
      have same : (parseData alone outcomes fd buffer).ret = (parseData caster outcomes fd buffer).ret :=
        Option.some.inj (ret_of_part taken covers part)
      rw [Event.closes, Event.closes, same]
  | disconnected fd =>
      rw [Event.closes, Event.closes, disconnect_closes, disconnect_closes, part,
        find?_filter_of_hits]
      intro info member mentions
      exact named_iff.mpr (covers.mentioned info member (of_decide_eq_true mentions))

theorem observed_of_part (taken : event.Taken) (covers : Covers names caster.mountPointInfos event)
    (part : Part names caster alone) : event.observed alone = event.observed caster := by
  rw [Event.observed, Event.observed, ret_of_part taken covers part,
    sends_of_filter taken covers part, closes_of_part taken covers part]

/-- An event about the records does the same when there are no others. -/
theorem part_follows (taken : event.Taken) (inside : event.footprint caster ⊆ names)
    (part : Part names caster alone) :
    Part names (event.tables caster) (event.tables alone) ∧
      event.observed caster = event.observed alone := by
  have covers := covers_of_footprint inside
  constructor
  · calc (event.tables alone).mountPointInfos
        = (event.effect alone.mountPointInfos).2 := congrArg Prod.snd (effect_eq alone event taken)
      _ = (event.effect (caster.mountPointInfos.filter (named names))).2 := by rw [part]
      _ = (event.effect caster.mountPointInfos).2.filter (named names) :=
          (effect_local covers).1.inside.symm
      _ = (event.tables caster).mountPointInfos.filter (named names) :=
          congrArg (List.filter _) (congrArg Prod.snd (effect_eq caster event taken)).symm
  · exact (observed_of_part taken covers part).symm

/-- An event about none of the records leaves them alone. -/
theorem part_ignores (taken : event.Taken)
    (apart : (event.footprint caster).Disjoint names) (part : Part names caster alone) :
    Part names (event.tables caster) alone := by
  have tables : (event.tables caster).mountPointInfos = (event.effect caster.mountPointInfos).2 :=
    congrArg Prod.snd (effect_eq caster event taken)
  have untouched := (effect_local (covers_footprint caster event)).1.filter_other
    (named_apart fun name inNames inFootprint => apart inFootprint inNames)
  rw [Part, tables, untouched]
  exact part

end Steps

/-- The sends of an event are taken, and it is about records with the names
only or about none of them. -/
def Orderly (names : List Bytes) (caster : NtripCaster) (event : Event) : Prop :=
  event.Taken ∧ event.Separated names caster

/-- The steps of a run that are about records with the names. -/
def ownSteps (names : List Bytes) (caster : NtripCaster) (events : List Event) :
    List (NtripCaster × Event) :=
  Execution.seenSteps Event.tables (Event.concerns names) caster events

/-- In every run of orderly events, those about records with the names return,
send and close the same, and leave the same records with the names, as when
they are handled alone. -/
theorem mount_points_do_not_interfere (names : List Bytes) (caster alone : NtripCaster)
    (part : Part names caster alone) (events : List Event)
    (orderly : Execution.EachStep Event.tables (Orderly names) caster events) :
    Part names (Execution.run Event.tables caster events)
        (Execution.run Event.tables alone ((ownSteps names caster events).map Prod.snd)) ∧
      (ownSteps names caster events).map (fun own => own.2.observed own.1) =
        (Execution.steps Event.tables alone ((ownSteps names caster events).map Prod.snd)).map
          fun own => own.2.observed own.1 := by
  refine Execution.run_follows ?_ ?_ part orderly
  · rintro caster alone event part ⟨taken, _⟩ concerned
    exact part_follows taken (of_decide_eq_true concerned) part
  · rintro caster alone event part ⟨taken, inside | apart⟩ unconcerned
    · exact absurd inside (of_decide_eq_false unconcerned)
    · exact part_ignores taken apart part

/-- The caster of the examples with the first of its records only. -/
def firstAlone : NtripCaster where
  mountPointInfos := servedByFiveAndEight.mountPointInfos.take 1
  ntripStrList := []

/-- The server of one mount point leaves, a client asks for the other one, and
its server sends data. -/
def sideBySide : List Event :=
  [leaving, asking, .received 5 [0xD3, 0, 0] fun _ => true]

theorem orderly_sideBySide :
    Execution.EachStep Event.tables (Orderly [ascii "A"]) servedByFiveAndEight sideBySide := by
  refine ⟨⟨trivial, Or.inr ?_⟩, ⟨fun _ => rfl, Or.inl (by decide)⟩,
    ⟨fun _ => rfl, Or.inl (by decide)⟩, trivial⟩
  have leaves : leaving.footprint servedByFiveAndEight = [ascii "B"] := by decide
  rw [leaves, List.singleton_disjoint]
  decide

theorem mount_points_do_not_interfere_sideBySide :
    (ownSteps [ascii "A"] servedByFiveAndEight sideBySide).map
        (fun own => own.2.observed own.1) =
      (Execution.steps Event.tables firstAlone
        ((ownSteps [ascii "A"] servedByFiveAndEight sideBySide).map Prod.snd)).map
          fun own => own.2.observed own.1 :=
  (mount_points_do_not_interfere [ascii "A"] servedByFiveAndEight firstAlone rfl
    sideBySide orderly_sideBySide).2

end Ntrip
