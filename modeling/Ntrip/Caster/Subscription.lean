import Ntrip.Caster.Batch
import Ntrip.Caster.Forwarding
import Ntrip.Caster.Isolation

namespace Ntrip

/-!
# A server and one of its clients

A subscription is a record with its server's descriptor and one of its
clients', neither of which occurs in the tables again.  It lasts as long as
the two of them neither hang up nor send what the caster drops them for;
nobody else can end it or put bytes into it, whatever they send, register,
ask for or leave.
-/

/-- A descriptor that occurs once occurs in one record, once. -/
theorem record_of_count_one {infos : List MountPointInformation} {fd : Fd}
    (once : (descriptors infos).count fd = 1) {info : MountPointInformation}
    (member : info ∈ infos) (mentioned : fd ∈ info.descriptors) :
    info.descriptors.count fd = 1 ∧ ∀ other ∈ infos, fd ∈ other.descriptors → other = info := by
  rcases List.append_of_mem member with ⟨before, after, split⟩
  have total : info.descriptors.count fd + (descriptors (before ++ after)).count fd = 1 := by
    rw [← List.count_append, ← (descriptors_split_perm before after info).count_eq, ← split]
    exact once
  have here : 0 < info.descriptors.count fd := List.count_pos_iff.mpr mentioned
  refine ⟨by omega, ?_⟩
  intro other listed inOther
  by_contra different
  have elsewhere : other ∈ before ++ after := by
    rw [split] at listed
    rcases List.mem_append.mp listed with left | right
    · exact List.mem_append_left after left
    · exact List.mem_append_right before ((List.mem_cons.mp right).resolve_left different)
  have again : 0 < (descriptors (before ++ after)).count fd :=
    List.count_pos_iff.mpr (mem_descriptors.mpr ⟨other, elsewhere, inOther⟩)
  omega

/-- A record that the descriptor does not serve stays. -/
theorem Evolves.survives {fd : Fd} {asks : MountPointInformation → Prop}
    {infos infos' : List MountPointInformation} (evolves : Evolves fd asks infos infos')
    {info : MountPointInformation} (member : info ∈ infos) (other : info.serverFd ≠ fd) :
    ∃ info' ∈ infos', Updated fd asks info info' := by
  induction evolves with
  | nil => cases member
  | keep updated later inductionHypothesis =>
      rcases List.mem_cons.mp member with rfl | inRest
      · exact ⟨_, List.mem_cons_self, updated⟩
      · rcases inductionHypothesis inRest with ⟨info', listed, changed⟩
        exact ⟨info', List.mem_cons_of_mem _ listed, changed⟩
  | leave serves later inductionHypothesis =>
      rcases List.mem_cons.mp member with rfl | inRest
      · exact absurd serves other
      · exact inductionHypothesis inRest

namespace System

/-- One connection serves a record under `server`, another is listed there
under `client`, and the tables mention neither descriptor again. -/
structure Subscribed (sys : System) (server client : Fd) (source sink : ConnId) : Prop where
  source_open : sys.owner server = some source
  sink_open : sys.owner client = some sink
  server_once : (descriptors sys.caster.mountPointInfos).count server = 1
  client_once : (descriptors sys.caster.mountPointInfos).count client = 1
  listed : ∃ info ∈ sys.caster.mountPointInfos,
    info.serverFd = server ∧ client ∈ info.clientSocketList

/-- The server sends data and neither leaves.  Every buffer that is received
from the client is a position report of its own; half a report is not. -/
def Sustains (server client : Fd) : Event → Prop
  | .accept _ => True
  | .received fd buffer _ =>
      (fd = server → ¬ LooksLikeRequest buffer) ∧
        (fd = client → ¬ LooksLikeRequest buffer ∧ mentionsGga buffer = true)
  | .disconnected fd => fd ≠ server ∧ fd ≠ client

instance (server client : Fd) : (event : Event) → Decidable (Sustains server client event)
  | .accept _ => inferInstanceAs (Decidable True)
  | .received fd buffer _ =>
      inferInstanceAs (Decidable ((fd = server → ¬ LooksLikeRequest buffer) ∧
        (fd = client → ¬ LooksLikeRequest buffer ∧ mentionsGga buffer = true)))
  | .disconnected fd => inferInstanceAs (Decidable (fd ≠ server ∧ fd ≠ client))

namespace Subscribed

variable {sys : System} {server client : Fd} {source sink : ConnId}

theorem different (subscribed : sys.Subscribed server client source sink) : client ≠ server := by
  rcases subscribed.listed with ⟨info, member, serves, inList⟩
  have once := (record_of_count_one subscribed.client_once member
    ((info.mem_descriptors client).mpr (Or.inr inList))).1
  intro same
  rw [MountPointInformation.descriptors, serves, same, List.count_cons_self] at once
  have again : 0 < info.clientSocketList.count server := List.count_pos_iff.mpr (same ▸ inList)
  omega

/-- The record of the server is the one that lists the client, and it lists
the client once. -/
theorem servedRecord_eq (subscribed : sys.Subscribed server client source sink) :
    ∃ info, servedRecord sys.caster.mountPointInfos server = some info ∧
      info.clientSocketList.count client = 1 := by
  rcases subscribed.listed with ⟨info, member, serves, inList⟩
  have clientOnce := (record_of_count_one subscribed.client_once member
    ((info.mem_descriptors client).mpr (Or.inr inList))).1
  have serverSole := (record_of_count_one subscribed.server_once member
    ((info.mem_descriptors server).mpr (Or.inl serves.symm))).2
  rcases exists_servedRecord member with ⟨first, served⟩
  rw [serves] at served
  have same : first = info := by
    refine serverSole first (List.mem_of_find?_eq_some served) ?_
    have serverFd : first.serverFd = server := by simpa using List.find?_some served
    exact (first.mem_descriptors server).mpr (Or.inl serverFd.symm)
  refine ⟨info, same ▸ served, ?_⟩
  rw [MountPointInformation.descriptors, serves,
    List.count_cons_of_ne subscribed.different.symm] at clientOnce
  exact clientOnce

/-- The client serves nothing. -/
theorem servedRecord_client (subscribed : sys.Subscribed server client source sink) :
    servedRecord sys.caster.mountPointInfos client = none := by
  rcases subscribed.listed with ⟨info, member, serves, inList⟩
  have sole := (record_of_count_one subscribed.client_once member
    ((info.mem_descriptors client).mpr (Or.inr inList))).2
  apply List.find?_eq_none.mpr
  intro other inTable servesToo
  have owner : other.serverFd = client := by simpa using servesToo
  have same := sole other inTable ((other.mem_descriptors client).mpr (Or.inl owner.symm))
  rw [same, serves] at owner
  exact subscribed.different owner.symm

/-- Nobody but the server has the client in a record. -/
theorem serves_of_lists (subscribed : sys.Subscribed server client source sink)
    {info : MountPointInformation} (member : info ∈ sys.caster.mountPointInfos)
    (inList : client ∈ info.clientSocketList) : info.serverFd = server := by
  rcases subscribed.listed with ⟨record, inTable, serves, listed⟩
  have sole := (record_of_count_one subscribed.client_once inTable
    ((record.mem_descriptors client).mpr (Or.inr listed))).2
  rw [sole info member ((info.mem_descriptors client).mpr (Or.inr inList))]
  exact serves

/-- The server is nobody's client. -/
theorem server_notMem (subscribed : sys.Subscribed server client source sink)
    {info : MountPointInformation} (member : info ∈ sys.caster.mountPointInfos) :
    server ∉ info.clientSocketList := by
  rcases subscribed.listed with ⟨record, inTable, serves, listed⟩
  have atServer := record_of_count_one subscribed.server_once inTable
    ((record.mem_descriptors server).mpr (Or.inl serves.symm))
  intro inList
  have same := atServer.2 info member ((info.mem_descriptors server).mpr (Or.inr inList))
  have once := atServer.1
  rw [MountPointInformation.descriptors, serves, List.count_cons_self] at once
  have again : 0 < record.clientSocketList.count server :=
    List.count_pos_iff.mpr (same ▸ inList)
  omega

/-! ## What goes to the client -/

/-- Only the server's bytes go to the client. -/
theorem sends_elsewhere (subscribed : sys.Subscribed server client source sink) {event : Event}
    (sustains : Sustains server client event) (other : event.fd ≠ server) :
    ∀ call ∈ event.sends sys.caster, call.fd ≠ client := by
  intro call member toClient
  by_cases own : event.fd = client
  · cases event with
    | accept fd => cases member
    | disconnected fd => cases member
    | received fd buffer outcomes =>
        have report := sustains.2 own
        have kind := (dispatch_eq_data_iff buffer).mpr report.1
        have unserved : servedRecord sys.caster.mountPointInfos fd = none := by
          rw [show fd = client from own]
          exact subscribed.servedRecord_client
        have silent : (Event.received fd buffer outcomes).sends sys.caster = [] := by
          simp [Event.sends, parseData, kind, tryToForwardServerData, unserved, report.2]
        rw [silent] at member
        cases member
  · rcases sends_cases sys.caster event call member with ⟨info, inTable, serves, inList⟩ | reply
    · exact other (serves ▸ subscribed.serves_of_lists inTable (toClient ▸ inList))
    · exact own (reply.2.1.symm.trans toClient)

/-- The server's bytes go to the client once. -/
theorem sends_of_server (subscribed : sys.Subscribed server client source sink) {buffer : Bytes}
    (data : ¬ LooksLikeRequest buffer) (outcomes : SendOutcomes) :
    (((Event.received server buffer outcomes).sends sys.caster).filter
      fun call => call.fd = client).map SendCall.message = [buffer] := by
  rcases subscribed.servedRecord_eq with ⟨info, served, once⟩
  have sends : (Event.received server buffer outcomes).sends sys.caster =
      forwardTo outcomes buffer info.clientSocketList :=
    congrArg Response.sends (parseData_of_served data served)
  rw [sends, forwardTo_messages, once]
  rfl

/-! ## One event -/

theorem parseData_ret (subscribed : sys.Subscribed server client source sink) {fd : Fd}
    {buffer : Bytes} {outcomes : SendOutcomes}
    (sustains : Sustains server client (.received fd buffer outcomes))
    (negative : (parseData sys.caster outcomes fd buffer).ret < 0) : fd ≠ server ∧ fd ≠ client := by
  have refusal := (parseData_ret_neg_iff sys.caster outcomes fd buffer).mp negative
  constructor
  · intro same
    rcases subscribed.servedRecord_eq with ⟨info, served, _⟩
    rw [same, parseData_of_served (sustains.1 same) served] at negative
    exact absurd negative (Int.lt_irrefl 0)
  · intro same
    have report := sustains.2 same
    rw [Refused, (dispatch_eq_data_iff buffer).mpr report.1] at refusal
    have unmarked := refusal.2
    rw [report.2] at unmarked
    cases unmarked

theorem owner_step (subscribed : sys.Subscribed server client source sink) {event : Event}
    (valid : sys.Valid event) (sustains : Sustains server client event) :
    (sys.step event).owner server = some source ∧ (sys.step event).owner client = some sink := by
  cases event with
  | accept fresh =>
      have free : sys.owner fresh = none := valid
      have apart : ∀ {fd conn}, sys.owner fd = some conn → fd ≠ fresh := by
        intro fd conn holds same
        rw [same, free] at holds
        cases holds
      rw [owner_step_accept, owner_step_accept, if_neg (apart subscribed.source_open),
        if_neg (apart subscribed.sink_open)]
      exact ⟨subscribed.source_open, subscribed.sink_open⟩
  | received fd buffer outcomes =>
      rw [owner_step_other sys (by simp), owner_step_other sys (by simp)]
      by_cases negative : (parseData sys.caster outcomes fd buffer).ret < 0
      · have apart := subscribed.parseData_ret sustains negative
        simp only [closedBy, if_pos negative, List.mem_singleton, if_neg apart.1.symm,
          if_neg apart.2.symm]
        exact ⟨subscribed.source_open, subscribed.sink_open⟩
      · simp only [closedBy, if_neg negative, List.not_mem_nil, if_false]
        exact ⟨subscribed.source_open, subscribed.sink_open⟩
  | disconnected leaver =>
      have closed : server ∉ (disconnect sys.caster leaver).2 ∧
          client ∉ (disconnect sys.caster leaver).2 := by
        rcases exists_mentionSplit sys.caster.mountPointInfos leaver with
          absent | ⟨before, info, after, found⟩
        · rw [disconnect_of_notMem absent, List.mem_singleton, List.mem_singleton]
          exact ⟨sustains.1.symm, sustains.2.symm⟩
        · have member : info ∈ sys.caster.mountPointInfos := by
            rw [found.split]
            exact List.mem_append_right before List.mem_cons_self
          by_cases serves : info.serverFd = leaver
          · rw [disconnect_of_server found serves, List.mem_append, List.mem_append,
              List.mem_singleton, List.mem_singleton]
            constructor
            · rintro (inList | same)
              · exact subscribed.server_notMem member inList
              · exact sustains.1 same.symm
            · rintro (inList | same)
              · exact sustains.1 (serves ▸ subscribed.serves_of_lists member inList)
              · exact sustains.2 same.symm
          · rw [disconnect_of_client found serves, List.mem_singleton, List.mem_singleton]
            exact ⟨sustains.1.symm, sustains.2.symm⟩
      rw [owner_step_other sys (by simp), owner_step_other sys (by simp), closedBy,
        if_neg closed.1, if_neg closed.2]
      exact ⟨subscribed.source_open, subscribed.sink_open⟩

/-- What the two of them send leaves the tables alone. -/
theorem tables_of_own {caster : NtripCaster} {event : Event}
    (sustains : Sustains server client event) (own : event.fd = server ∨ event.fd = client) :
    event.tables caster = caster := by
  cases event with
  | accept fresh => rfl
  | disconnected leaver =>
      rcases own with same | same
      · exact absurd same sustains.1
      · exact absurd same sustains.2
  | received fd buffer outcomes =>
      have data : ¬ LooksLikeRequest buffer := by
        rcases own with same | same
        · exact sustains.1 same
        · exact (sustains.2 same).1
      rcases parseData_granted_or caster outcomes fd buffer with ⟨granted, _⟩ | ⟨_, same⟩
      · exact absurd granted (not_granted_of_data ((dispatch_eq_data_iff buffer).mpr data))
      · exact same

/-- The record stays, with its server and the client among its clients. -/
theorem listed_step (subscribed : sys.Subscribed server client source sink) {event : Event}
    (sustains : Sustains server client event) :
    ∃ info ∈ (sys.step event).caster.mountPointInfos,
      info.serverFd = server ∧ client ∈ info.clientSocketList := by
  rw [Event.step_caster]
  by_cases own : event.fd = server ∨ event.fd = client
  · rw [tables_of_own sustains own]
    exact subscribed.listed
  · rw [not_or] at own
    rcases subscribed.listed with ⟨info, member, serves, inList⟩
    rcases evolves_tables sys.caster event with ⟨survivors, fresh, shape, evolves, _⟩
    rcases evolves.survives member (fun same => own.1 (same.symm.trans serves)) with
      ⟨info', survives, updated⟩
    rw [shape]
    refine ⟨info', List.mem_append_left fresh survives, ?_⟩
    cases updated with
    | same => exact ⟨serves, inList⟩
    | joined asked => exact ⟨serves, List.mem_append_left _ inList⟩
    | left listed => exact ⟨serves, (List.mem_erase_of_ne (Ne.symm own.2)).mpr inList⟩

/-- Nobody else can give one of the two descriptors a further role. -/
theorem count_step_le {sys : System} {event : Event} (sustains : Sustains server client event)
    {fd : Fd} (role : fd = server ∨ fd = client) :
    (descriptors (sys.step event).caster.mountPointInfos).count fd ≤
      (descriptors sys.caster.mountPointInfos).count fd := by
  rw [Event.step_caster]
  by_cases own : event.fd = server ∨ event.fd = client
  · rw [tables_of_own sustains own]
  · have apart : event.fd ≠ fd := by
      rintro rfl
      exact own role
    cases event with
    | accept fresh => exact Nat.le_refl _
    | disconnected leaver => exact (descriptors_disconnect_sublist sys.caster leaver).count_le fd
    | received sender buffer outcomes =>
        change (descriptors
          (parseData sys.caster outcomes sender buffer).caster.mountPointInfos).count fd ≤ _
        rcases parseData_granted_or sys.caster outcomes sender buffer with ⟨_, perm⟩ | ⟨_, same⟩
        · rw [perm.count_eq, List.count_cons_of_ne (show sender ≠ fd from apart)]
        · rw [same]

theorem step (subscribed : sys.Subscribed server client source sink) {event : Event}
    (valid : sys.Valid event) (sustains : Sustains server client event) :
    (sys.step event).Subscribed server client source sink := by
  have owners := subscribed.owner_step valid sustains
  have listed := subscribed.listed_step sustains
  have mentioned : ∀ fd, fd = server ∨ fd = client →
      0 < (descriptors (sys.step event).caster.mountPointInfos).count fd := by
    intro fd role
    rcases listed with ⟨info, member, serves, inList⟩
    refine List.count_pos_iff.mpr (mem_descriptors.mpr ⟨info, member, ?_⟩)
    rcases role with same | same
    · exact (info.mem_descriptors fd).mpr (Or.inl (same.trans serves.symm))
    · exact (info.mem_descriptors fd).mpr (Or.inr (same ▸ inList))
  have bound : ∀ fd, fd = server ∨ fd = client →
      (descriptors (sys.step event).caster.mountPointInfos).count fd ≤
        (descriptors sys.caster.mountPointInfos).count fd :=
    fun _ role => count_step_le sustains role
  have serverBound := bound server (Or.inl rfl)
  have clientBound := bound client (Or.inr rfl)
  rw [subscribed.server_once] at serverBound
  rw [subscribed.client_once] at clientBound
  exact ⟨owners.1, owners.2, Nat.le_antisymm serverBound (mentioned server (Or.inl rfl)),
    Nat.le_antisymm clientBound (mentioned client (Or.inr rfl)), listed⟩

/-- Over any run in which the two of them keep to it, the subscription lasts. -/
theorem run (subscribed : sys.Subscribed server client source sink) {events : List Event}
    (valid : Execution.EachStep System.step Valid sys events)
    (sustains : ∀ event ∈ events, Sustains server client event) :
    (Execution.run System.step sys events).Subscribed server client source sink := by
  have preserved : ∀ (state : System) event, state.Subscribed server client source sink →
      state.Valid event ∧ Sustains server client event →
        (state.step event).Subscribed server client source sink :=
    fun _ _ holds steps => holds.step steps.1 steps.2
  exact (Execution.always_of_eachStep preserved subscribed
    (valid.and (Execution.eachStep_of_mem sustains))).last

end Subscribed
end System
end Ntrip
