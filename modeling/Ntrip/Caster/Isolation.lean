import Ntrip.Caster.ThreadHandler

namespace Ntrip

/-!
# Isolation of mount points

`Evolves` says what one event on a descriptor may do to the records of the
table: a record that the descriptor serves may go, a record that lists it may
lose it, and a record may get it as a new last client when the event is a
request for that record.  Records that do not mention the descriptor keep
their place among those that stay.
-/

/-- What becomes of a record that stays. -/
inductive Updated (fd : Fd) (asks : MountPointInformation → Prop) (info : MountPointInformation) :
    MountPointInformation → Prop
  | same : Updated fd asks info info
  | joined : asks info → Updated fd asks info (info.addClient fd)
  | left : fd ∈ info.clientSocketList → Updated fd asks info (info.eraseClient fd)

/-- What becomes of a list of records. -/
inductive Evolves (fd : Fd) (asks : MountPointInformation → Prop) :
    List MountPointInformation → List MountPointInformation → Prop
  | nil : Evolves fd asks [] []
  | keep {info info' : MountPointInformation} {rest rest' : List MountPointInformation} :
      Updated fd asks info info' → Evolves fd asks rest rest' →
        Evolves fd asks (info :: rest) (info' :: rest')
  | leave {info : MountPointInformation} {rest rest' : List MountPointInformation} :
      info.serverFd = fd → Evolves fd asks rest rest' → Evolves fd asks (info :: rest) rest'

section Evolution

variable {fd : Fd} {asks : MountPointInformation → Prop}

theorem Updated.of_notMem {info info' : MountPointInformation} (updated : Updated fd asks info info')
    (absent : fd ∉ info.descriptors) :
    info' = info ∨ (info' = info.addClient fd ∧ asks info) := by
  cases updated with
  | same => exact Or.inl rfl
  | joined asked => exact Or.inr ⟨rfl, asked⟩
  | left listed => exact absurd ((info.mem_descriptors fd).mpr (Or.inr listed)) absent

theorem Updated.mountpoint {info info' : MountPointInformation}
    (updated : Updated fd asks info info') : info'.mountpoint = info.mountpoint := by
  cases updated <;> rfl

theorem Updated.mem_descriptors {info info' : MountPointInformation} {other : Fd}
    (updated : Updated fd asks info info') (different : other ≠ fd)
    (mentions : other ∈ info'.descriptors) : other ∈ info.descriptors := by
  cases updated with
  | same => exact mentions
  | joined asked =>
      have parts : other ∈ info.descriptors ++ [fd] := mentions
      exact (List.mem_append.mp parts).resolve_right fun last =>
        different (List.mem_singleton.mp last)
  | left listed =>
      rcases ((info.eraseClient fd).mem_descriptors other).mp mentions with serves | remains
      · exact (info.mem_descriptors other).mpr (Or.inl serves)
      · exact (info.mem_descriptors other).mpr (Or.inr (List.mem_of_mem_erase remains))

/-- Every record that stays was there before. -/
theorem Evolves.mem {infos infos' : List MountPointInformation} {info' : MountPointInformation}
    (evolves : Evolves fd asks infos infos') (member : info' ∈ infos') :
    ∃ info ∈ infos, Updated fd asks info info' := by
  induction evolves with
  | nil => cases member
  | keep updated later inductionHypothesis =>
      rcases List.mem_cons.mp member with rfl | inRest
      · exact ⟨_, List.mem_cons_self, updated⟩
      · rcases inductionHypothesis inRest with ⟨info, listed, changed⟩
        exact ⟨info, List.mem_cons_of_mem _ listed, changed⟩
  | leave serves later inductionHypothesis =>
      rcases inductionHypothesis member with ⟨info, listed, changed⟩
      exact ⟨info, List.mem_cons_of_mem _ listed, changed⟩

theorem Evolves.refl (infos : List MountPointInformation) : Evolves fd asks infos infos := by
  induction infos with
  | nil => exact .nil
  | cons info rest inductionHypothesis => exact .keep .same inductionHypothesis

theorem Evolves.append_left {rest rest' : List MountPointInformation}
    (evolves : Evolves fd asks rest rest') (before : List MountPointInformation) :
    Evolves fd asks (before ++ rest) (before ++ rest') := by
  induction before with
  | nil => exact evolves
  | cons info tail inductionHypothesis => exact .keep .same inductionHypothesis

/-- A record that does not mention the descriptor stays between the same
others. -/
theorem Evolves.split {before after infos' : List MountPointInformation}
    {info : MountPointInformation} (evolves : Evolves fd asks (before ++ info :: after) infos')
    (absent : fd ∉ info.descriptors) :
    ∃ before' info' after', infos' = before' ++ info' :: after' ∧
      Evolves fd asks before before' ∧ Evolves fd asks after after' ∧
      (info' = info ∨ (info' = info.addClient fd ∧ asks info)) := by
  induction before generalizing infos' with
  | nil =>
      cases evolves with
      | @keep _ info' _ rest' updated later =>
          exact ⟨[], info', rest', rfl, .nil, later, updated.of_notMem absent⟩
      | leave serves later =>
          exact absurd ((info.mem_descriptors fd).mpr (Or.inl serves.symm)) absent
  | cons head tail inductionHypothesis =>
      cases evolves with
      | @keep _ head' _ rest' updated later =>
          rcases inductionHypothesis later with ⟨before', info', after', rfl, front, back, kept⟩
          exact ⟨head' :: before', info', after', rfl, .keep updated front, back, kept⟩
      | leave serves later =>
          rcases inductionHypothesis later with ⟨before', info', after', rfl, front, back, kept⟩
          exact ⟨before', info', after', rfl, .leave serves front, back, kept⟩

end Evolution

/-! ## Events on the tables -/

namespace Event

/-- The descriptor that an event is about. -/
def fd : Event → Fd
  | .accept fd => fd
  | .received fd _ _ => fd
  | .disconnected fd => fd

/-- The tables after an event. -/
def tables (caster : NtripCaster) : Event → NtripCaster
  | .accept _ => caster
  | .received fd buffer outcomes => (parseData caster outcomes fd buffer).caster
  | .disconnected fd => (disconnect caster fd).1

/-- The calls of `send` that an event causes. -/
def sends (caster : NtripCaster) : Event → List SendCall
  | .received fd buffer outcomes => (parseData caster outcomes fd buffer).sends
  | _ => []

/-- The event is a client's request for the record, with its account. -/
def Asks : Event → MountPointInformation → Prop
  | .received _ buffer _, info =>
      ∃ fields, GetReads buffer fields ∧ fields.toRequestFields.Matches info
  | _, _ => False

theorem step_caster (sys : System) (event : Event) :
    (sys.step event).caster = event.tables sys.caster := by
  cases event <;> rfl

end Event

theorem evolves_disconnect (caster : NtripCaster) (fd : Fd)
    (asks : MountPointInformation → Prop) :
    Evolves fd asks caster.mountPointInfos (disconnect caster fd).1.mountPointInfos := by
  rcases exists_mentionSplit caster.mountPointInfos fd with absent | ⟨before, info, after, found⟩
  · rw [disconnect_of_notMem absent]
    exact .refl _
  · by_cases serves : info.serverFd = fd
    · rw [disconnect_of_server found serves, found.split]
      exact Evolves.append_left (.leave serves (.refl after)) before
    · have listed : fd ∈ info.clientSocketList := by
        rcases (info.mem_descriptors fd).mp found.mentioned with same | listed
        · exact absurd same.symm serves
        · exact listed
      rw [disconnect_of_client found serves, found.split]
      exact Evolves.append_left (.keep (.left listed) (.refl after)) before

/-- An event changes the records as `Evolves` allows, and a record that it
adds mentions its descriptor only. -/
theorem evolves_tables (caster : NtripCaster) (event : Event) :
    ∃ survivors fresh, (event.tables caster).mountPointInfos = survivors ++ fresh ∧
      Evolves event.fd event.Asks caster.mountPointInfos survivors ∧
      ∀ record ∈ fresh, record.descriptors = [event.fd] := by
  have unchanged : (event.tables caster).mountPointInfos = caster.mountPointInfos →
      ∃ survivors fresh, (event.tables caster).mountPointInfos = survivors ++ fresh ∧
        Evolves event.fd event.Asks caster.mountPointInfos survivors ∧
        ∀ record ∈ fresh, record.descriptors = [event.fd] := by
    intro same
    exact ⟨caster.mountPointInfos, [], by rw [same, List.append_nil], .refl _, by simp⟩
  cases event with
  | accept fd => exact unchanged rfl
  | disconnected fd =>
      exact ⟨_, [], (List.append_nil _).symm, evolves_disconnect caster fd _, by simp⟩
  | received fd buffer outcomes =>
      have outcome := parseData_outcome caster outcomes fd buffer
      have tables : Event.tables caster (.received fd buffer outcomes) =
          (parseData caster outcomes fd buffer).caster := rfl
      rw [tables] at unchanged ⊢
      generalize parseData caster outcomes fd buffer = response at outcome unchanged
      cases outcome with
      | registered reads taken =>
          rename_i fields ntripStr
          refine ⟨caster.mountPointInfos, [fields.toRecord fd], rfl, .refl _, ?_⟩
          intro record member
          rw [List.mem_singleton.mp member]
          rfl
      | admitted reads split good tried failed accepted =>
          refine ⟨_, [], (List.append_nil _).symm, ?_, by simp⟩
          rw [split]
          exact Evolves.append_left (.keep (.joined ⟨_, reads, good⟩) (.refl _)) _
      | forwarded kind served => exact unchanged rfl
      | reported kind served gga => exact unchanged rfl
      | refused refusal harmless => exact unchanged rfl

/-! ## Where bytes go -/

/-- The texts that the request handlers send. -/
def replyLines : List Bytes :=
  [okLine, icyLine, badPasswordLine, unauthorizedLine]

/-- The call of `send` is a fixed line for the requester. -/
def SendCall.IsReply (call : SendCall) (fd : Fd) : Prop :=
  call.sender ≠ .tryToForwardServerData ∧ call.fd = fd ∧ call.message ∈ replyLines

theorem serverConnectRequest_sends (caster : NtripCaster) (outcomes : SendOutcomes)
    (lines : List Bytes) (fd : Fd) :
    ∀ call ∈ (serverConnectRequest caster outcomes lines fd).sends, call.IsReply fd := by
  intro call member
  unfold serverConnectRequest at member
  split at member
  · cases member
  · rw [List.mem_singleton.mp member]
    exact ⟨by simp, rfl, by simp [replyLines]⟩
  · split at member
    · cases member
    · have only : call = ⟨.serverConnectRequest, fd, okLine, outcomes 0⟩ := by
        split_ifs at member
        · exact List.mem_singleton.mp member
        · exact List.mem_singleton.mp member
        · cases member
      rw [only]
      exact ⟨by simp, rfl, by simp [replyLines]⟩

theorem admitClient_sends (outcomes : SendOutcomes) (fields : RequestFields) (response : Bytes)
    (fd : Fd) (infos : List MountPointInformation) (count : Nat) :
    ∀ call ∈ (admitClient outcomes fields response fd count infos).2,
      call.sender = .clientConnectRequest ∧ call.fd = fd ∧ call.message = response := by
  induction infos generalizing count with
  | nil => simp [admitClient]
  | cons info rest inductionHypothesis =>
      intro call member
      unfold admitClient at member
      split at member
      · split at member
        · rw [List.mem_singleton.mp member]
          exact ⟨rfl, rfl, rfl⟩
        · rcases List.mem_cons.mp member with first | later
          · rw [first]
            exact ⟨rfl, rfl, rfl⟩
          · exact inductionHypothesis (count + 1) call later
      · exact inductionHypothesis count call member

theorem clientConnectRequest_sends (caster : NtripCaster) (outcomes : SendOutcomes)
    (lines : List Bytes) (fd : Fd) :
    ∀ call ∈ (clientConnectRequest caster outcomes lines fd).sends, call.IsReply fd := by
  have version : ∀ fields, clientReply fields ∈ replyLines := by
    intro fields
    unfold clientReply replyLines
    split <;> simp
  have walked : ∀ fields : ClientFields, ∀ call ∈
      (if fields.Complete then
        admitClient outcomes fields.toRequestFields (clientReply fields) fd 0
          caster.mountPointInfos
        else (none, [])).2, call.IsReply fd := by
    intro fields call member
    split at member
    · rcases admitClient_sends _ _ _ _ _ _ call member with ⟨sender, receiver, message⟩
      exact ⟨by rw [sender]; simp, receiver, message ▸ version fields⟩
    · cases member
  intro call member
  unfold clientConnectRequest at member
  dsimp only at member
  split at member
  · exact walked _ call member
  · rcases List.mem_append.mp member with tried | last
    · exact walked _ call tried
    · rw [List.mem_singleton.mp last]
      exact ⟨by simp, rfl, by simp [replyLines]⟩

/-- A send either passes bytes on to a client of a record that the descriptor
serves or is a reply to the descriptor itself. -/
theorem sends_cases (caster : NtripCaster) (event : Event) :
    ∀ call ∈ event.sends caster,
      (∃ info ∈ caster.mountPointInfos, info.serverFd = event.fd ∧
        call.fd ∈ info.clientSocketList) ∨ call.IsReply event.fd := by
  intro call member
  cases event with
  | accept fd => cases member
  | disconnected fd => cases member
  | received fd buffer outcomes =>
      change call ∈ (parseData caster outcomes fd buffer).sends at member
      unfold parseData at member
      cases kind : dispatch buffer with
      | post =>
          simp only [kind] at member
          exact Or.inr (serverConnectRequest_sends caster outcomes _ fd call member)
      | get =>
          simp only [kind] at member
          exact Or.inr (clientConnectRequest_sends caster outcomes _ fd call member)
      | unknownVersion =>
          simp only [kind] at member
          cases member
      | data =>
          simp only [kind] at member
          have forwarded : call ∈ (tryToForwardServerData caster outcomes fd buffer).sends := by
            split at member <;> exact member
          unfold tryToForwardServerData at forwarded
          cases served : servedRecord caster.mountPointInfos fd with
          | none =>
              rw [served] at forwarded
              cases forwarded
          | some info =>
              rw [served] at forwarded
              rcases List.mem_mapIdx.mp forwarded with ⟨index, bound, rfl⟩
              refine Or.inl ⟨info, List.mem_of_find?_eq_some served, ?_, List.getElem_mem bound⟩
              change info.serverFd = fd
              simpa using List.find?_some served

/-- An event on a descriptor leaves every record that does not mention it in
its place, the same but for one possible new last client, the descriptor
itself, whose request named the record and its account; and the bytes it
carries go only to clients of records that the descriptor serves. -/
theorem mount_point_isolation (caster : NtripCaster) (event : Event) :
    (∀ before info after, caster.mountPointInfos = before ++ info :: after →
      event.fd ∉ info.descriptors →
      ∃ before' info' after' fresh,
        (event.tables caster).mountPointInfos = before' ++ info' :: (after' ++ fresh) ∧
        Evolves event.fd event.Asks before before' ∧ Evolves event.fd event.Asks after after' ∧
        (∀ record ∈ fresh, record.descriptors = [event.fd]) ∧
        (info' = info ∨ (info' = info.addClient event.fd ∧ event.Asks info))) ∧
      ∀ call ∈ event.sends caster,
        (∃ info ∈ caster.mountPointInfos, info.serverFd = event.fd ∧
          call.fd ∈ info.clientSocketList) ∨ call.IsReply event.fd := by
  refine ⟨?_, sends_cases caster event⟩
  intro before info after split absent
  rcases evolves_tables caster event with ⟨survivors, fresh, shape, evolves, added⟩
  rw [split] at evolves
  rcases evolves.split absent with ⟨before', info', after', rfl, front, back, kept⟩
  refine ⟨before', info', after', fresh, ?_, front, back, added, kept⟩
  rw [shape, List.append_assoc, List.cons_append]

end Ntrip
