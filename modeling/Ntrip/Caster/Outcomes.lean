import Ntrip.Caster.Requests

namespace Ntrip

/-!
# What one received buffer can do

`Outcome` lists every way in which `ParseData` can end, with the guards of
each way.  Later results about tables, replies and connections are case
analyses of it and never unfold a handler again.
-/

open Sequence

/-- The buffer is a server's request, and this is what its lines amount to. -/
def PostReads (infos : List MountPointInformation) (buffer : Bytes) (fields : RequestFields)
    (ntripStr : Bytes) : Prop :=
  dispatch buffer = .post ∧ readServerLines infos {} (requestLines buffer) = .ok fields ∧
    readStrLines fields.mountPoint [] (requestLines buffer) = some ntripStr ∧ fields.Complete

/-- The buffer is a client's request, and this is what its lines amount to. -/
def GetReads (buffer : Bytes) (fields : ClientFields) : Prop :=
  dispatch buffer = .get ∧ readClientLines {} (requestLines buffer) = fields ∧ fields.Complete

theorem PostReads.unique {infos : List MountPointInformation} {buffer : Bytes}
    {fields fields' : RequestFields} {ntripStr ntripStr' : Bytes}
    (reads : PostReads infos buffer fields ntripStr)
    (reads' : PostReads infos buffer fields' ntripStr') :
    fields' = fields ∧ ntripStr' = ntripStr := by
  have same : fields' = fields := Except.ok.inj (reads'.2.1.symm.trans reads.2.1)
  subst same
  exact ⟨rfl, Option.some.inj (reads'.2.2.1.symm.trans reads.2.2.1)⟩

theorem GetReads.unique {buffer : Bytes} {fields fields' : ClientFields}
    (reads : GetReads buffer fields) (reads' : GetReads buffer fields') : fields' = fields :=
  reads'.2.1.symm.trans reads.2.1

/-- The records that a client's request may be admitted to. -/
def matchingRecords (infos : List MountPointInformation) (fields : RequestFields) :
    List MountPointInformation :=
  infos.filter (fun info => fields.Matches info)

theorem fields_of_matches {fields other : RequestFields} {info : MountPointInformation}
    (first : fields.Matches info) (second : other.Matches info) : fields = other := by
  rcases fields with ⟨mountPoint, user, passwd⟩
  rcases other with ⟨mountPoint', user', passwd'⟩
  rcases first with ⟨rfl, rfl, rfl⟩
  rcases second with ⟨rfl, rfl, rfl⟩
  rfl

/-- The buffer registers a mount point. -/
def Registers (caster : NtripCaster) (outcomes : SendOutcomes) (buffer : Bytes) : Prop :=
  (∃ fields ntripStr, PostReads caster.mountPointInfos buffer fields ntripStr) ∧ outcomes 0 = true

/-- The buffer admits its sender as a client. -/
def Admits (caster : NtripCaster) (outcomes : SendOutcomes) (buffer : Bytes) : Prop :=
  ∃ fields, GetReads buffer fields ∧
    ∃ index < (matchingRecords caster.mountPointInfos fields.toRequestFields).length,
      outcomes index = true

/-- The buffer is a request that is granted. -/
def Granted (caster : NtripCaster) (outcomes : SendOutcomes) (buffer : Bytes) : Prop :=
  Registers caster outcomes buffer ∨ Admits caster outcomes buffer

/-- The buffer is one that makes the caster drop its sender: a request that
is not granted, or other bytes that neither come from a server nor carry the
marker of a position report. -/
def Refused (caster : NtripCaster) (outcomes : SendOutcomes) (socketFd : Fd) (buffer : Bytes) :
    Prop :=
  match dispatch buffer with
  | .post => ¬ Registers caster outcomes buffer
  | .get => ¬ Admits caster outcomes buffer
  | .unknownVersion => True
  | .data => servedRecord caster.mountPointInfos socketFd = none ∧ mentionsGga buffer = false

/-- The call of `send` carries a success line to the requester. -/
def SendCall.IsSuccess (call : SendCall) : Prop :=
  call.sender ≠ .tryToForwardServerData ∧ call.accepted = true ∧
    (call.message = okLine ∨ call.message = icyLine)

instance (call : SendCall) : Decidable call.IsSuccess :=
  inferInstanceAs (Decidable (_ ∧ _ ∧ _))

/-- The tables after a registration. -/
def NtripCaster.register (caster : NtripCaster) (info : MountPointInformation)
    (ntripStr : Bytes) : NtripCaster where
  mountPointInfos := caster.mountPointInfos ++ [info]
  ntripStrList := caster.ntripStrList ++ [ntripStr]

/-- The tables with another list of records. -/
def NtripCaster.withInfos (caster : NtripCaster) (infos : List MountPointInformation) :
    NtripCaster :=
  { caster with mountPointInfos := infos }

@[simp] theorem NtripCaster.register_mountPointInfos (caster : NtripCaster)
    (info : MountPointInformation) (ntripStr : Bytes) :
    (caster.register info ntripStr).mountPointInfos = caster.mountPointInfos ++ [info] := rfl

@[simp] theorem NtripCaster.register_ntripStrList (caster : NtripCaster)
    (info : MountPointInformation) (ntripStr : Bytes) :
    (caster.register info ntripStr).ntripStrList = caster.ntripStrList ++ [ntripStr] := rfl

@[simp] theorem NtripCaster.withInfos_mountPointInfos (caster : NtripCaster)
    (infos : List MountPointInformation) : (caster.withInfos infos).mountPointInfos = infos := rfl

/-- A reply that a matching record's turn sends to the requester. -/
def clientReplyCall (fields : ClientFields) (socketFd : Fd) (accepted : Bool) : SendCall :=
  ⟨.clientConnectRequest, socketFd, clientReply fields, accepted⟩

/-- The ways in which `ParseData` can end. -/
inductive Outcome (caster : NtripCaster) (outcomes : SendOutcomes) (socketFd : Fd)
    (buffer : Bytes) : Response → Prop
  | registered {fields : RequestFields} {ntripStr : Bytes} :
      PostReads caster.mountPointInfos buffer fields ntripStr →
      outcomes 0 = true →
      Outcome caster outcomes socketFd buffer
        ⟨0, caster.register (fields.toRecord socketFd) ntripStr,
          [⟨.serverConnectRequest, socketFd, okLine, true⟩]⟩
  | admitted {fields : ClientFields} {before after : List MountPointInformation}
      {info : MountPointInformation} {failures : Nat} :
      GetReads buffer fields →
      caster.mountPointInfos = before ++ info :: after →
      fields.toRequestFields.Matches info →
      (matchingRecords before fields.toRequestFields).length = failures →
      (∀ index < failures, outcomes index = false) →
      outcomes failures = true →
      Outcome caster outcomes socketFd buffer
        ⟨0, caster.withInfos (before ++ info.addClient socketFd :: after),
          List.replicate failures (clientReplyCall fields socketFd false) ++
            [clientReplyCall fields socketFd true]⟩
  | forwarded {info : MountPointInformation} :
      dispatch buffer = .data →
      servedRecord caster.mountPointInfos socketFd = some info →
      Outcome caster outcomes socketFd buffer
        ⟨0, caster, forwardTo outcomes buffer info.clientSocketList⟩
  | reported :
      dispatch buffer = .data →
      servedRecord caster.mountPointInfos socketFd = none →
      mentionsGga buffer = true →
      Outcome caster outcomes socketFd buffer ⟨0, caster, []⟩
  | refused {sends : List SendCall} :
      Refused caster outcomes socketFd buffer →
      (∀ call ∈ sends, call.fd = socketFd ∧ ¬ call.IsSuccess) →
      Outcome caster outcomes socketFd buffer ⟨-1, caster, sends⟩

/-! ## The handlers meet the list -/

theorem badPasswordLine_not_success : ¬ (badPasswordLine = okLine ∨ badPasswordLine = icyLine) := by
  decide

theorem unauthorizedLine_not_success :
    ¬ (unauthorizedLine = okLine ∨ unauthorizedLine = icyLine) := by
  decide

theorem serverConnectRequest_outcome (caster : NtripCaster) (outcomes : SendOutcomes)
    (socketFd : Fd) (buffer : Bytes) (post : dispatch buffer = .post) :
    Outcome caster outcomes socketFd buffer
      (serverConnectRequest caster outcomes (requestLines buffer) socketFd) := by
  have refuse : ¬ Registers caster outcomes buffer → ∀ sends : List SendCall,
      (∀ call ∈ sends, call.fd = socketFd ∧ ¬ call.IsSuccess) →
      Outcome caster outcomes socketFd buffer ⟨-1, caster, sends⟩ := by
    intro unregistered sends harmless
    refine .refused ?_ harmless
    rw [Refused, post]
    exact unregistered
  unfold serverConnectRequest
  cases read : readServerLines caster.mountPointInfos {} (requestLines buffer) with
  | error refusal =>
      have unregistered : ¬ Registers caster outcomes buffer := by
        rintro ⟨⟨fields, ntripStr, reads⟩, _⟩
        have contradiction := reads.2.1.symm.trans read
        cases contradiction
      cases refusal with
      | malformed => exact refuse unregistered [] (by simp)
      | mountPointUsed =>
          refine refuse unregistered _ ?_
          intro call member
          rw [List.mem_singleton.mp member]
          refine ⟨rfl, ?_⟩
          exact fun success => badPasswordLine_not_success success.2.2
  | ok fields =>
      have same : ∀ other ntripStr, PostReads caster.mountPointInfos buffer other ntripStr →
          other = fields := by
        intro other ntripStr reads
        exact Except.ok.inj (reads.2.1.symm.trans read)
      cases str : readStrLines fields.mountPoint [] (requestLines buffer) with
      | none =>
          simp only [str]
          refine refuse ?_ [] (by simp)
          rintro ⟨⟨other, ntripStr, reads⟩, _⟩
          have found := reads.2.2.1
          rw [same other ntripStr reads, str] at found
          cases found
      | some ntripStr =>
          by_cases complete : fields.Complete
          · cases taken : outcomes 0 with
            | true =>
                simp only [str, if_pos complete, if_true]
                exact .registered ⟨post, read, str, complete⟩ taken
            | false =>
                simp only [str, if_pos complete, Bool.false_eq_true, if_false]
                refine refuse ?_ _ ?_
                · rintro ⟨_, accepted⟩
                  rw [taken] at accepted
                  cases accepted
                · intro call member
                  rw [List.mem_singleton.mp member]
                  exact ⟨rfl, fun success => by cases success.2.1⟩
          · simp only [str, if_neg complete]
            refine refuse ?_ [] (by simp)
            rintro ⟨⟨other, ntripStr, reads⟩, _⟩
            have whole := reads.2.2.2
            rw [same other ntripStr reads] at whole
            exact complete whole

/-- The walk over the records stops at the first matching record whose reply
is taken; without one it has tried every matching record. -/
theorem admitClient_spec (outcomes : SendOutcomes) (fields : ClientFields) (socketFd : Fd)
    (infos : List MountPointInformation) (count : Nat) :
    (∃ before info after failures, infos = before ++ info :: after ∧
        fields.toRequestFields.Matches info ∧
        (matchingRecords before fields.toRequestFields).length = failures ∧
        (∀ index < failures, outcomes (count + index) = false) ∧
        outcomes (count + failures) = true ∧
        admitClient outcomes fields.toRequestFields (clientReply fields) socketFd count infos =
          (some (before ++ info.addClient socketFd :: after),
            List.replicate failures (clientReplyCall fields socketFd false) ++
              [clientReplyCall fields socketFd true])) ∨
      ((∀ index < (matchingRecords infos fields.toRequestFields).length,
          outcomes (count + index) = false) ∧
        admitClient outcomes fields.toRequestFields (clientReply fields) socketFd count infos =
          (none, List.replicate (matchingRecords infos fields.toRequestFields).length
            (clientReplyCall fields socketFd false))) := by
  induction infos generalizing count with
  | nil => exact Or.inr ⟨by simp [matchingRecords], rfl⟩
  | cons info rest inductionHypothesis =>
      by_cases hit : fields.toRequestFields.Matches info
      · cases taken : outcomes count with
        | true =>
            refine Or.inl ⟨[], info, rest, 0, rfl, hit, rfl, by simp, taken, ?_⟩
            simp [admitClient, hit, taken, clientReplyCall]
        | false =>
            have shift : ∀ index, count + 1 + index = count + (index + 1) := by omega
            rcases inductionHypothesis (count + 1) with
              ⟨before, found, after, failures, split, good, tried, failed, accepted, walk⟩ |
              ⟨failed, walk⟩
            · refine Or.inl ⟨info :: before, found, after, failures + 1, by rw [split]; rfl, good,
                by simpa [matchingRecords, hit] using tried, ?_, by rw [← shift]; exact accepted, ?_⟩
              · intro index bound
                rcases index with _ | index
                · exact taken
                · rw [← shift]
                  exact failed index (by omega)
              · simp [admitClient, hit, taken, walk, clientReplyCall, List.replicate_succ]
            · refine Or.inr ⟨?_, ?_⟩
              · intro index bound
                rcases index with _ | index
                · exact taken
                · rw [← shift]
                  exact failed index (by simpa [matchingRecords, hit] using bound)
              · simp [admitClient, hit, taken, walk, clientReplyCall, matchingRecords,
                  List.replicate_succ]
      · rcases inductionHypothesis count with
          ⟨before, found, after, failures, split, good, tried, failed, accepted, walk⟩ |
          ⟨failed, walk⟩
        · refine Or.inl ⟨info :: before, found, after, failures, by rw [split]; rfl, good,
            by simpa [matchingRecords, hit] using tried, failed, accepted, ?_⟩
          simp [admitClient, hit, walk]
        · refine Or.inr ⟨by simpa [matchingRecords, hit] using failed, ?_⟩
          simp [admitClient, hit, walk, matchingRecords]

theorem clientConnectRequest_outcome (caster : NtripCaster) (outcomes : SendOutcomes)
    (socketFd : Fd) (buffer : Bytes) (get : dispatch buffer = .get) :
    Outcome caster outcomes socketFd buffer
      (clientConnectRequest caster outcomes (requestLines buffer) socketFd) := by
  have refuse : ¬ Admits caster outcomes buffer → ∀ sends : List SendCall,
      (∀ call ∈ sends, call.fd = socketFd ∧ ¬ call.IsSuccess) →
      Outcome caster outcomes socketFd buffer ⟨-1, caster, sends⟩ := by
    intro unadmitted sends harmless
    refine .refused ?_ harmless
    rw [Refused, get]
    exact unadmitted
  have unauthorized : ∀ accepted, ¬ SendCall.IsSuccess
      ⟨.clientConnectRequest, socketFd, unauthorizedLine, accepted⟩ := by
    exact fun accepted success => unauthorizedLine_not_success success.2.2
  unfold clientConnectRequest
  generalize read : readClientLines {} (requestLines buffer) = fields
  by_cases complete : fields.Complete
  · have reads : GetReads buffer fields := ⟨get, read, complete⟩
    rcases admitClient_spec outcomes fields socketFd caster.mountPointInfos 0 with
      ⟨before, info, after, failures, split, good, tried, failed, accepted, walk⟩ | ⟨failed, walk⟩
    · simp only [Nat.zero_add] at failed accepted
      simp only [if_pos complete, walk]
      exact .admitted reads split good tried failed accepted
    · simp only [Nat.zero_add] at failed
      simp only [if_pos complete, walk]
      refine refuse ?_ _ ?_
      · rintro ⟨other, otherReads, index, bound, accepted⟩
        have same : other = fields := otherReads.2.1.symm.trans read
        rw [same] at bound
        rw [failed index bound] at accepted
        cases accepted
      · intro call member
        rcases List.mem_append.mp member with inFailed | inLast
        · rw [List.eq_of_mem_replicate inFailed]
          exact ⟨rfl, fun success => by cases success.2.1⟩
        · rw [List.mem_singleton.mp inLast]
          exact ⟨rfl, unauthorized _⟩
  · simp only [if_neg complete]
    refine refuse ?_ _ ?_
    · rintro ⟨other, otherReads, _⟩
      have same : other = fields := otherReads.2.1.symm.trans read
      exact complete (same ▸ otherReads.2.2)
    · intro call member
      rw [List.mem_singleton.mp member]
      exact ⟨rfl, unauthorized _⟩

/-- Every answer of `ParseData` is on the list. -/
theorem parseData_outcome (caster : NtripCaster) (outcomes : SendOutcomes) (socketFd : Fd)
    (buffer : Bytes) :
    Outcome caster outcomes socketFd buffer (parseData caster outcomes socketFd buffer) := by
  unfold parseData
  cases kind : dispatch buffer with
  | post => exact serverConnectRequest_outcome caster outcomes socketFd buffer kind
  | get => exact clientConnectRequest_outcome caster outcomes socketFd buffer kind
  | unknownVersion => exact .refused (by rw [Refused, kind]; trivial) (by simp)
  | data =>
      unfold tryToForwardServerData
      cases served : servedRecord caster.mountPointInfos socketFd with
      | some info => exact .forwarded kind served
      | none =>
          cases gga : mentionsGga buffer with
          | true => exact .reported kind served gga
          | false =>
              refine .refused ?_ (by simp)
              rw [Refused, kind]
              exact ⟨served, gga⟩

theorem length_matchingRecords_lt {before after : List MountPointInformation}
    {info : MountPointInformation} {fields : RequestFields} (good : fields.Matches info) :
    (matchingRecords before fields).length <
      (matchingRecords (before ++ info :: after) fields).length := by
  rw [matchingRecords, matchingRecords, List.filter_append, List.length_append,
    List.filter_cons_of_pos (by simpa using good), List.length_cons]
  omega

/-- The record reached after failed replies is a matching record in turn. -/
theorem admits_of_split {caster : NtripCaster} {outcomes : SendOutcomes} {buffer : Bytes}
    {fields : ClientFields} {before after : List MountPointInformation}
    {info : MountPointInformation} (reads : GetReads buffer fields)
    (split : caster.mountPointInfos = before ++ info :: after)
    (good : fields.toRequestFields.Matches info)
    (accepted : outcomes (matchingRecords before fields.toRequestFields).length = true) :
    Admits caster outcomes buffer := by
  refine ⟨fields, reads, _, ?_, accepted⟩
  rw [split]
  exact length_matchingRecords_lt good

theorem not_granted_of_data {caster : NtripCaster} {outcomes : SendOutcomes} {buffer : Bytes}
    (data : dispatch buffer = .data) : ¬ Granted caster outcomes buffer := by
  rintro (⟨⟨_, _, reads⟩, _⟩ | ⟨_, reads, _⟩)
  · have contradiction := data.symm.trans reads.1
    cases contradiction
  · have contradiction := data.symm.trans reads.1
    cases contradiction

theorem not_granted_of_refused {caster : NtripCaster} {outcomes : SendOutcomes} {socketFd : Fd}
    {buffer : Bytes} (refusal : Refused caster outcomes socketFd buffer) :
    ¬ Granted caster outcomes buffer := by
  rw [Refused] at refusal
  rintro (registers | admits)
  · rcases registers with ⟨⟨fields, ntripStr, reads⟩, taken⟩
    rw [reads.1] at refusal
    exact refusal ⟨⟨fields, ntripStr, reads⟩, taken⟩
  · rcases admits with ⟨fields, reads, granted⟩
    rw [reads.1] at refusal
    exact refusal ⟨fields, reads, granted⟩

theorem descriptors_addClient_perm (before after : List MountPointInformation)
    (info : MountPointInformation) (fd : Fd) :
    (descriptors (before ++ info.addClient fd :: after)).Perm
      (fd :: descriptors (before ++ info :: after)) := by
  have shape : (info.addClient fd).descriptors = info.descriptors ++ [fd] := rfl
  simp only [descriptors_append, descriptors_cons, shape, List.append_assoc]
  rw [← List.append_assoc, ← List.append_assoc (descriptors before)]
  exact List.perm_middle

theorem descriptors_register_perm (infos : List MountPointInformation)
    (fields : RequestFields) (fd : Fd) :
    (descriptors (infos ++ [fields.toRecord fd])).Perm (fd :: descriptors infos) := by
  have shape : descriptors [fields.toRecord fd] = [fd] := rfl
  rw [descriptors_append, shape]
  exact List.perm_append_singleton fd (descriptors infos)

/-- A granted request puts its sender into the tables once more, and nothing
else changes them. -/
theorem parseData_granted_or (caster : NtripCaster) (outcomes : SendOutcomes) (socketFd : Fd)
    (buffer : Bytes) :
    (Granted caster outcomes buffer ∧
        (descriptors (parseData caster outcomes socketFd buffer).caster.mountPointInfos).Perm
          (socketFd :: descriptors caster.mountPointInfos)) ∨
      (¬ Granted caster outcomes buffer ∧
        (parseData caster outcomes socketFd buffer).caster = caster) := by
  have outcome := parseData_outcome caster outcomes socketFd buffer
  generalize parseData caster outcomes socketFd buffer = response at outcome
  cases outcome with
  | registered reads taken =>
      exact Or.inl ⟨Or.inl ⟨⟨_, _, reads⟩, taken⟩, descriptors_register_perm _ _ socketFd⟩
  | admitted reads split good tried failed accepted =>
      rw [← tried] at accepted
      refine Or.inl ⟨Or.inr (admits_of_split reads split good accepted), ?_⟩
      rw [split]
      exact descriptors_addClient_perm _ _ _ socketFd
  | forwarded kind served => exact Or.inr ⟨not_granted_of_data kind, rfl⟩
  | reported kind served gga => exact Or.inr ⟨not_granted_of_data kind, rfl⟩
  | refused refusal harmless => exact Or.inr ⟨not_granted_of_refused refusal, rfl⟩

theorem refused_of_request {caster : NtripCaster} {outcomes : SendOutcomes} {buffer : Bytes}
    (socketFd : Fd) (request : dispatch buffer ≠ .data)
    (ungranted : ¬ Granted caster outcomes buffer) : Refused caster outcomes socketFd buffer := by
  rw [Refused]
  cases kind : dispatch buffer with
  | post => exact fun registers => ungranted (Or.inl registers)
  | get => exact fun admits => ungranted (Or.inr admits)
  | unknownVersion => trivial
  | data => exact absurd kind request

/-- The caster drops the sender exactly on the refused buffers. -/
theorem parseData_ret_neg_iff (caster : NtripCaster) (outcomes : SendOutcomes) (socketFd : Fd)
    (buffer : Bytes) :
    (parseData caster outcomes socketFd buffer).ret < 0 ↔
      Refused caster outcomes socketFd buffer := by
  have outcome := parseData_outcome caster outcomes socketFd buffer
  generalize parseData caster outcomes socketFd buffer = response at outcome
  cases outcome with
  | registered reads taken =>
      exact iff_of_false (Int.lt_irrefl 0)
        (fun refusal => not_granted_of_refused refusal (Or.inl ⟨⟨_, _, reads⟩, taken⟩))
  | admitted reads split good tried failed accepted =>
      rw [← tried] at accepted
      exact iff_of_false (Int.lt_irrefl 0) (fun refusal =>
        not_granted_of_refused refusal (Or.inr (admits_of_split reads split good accepted)))
  | forwarded kind served =>
      refine iff_of_false (Int.lt_irrefl 0) ?_
      rw [Refused, kind]
      rintro ⟨unserved, _⟩
      rw [served] at unserved
      cases unserved
  | reported kind served gga =>
      refine iff_of_false (Int.lt_irrefl 0) ?_
      rw [Refused, kind]
      rintro ⟨_, unmarked⟩
      rw [gga] at unmarked
      cases unmarked
  | refused refusal harmless => exact iff_of_true (Int.negSucc_lt_zero 0) refusal

/-- Anything else that `ParseData` returns is zero. -/
theorem parseData_ret_eq_zero_iff (caster : NtripCaster) (outcomes : SendOutcomes)
    (socketFd : Fd) (buffer : Bytes) :
    (parseData caster outcomes socketFd buffer).ret = 0 ↔
      ¬ Refused caster outcomes socketFd buffer := by
  rw [← parseData_ret_neg_iff]
  have outcome := parseData_outcome caster outcomes socketFd buffer
  generalize parseData caster outcomes socketFd buffer = response at outcome
  cases outcome with
  | registered reads taken => simp
  | admitted reads split good tried failed accepted => simp
  | forwarded kind served => simp
  | reported kind served gga => simp
  | refused refusal harmless => simp

/-- An accepted `POST` registers what its lines amount to. -/
theorem parseData_of_post {caster : NtripCaster} {outcomes : SendOutcomes} {socketFd : Fd}
    {buffer : Bytes} (post : dispatch buffer = .post)
    (accepted : (parseData caster outcomes socketFd buffer).ret = 0) :
    ∃ fields ntripStr, PostReads caster.mountPointInfos buffer fields ntripStr ∧
      (parseData caster outcomes socketFd buffer).caster =
        caster.register (fields.toRecord socketFd) ntripStr := by
  have outcome := parseData_outcome caster outcomes socketFd buffer
  generalize parseData caster outcomes socketFd buffer = response at outcome accepted
  cases outcome with
  | registered reads taken => exact ⟨_, _, reads, rfl⟩
  | admitted reads split good tried failed taken => exact absurd (post.symm.trans reads.1) (by simp)
  | forwarded kind served => exact absurd (post.symm.trans kind) (by simp)
  | reported kind served gga => exact absurd (post.symm.trans kind) (by simp)
  | refused refusal harmless => exact absurd accepted (by simp)

/-- An accepted `GET` puts its sender into the record that it names for which a
reply is taken first. -/
theorem parseData_of_get {caster : NtripCaster} {outcomes : SendOutcomes} {socketFd : Fd}
    {buffer : Bytes} (get : dispatch buffer = .get)
    (accepted : (parseData caster outcomes socketFd buffer).ret = 0) :
    ∃ fields before info after, GetReads buffer fields ∧
      caster.mountPointInfos = before ++ info :: after ∧ fields.toRequestFields.Matches info ∧
      (∀ index < (matchingRecords before fields.toRequestFields).length,
        outcomes index = false) ∧
      outcomes (matchingRecords before fields.toRequestFields).length = true ∧
      (parseData caster outcomes socketFd buffer).caster =
        caster.withInfos (before ++ info.addClient socketFd :: after) := by
  have outcome := parseData_outcome caster outcomes socketFd buffer
  generalize parseData caster outcomes socketFd buffer = response at outcome accepted
  cases outcome with
  | registered reads taken => exact absurd (get.symm.trans reads.1) (by simp)
  | admitted reads split good tried failed taken =>
      exact ⟨_, _, _, _, reads, split, good, tried ▸ failed, tried ▸ taken, rfl⟩
  | forwarded kind served => exact absurd (get.symm.trans kind) (by simp)
  | reported kind served gga => exact absurd (get.symm.trans kind) (by simp)
  | refused refusal harmless => exact absurd accepted (by simp)

/-- A refusal leaves the tables alone. -/
theorem parseData_of_neg {caster : NtripCaster} {outcomes : SendOutcomes} {socketFd : Fd}
    {buffer : Bytes} (negative : (parseData caster outcomes socketFd buffer).ret < 0) :
    (parseData caster outcomes socketFd buffer).caster = caster := by
  have refusal := (parseData_ret_neg_iff caster outcomes socketFd buffer).mp negative
  rcases parseData_granted_or caster outcomes socketFd buffer with ⟨granted, _⟩ | ⟨_, same⟩
  · exact absurd granted (not_granted_of_refused refusal)
  · exact same

end Ntrip
