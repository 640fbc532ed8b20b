import Ntrip.Caster.Forwarding
import Ntrip.Caster.Isolation
import Ntrip.Caster.Replies
import Ntrip.Caster.RoleOwnership

namespace Ntrip

/-!
# What the sender of a buffer is told

A request is answered with at most one line that is taken: a success line
when it is granted, a line of refusal or nothing when it is not.  Together
with the ownership of roles this makes the first line that a connection
gets an honest account of what the caster has done for it.
-/

/-- The bytes of the calls of `send` that a descriptor's peer gets. -/
def answer (sends : List SendCall) (fd : Fd) : Bytes :=
  (((sends.filter fun call => call.fd = fd).filter fun call => call.accepted).map
    SendCall.message).flatten

/-- The lines that refuse a request. -/
def refusalLines : List Bytes :=
  [badPasswordLine, unauthorizedLine]

theorem answer_append (left right : List SendCall) (fd : Fd) :
    answer (left ++ right) fd = answer left fd ++ answer right fd := by
  simp [answer]

theorem answer_eq_nil {sends : List SendCall} {fd : Fd}
    (none : ∀ call ∈ sends, call.fd = fd → call.accepted = false) : answer sends fd = [] := by
  have empty : (sends.filter fun call => call.fd = fd).filter (fun call => call.accepted) = [] := by
    apply List.filter_eq_nil_iff.mpr
    intro call member accepted
    rcases List.mem_filter.mp member with ⟨made, receiver⟩
    rw [none call made (by simpa using receiver)] at accepted
    cases accepted
  rw [answer, empty]
  rfl

theorem answer_of_accepted {sends : List SendCall} {fd : Fd}
    (all : ∀ call ∈ sends, call.fd = fd → call.accepted = true) :
    answer sends fd = ((sends.filter fun call => call.fd = fd).map SendCall.message).flatten := by
  rw [answer, List.filter_eq_self.mpr]
  intro call member
  rcases List.mem_filter.mp member with ⟨made, receiver⟩
  exact all call made (by simpa using receiver)

/-- At most one message comes through, when all but one call is in vain. -/
theorem answer_of_single {sends : List SendCall} {fd : Fd} {lines : List Bytes}
    (few : (sends.filter fun call => call.accepted).length ≤ 1)
    (known : ∀ call ∈ sends, call.accepted = true → call.message ∈ lines) :
    answer sends fd = [] ∨ answer sends fd ∈ lines := by
  have swap : answer sends fd = (((sends.filter fun call => call.accepted).filter
      fun call => call.fd = fd).map SendCall.message).flatten := by
    rw [answer, List.filter_filter, List.filter_filter]
    simp only [Bool.and_comm]
  rw [swap]
  cases accepted : sends.filter fun call => call.accepted with
  | nil => exact Or.inl rfl
  | cons call rest =>
      rw [accepted, List.length_cons] at few
      have alone : rest = [] := List.length_eq_zero_iff.mp (by omega)
      have member : call ∈ sends ∧ call.accepted = true :=
        List.mem_filter.mp (accepted ▸ List.mem_cons_self)
      by_cases receiver : call.fd = fd
      · refine Or.inr ?_
        simpa [alone, receiver] using known call member.1 member.2
      · exact Or.inl (by simp [alone, receiver])

/-! ## Refusals -/

theorem serverConnectRequest_sends_length (caster : NtripCaster) (outcomes : SendOutcomes)
    (lines : List Bytes) (fd : Fd) :
    (serverConnectRequest caster outcomes lines fd).sends.length ≤ 1 := by
  unfold serverConnectRequest
  split
  · exact Nat.zero_le 1
  · exact Nat.le_refl 1
  · split
    · exact Nat.zero_le 1
    · split_ifs <;> simp

/-- Behind the replies that announce an admission comes at most one more. -/
theorem clientConnectRequest_shape (caster : NtripCaster) (outcomes : SendOutcomes)
    (lines : List Bytes) (fd : Fd) :
    ∃ replies last, (clientConnectRequest caster outcomes lines fd).sends = replies ++ last ∧
      last.length ≤ 1 ∧ ∀ call ∈ replies, call.sender ≠ .tryToForwardServerData ∧
        (call.message = okLine ∨ call.message = icyLine) := by
  have walked : ∀ fields : ClientFields, ∀ call ∈
      (if fields.Complete then
        admitClient outcomes fields.toRequestFields (clientReply fields) fd 0
          caster.mountPointInfos
        else (none, [])).2, call.sender ≠ .tryToForwardServerData ∧
          (call.message = okLine ∨ call.message = icyLine) := by
    intro fields call member
    split at member
    · rcases admitClient_sends _ _ _ _ _ _ call member with ⟨sender, _, message⟩
      exact ⟨by rw [sender]; simp, message ▸ clientReply_eq fields⟩
    · cases member
  unfold clientConnectRequest
  dsimp only
  split
  · exact ⟨_, [], (List.append_nil _).symm, Nat.zero_le 1, walked _⟩
  · exact ⟨_, _, rfl, Nat.le_refl 1, walked _⟩

/-- A reply that is taken and does not announce a success refuses. -/
theorem mem_refusalLines {call : SendCall} {fd : Fd} (reply : call.IsReply fd)
    (accepted : call.accepted = true) (harmless : ¬ call.IsSuccess) :
    call.message ∈ refusalLines := by
  have other : ¬ (call.message = okLine ∨ call.message = icyLine) :=
    fun success => harmless ⟨reply.1, accepted, success⟩
  have known := reply.2.2
  simp only [replyLines, List.mem_cons, List.not_mem_nil, or_false] at known
  rcases known with ok | icy | bad | unauthorized
  · exact absurd (Or.inl ok) other
  · exact absurd (Or.inr icy) other
  · exact bad ▸ List.mem_cons_self
  · exact unauthorized ▸ List.mem_cons_of_mem _ List.mem_cons_self

theorem parseData_refused_harmless {caster : NtripCaster} {outcomes : SendOutcomes} {fd : Fd}
    {buffer : Bytes} (refusal : Refused caster outcomes fd buffer) :
    ∀ call ∈ (parseData caster outcomes fd buffer).sends, ¬ call.IsSuccess := by
  have outcome := parseData_outcome caster outcomes fd buffer
  have negative := (parseData_ret_neg_iff caster outcomes fd buffer).mpr refusal
  generalize parseData caster outcomes fd buffer = response at outcome negative
  cases outcome with
  | registered reads taken => exact absurd negative (Int.lt_irrefl 0)
  | admitted reads split good tried failed accepted => exact absurd negative (Int.lt_irrefl 0)
  | forwarded kind served => exact absurd negative (Int.lt_irrefl 0)
  | reported kind served gga => exact absurd negative (Int.lt_irrefl 0)
  | refused refusal harmless => exact fun call member => (harmless call member).2

/-- A refused buffer is answered with a line of refusal or with nothing. -/
theorem answer_refused {caster : NtripCaster} {outcomes : SendOutcomes} {fd : Fd} {buffer : Bytes}
    (refusal : Refused caster outcomes fd buffer) :
    answer (parseData caster outcomes fd buffer).sends fd = [] ∨
      answer (parseData caster outcomes fd buffer).sends fd ∈ refusalLines := by
  have harmless := parseData_refused_harmless refusal
  unfold parseData at harmless ⊢
  rw [Refused] at refusal
  cases kind : dispatch buffer with
  | post =>
      simp only [kind] at harmless ⊢
      apply answer_of_single
      · exact Nat.le_trans (List.length_filter_le _ _)
          (serverConnectRequest_sends_length caster outcomes _ fd)
      · intro call member accepted
        exact mem_refusalLines (serverConnectRequest_sends caster outcomes _ fd call member)
          accepted (harmless call member)
  | get =>
      simp only [kind] at harmless ⊢
      apply answer_of_single
      · rcases clientConnectRequest_shape caster outcomes (requestLines buffer) fd with
          ⟨replies, last, shape, short, success⟩
        rw [shape] at harmless ⊢
        have vain : (replies.filter fun call => call.accepted) = [] := by
          apply List.filter_eq_nil_iff.mpr
          intro call member accepted
          have announced := success call member
          exact harmless call (List.mem_append_left last member)
            ⟨announced.1, accepted, announced.2⟩
        rw [List.filter_append, vain, List.nil_append]
        exact Nat.le_trans (List.length_filter_le _ _) short
      · intro call member accepted
        exact mem_refusalLines (clientConnectRequest_sends caster outcomes _ fd call member)
          accepted (harmless call member)
  | unknownVersion => exact Or.inl rfl
  | data =>
      rw [kind] at refusal
      refine Or.inl (answer_eq_nil ?_)
      simp [tryToForwardServerData, refusal.1, refusal.2]

/-- A granted request is answered with a success line. -/
theorem answer_granted {caster : NtripCaster} {outcomes : SendOutcomes} {fd : Fd} {buffer : Bytes}
    (granted : Granted caster outcomes buffer) :
    answer (parseData caster outcomes fd buffer).sends fd = okLine ∨
      answer (parseData caster outcomes fd buffer).sends fd = icyLine := by
  have outcome := parseData_outcome caster outcomes fd buffer
  generalize parseData caster outcomes fd buffer = response at outcome
  cases outcome with
  | registered reads taken => exact Or.inl (by simp [answer])
  | admitted reads split good tried failed accepted =>
      rename_i fields before after info failures
      have vain : answer (List.replicate failures (clientReplyCall fields fd false)) fd = [] := by
        apply answer_eq_nil
        intro call member _
        rw [List.eq_of_mem_replicate member]
        rfl
      rw [answer_append, vain, List.nil_append]
      have line : answer [clientReplyCall fields fd true] fd = clientReply fields := by
        simp [answer, clientReplyCall]
      rw [line]
      exact clientReply_eq fields
  | forwarded kind served => exact absurd granted (not_granted_of_data kind)
  | reported kind served gga => exact absurd granted (not_granted_of_data kind)
  | refused refusal harmless => exact absurd granted (not_granted_of_refused refusal)

/-- The requests that `ParseData` accepts are the ones it grants. -/
theorem accepted_request_iff (caster : NtripCaster) (outcomes : SendOutcomes) (fd : Fd)
    (buffer : Bytes) :
    (parseData caster outcomes fd buffer).ret = 0 ∧ LooksLikeRequest buffer ↔
      Granted caster outcomes buffer := by
  rw [parseData_ret_eq_zero_iff]
  constructor
  · rintro ⟨kept, request⟩
    by_contra ungranted
    refine kept (refused_of_request fd ?_ ungranted)
    exact fun data => (dispatch_eq_data_iff buffer).mp data request
  · intro granted
    refine ⟨fun refusal => not_granted_of_refused refusal granted, ?_⟩
    by_contra data
    exact not_granted_of_data ((dispatch_eq_data_iff buffer).mpr data) granted

/-- A request is answered to its sender alone. -/
theorem sends_of_request {caster : NtripCaster} {outcomes : SendOutcomes} {fd : Fd}
    {buffer : Bytes} (request : dispatch buffer ≠ .data) :
    ∀ call ∈ (parseData caster outcomes fd buffer).sends, call.IsReply fd := by
  intro call made
  unfold parseData at made
  cases kind : dispatch buffer with
  | post =>
      simp only [kind] at made
      exact serverConnectRequest_sends caster outcomes _ fd call made
  | get =>
      simp only [kind] at made
      exact clientConnectRequest_sends caster outcomes _ fd call made
  | unknownVersion =>
      simp only [kind] at made
      cases made
  | data => exact absurd kind request

/-- A call of `send` passes the buffer itself on to a client of its sender, or
is a fixed line for the sender. -/
theorem sends_messages (caster : NtripCaster) (outcomes : SendOutcomes) (fd : Fd)
    (buffer : Bytes) :
    ∀ call ∈ (parseData caster outcomes fd buffer).sends,
      (call.message = buffer ∧ ∃ info ∈ caster.mountPointInfos, info.serverFd = fd ∧
        call.fd ∈ info.clientSocketList) ∨ call.IsReply fd := by
  intro call made
  rcases sends_cases caster (.received fd buffer outcomes) call made with
    ⟨info, member, serves, listed⟩ | reply
  · by_cases request : dispatch buffer = .data
    · refine Or.inl ⟨?_, info, member, serves, listed⟩
      simp only [parseData, request] at made
      have forwarded : call ∈ (tryToForwardServerData caster outcomes fd buffer).sends := by
        split at made <;> exact made
      unfold tryToForwardServerData at forwarded
      cases served : servedRecord caster.mountPointInfos fd with
      | none =>
          rw [served] at forwarded
          cases forwarded
      | some first =>
          rw [served] at forwarded
          rcases List.mem_mapIdx.mp forwarded with ⟨index, bound, rfl⟩
          rfl
    · exact Or.inr (sends_of_request request call made)
  · exact Or.inr reply

end Ntrip
