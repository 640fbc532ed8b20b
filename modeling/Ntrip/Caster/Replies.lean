import Ntrip.Caster.Outcomes

namespace Ntrip

/-!
# Replies and tables agree

The handlers send in the middle of an update, so a reply and the change it
announces can come apart in principle.  They do not: a success line reaches
the requester exactly when its record or its client entry is in the tables,
and a negative return value means that the tables are the old ones.
-/

/-- The success lines that the request handlers delivered, and to whom. -/
def deliveredSuccess (sends : List SendCall) : List (Fd × Bytes) :=
  (sends.filter (fun call => call.IsSuccess)).map fun call => (call.fd, call.message)

/-- One record without clients and one source-table string are new, and the
sender has the 200 line. -/
def NewRecord (caster : NtripCaster) (socketFd : Fd) (response : Response) : Prop :=
  ∃ name user password ntripStr,
    response.caster = caster.register ⟨socketFd, name, user, password, []⟩ ntripStr ∧
      deliveredSuccess response.sends = [(socketFd, okLine)]

/-- The sender is new at the end of one record's client list, nothing else
is, and it has a success line. -/
def NewClient (caster : NtripCaster) (socketFd : Fd) (response : Response) : Prop :=
  ∃ before info after, caster.mountPointInfos = before ++ info :: after ∧
    response.caster = caster.withInfos (before ++ info.addClient socketFd :: after) ∧
      (deliveredSuccess response.sends = [(socketFd, okLine)] ∨
        deliveredSuccess response.sends = [(socketFd, icyLine)])

/-- Both tables are the old ones and no success line was delivered. -/
def Untouched (caster : NtripCaster) (response : Response) : Prop :=
  response.caster = caster ∧ deliveredSuccess response.sends = []

theorem deliveredSuccess_eq_nil {sends : List SendCall}
    (harmless : ∀ call ∈ sends, ¬ call.IsSuccess) : deliveredSuccess sends = [] := by
  unfold deliveredSuccess
  rw [List.filter_eq_nil_iff.mpr, List.map_nil]
  intro call member
  simpa using harmless call member

theorem forwardTo_not_success (outcomes : SendOutcomes) (buffer : Bytes) (clients : List Fd) :
    ∀ call ∈ forwardTo outcomes buffer clients, ¬ call.IsSuccess := by
  intro call member success
  rcases List.mem_mapIdx.mp member with ⟨index, bound, rfl⟩
  exact success.1 rfl

theorem clientReply_eq (fields : ClientFields) :
    clientReply fields = okLine ∨ clientReply fields = icyLine := by
  cases version : fields.ntripVersion1 <;> simp [clientReply, version]

/-- Only the last reply of an admission was taken. -/
theorem deliveredSuccess_admitted (fields : ClientFields) (socketFd : Fd) (failures : Nat) :
    deliveredSuccess (List.replicate failures (clientReplyCall fields socketFd false) ++
        [clientReplyCall fields socketFd true]) = [(socketFd, clientReply fields)] := by
  have failed : deliveredSuccess
      (List.replicate failures (clientReplyCall fields socketFd false)) = [] := by
    apply deliveredSuccess_eq_nil
    intro call member success
    rw [List.eq_of_mem_replicate member] at success
    cases success.2.1
  have taken : (clientReplyCall fields socketFd true).IsSuccess :=
    ⟨by simp [clientReplyCall], rfl, clientReply_eq fields⟩
  unfold deliveredSuccess at failed ⊢
  rw [List.filter_append, List.map_append, failed, List.filter_cons_of_pos (by simpa using taken)]
  rfl

theorem not_newClient_of_newRecord {caster : NtripCaster} {socketFd : Fd} {response : Response}
    (record : NewRecord caster socketFd response) : ¬ NewClient caster socketFd response := by
  rintro ⟨before, info, after, split, same, _⟩
  rcases record with ⟨name, user, password, ntripStr, registered, _⟩
  have lengths := congrArg (fun tables => tables.mountPointInfos.length) (registered.symm.trans same)
  simp [split] at lengths

theorem not_untouched_of_delivered {caster : NtripCaster} {response : Response}
    (delivered : deliveredSuccess response.sends ≠ []) : ¬ Untouched caster response :=
  fun untouched => delivered untouched.2

/-- What `ParseData` returns, what it does to the tables and what it tells
the sender always agree, whatever becomes of the sends. -/
theorem parseData_reply_agrees (caster : NtripCaster) (outcomes : SendOutcomes) (socketFd : Fd)
    (buffer : Bytes) :
    let response := parseData caster outcomes socketFd buffer
    (response.ret < 0 ∧ Untouched caster response) ∨
      (response.ret = 0 ∧
        ((NewRecord caster socketFd response ∧ ¬ NewClient caster socketFd response ∧
            ¬ Untouched caster response) ∨
          (¬ NewRecord caster socketFd response ∧ NewClient caster socketFd response ∧
            ¬ Untouched caster response) ∨
          (¬ NewRecord caster socketFd response ∧ ¬ NewClient caster socketFd response ∧
            Untouched caster response))) := by
  intro response
  have outcome : Outcome caster outcomes socketFd buffer response :=
    parseData_outcome caster outcomes socketFd buffer
  have quiet : Untouched caster response →
      ¬ NewRecord caster socketFd response ∧ ¬ NewClient caster socketFd response ∧
        Untouched caster response := by
    intro untouched
    refine ⟨?_, ?_, untouched⟩
    · rintro ⟨_, _, _, _, _, delivered⟩
      exact not_untouched_of_delivered (by rw [delivered]; simp) untouched
    · rintro ⟨_, _, _, _, _, delivered | delivered⟩
      · exact not_untouched_of_delivered (by rw [delivered]; simp) untouched
      · exact not_untouched_of_delivered (by rw [delivered]; simp) untouched
  generalize response = answer at outcome quiet
  cases outcome with
  | registered reads taken =>
      rename_i fields ntripStr
      have record : NewRecord caster socketFd
          ⟨0, caster.register (fields.toRecord socketFd) ntripStr,
            [⟨.serverConnectRequest, socketFd, okLine, true⟩]⟩ :=
        ⟨fields.mountPoint, fields.user, fields.passwd, ntripStr, rfl, rfl⟩
      exact Or.inr ⟨rfl, Or.inl ⟨record, not_newClient_of_newRecord record,
        not_untouched_of_delivered (List.cons_ne_nil _ _)⟩⟩
  | admitted reads split good tried failed accepted =>
      rename_i fields before after info failures
      have delivered := deliveredSuccess_admitted fields socketFd failures
      have client : NewClient caster socketFd
          ⟨0, caster.withInfos (before ++ info.addClient socketFd :: after),
            List.replicate failures (clientReplyCall fields socketFd false) ++
              [clientReplyCall fields socketFd true]⟩ := by
        refine ⟨before, info, after, split, rfl, ?_⟩
        rcases clientReply_eq fields with version | version
        · exact Or.inl (by rw [delivered, version])
        · exact Or.inr (by rw [delivered, version])
      refine Or.inr ⟨rfl, Or.inr (Or.inl ⟨?_, client, ?_⟩)⟩
      · exact fun record => not_newClient_of_newRecord record client
      · exact not_untouched_of_delivered (by rw [delivered]; simp)
  | forwarded kind served =>
      exact Or.inr ⟨rfl, Or.inr (Or.inr (quiet
        ⟨rfl, deliveredSuccess_eq_nil (forwardTo_not_success outcomes buffer _)⟩))⟩
  | reported kind served gga => exact Or.inr ⟨rfl, Or.inr (Or.inr (quiet ⟨rfl, rfl⟩))⟩
  | refused refusal harmless =>
      exact Or.inl ⟨Int.negSucc_lt_zero 0, rfl,
        deliveredSuccess_eq_nil (fun call member => (harmless call member).2)⟩

end Ntrip
