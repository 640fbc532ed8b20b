import Ntrip.Caster.TableInvariants
import Ntrip.Network.Login
import Ntrip.Network.Stream

namespace Ntrip

/-!
# From a granted request on

A client's request that is granted starts a subscription, provided that no
descriptor has two roles and no role has outlived its connection.  From that
turn of the event loop on, the client gets a success line and then the bytes
that the caster takes from the server of the record it named.
-/

namespace System

theorem count_of_oneRole {sys : System} (one : OneRole sys) {fd : Fd}
    (mentioned : fd ∈ descriptors sys.caster.mountPointInfos) :
    (descriptors sys.caster.mountPointInfos).count fd = 1 :=
  List.count_eq_one_of_mem one mentioned

/-- A newcomer is in no table. -/
theorem notMem_of_stranger {sys : System} (owned : RoleOwned sys) {fd : Fd} {conn : ConnId}
    (owns : sys.owner fd = some conn) (stranger : ¬ sys.LoggedIn conn) :
    fd ∉ descriptors sys.caster.mountPointInfos := by
  intro mentioned
  rcases mem_descriptors.mp mentioned with ⟨info, member, inRecord⟩
  rcases (info.mem_descriptors fd).mp inRecord with serves | listed
  · rcases (owned info member).server with ⟨server, holds, posted⟩
    rw [← serves, owns] at holds
    exact stranger (Option.some.inj holds ▸ loggedIn_of_posted posted)
  · rcases (owned info member).clients fd listed with ⟨client, holds, got⟩
    rw [owns] at holds
    exact stranger (Option.some.inj holds ▸ loggedIn_of_got got)

/-- A buffer that is kept closes nothing. -/
theorem owner_step_kept {sys : System} {fd : Fd} {buffer : Bytes} {outcomes : SendOutcomes}
    (kept : (parseData sys.caster outcomes fd buffer).ret = 0) (other : Fd) :
    (sys.step (.received fd buffer outcomes)).owner other = sys.owner other := by
  rw [owner_step_other sys (by simp), closedBy, kept]
  rfl

/-- A newcomer's request that is granted makes it a client of the record that
it names. -/
theorem subscribed_of_admission {sys : System} (wellFormed : TableWellFormed sys.caster.mountPointInfos)
    (owned : RoleOwned sys) (one : OneRole sys) {client : Fd} {source sink : ConnId}
    (owns : sys.owner client = some sink) (stranger : ¬ sys.LoggedIn sink) {buffer : Bytes}
    {outcomes : SendOutcomes} {info : MountPointInformation}
    (member : info ∈ sys.caster.mountPointInfos) (serving : sys.owner info.serverFd = some source)
    {fields : ClientFields} (reads : GetReads buffer fields)
    (good : fields.toRequestFields.Matches info) (granted : Granted sys.caster outcomes buffer) :
    (sys.step (.received client buffer outcomes)).Subscribed info.serverFd client source sink := by
  have absent := notMem_of_stranger owned owns stranger
  have kept : (parseData sys.caster outcomes client buffer).ret = 0 :=
    (parseData_ret_eq_zero_iff _ _ _ _).mpr
      fun refusal => not_granted_of_refused refusal granted
  rcases parseData_of_get reads.1 kept with
    ⟨fields', before, info', after, reads', split, good', _, _, tables⟩
  have inTable : info' ∈ sys.caster.mountPointInfos := by
    rw [split]
    exact List.mem_append_right before List.mem_cons_self
  have same : info' = info := by
    rw [reads.unique reads'] at good'
    exact List.inj_on_of_nodup_map wellFormed.distinct inTable member
      (good'.1.symm.trans good.1)
  rw [same] at split tables
  have mentioned : info.serverFd ∈ descriptors sys.caster.mountPointInfos :=
    mem_descriptors.mpr ⟨info, member, (info.mem_descriptors _).mpr (Or.inl rfl)⟩
  have infos : (sys.step (.received client buffer outcomes)).caster.mountPointInfos =
      before ++ info.addClient client :: after := congrArg NtripCaster.mountPointInfos tables
  have counts : ∀ fd, (descriptors (before ++ info.addClient client :: after)).count fd =
      (client :: descriptors sys.caster.mountPointInfos).count fd := by
    intro fd
    rw [split]
    exact (descriptors_addClient_perm before after info client).count_eq fd
  have apart : client ≠ info.serverFd := fun same => absent (same ▸ mentioned)
  constructor
  · rw [owner_step_kept kept, serving]
  · rw [owner_step_kept kept, owns]
  · rw [infos, counts, List.count_cons_of_ne apart, count_of_oneRole one mentioned]
  · rw [infos, counts, List.count_cons_self, List.count_eq_zero_of_not_mem absent]
  · rw [infos]
    exact ⟨info.addClient client, List.mem_append_right before List.mem_cons_self, rfl,
      List.mem_append_right _ List.mem_cons_self⟩

end System

namespace Network

/-- In this state a turn of the event loop grants a newcomer's request for a
record, and no descriptor has two roles. -/
structure Admission (net : Network) (client : Fd) (source sink : ConnId) (count : Nat)
    (outcomes : SendOutcomes) (info : MountPointInformation) : Prop where
  one : OneRole net.sys
  owns : net.sys.owner client = some sink
  stranger : ¬ net.sys.LoggedIn sink
  member : info ∈ net.sys.caster.mountPointInfos
  serving : net.sys.owner info.serverFd = some source
  named : ∃ fields, GetReads (net.buffer sink count) fields ∧ fields.toRequestFields.Matches info
  granted : Granted net.sys.caster outcomes (net.buffer sink count)

theorem wellFormed_run (moves : List Move) :
    TableWellFormed (Execution.run step init moves).sys.caster.mountPointInfos := by
  have preserved : ∀ (net : Network) move, TableWellFormed net.sys.caster.mountPointInfos →
      TableWellFormed (net.step move).sys.caster.mountPointInfos := by
    intro net move wellFormed
    rw [sys_step]
    exact (Execution.always_of_preserved step_wellFormed wellFormed (net.seen move)).last
  have first : TableWellFormed init.sys.caster.mountPointInfos :=
    ⟨fun _ member => absurd member List.not_mem_nil, List.nodup_nil⟩
  exact (Execution.always_of_preserved preserved first moves).last

section Admission

variable {net : Network} {client : Fd} {source sink : ConnId} {count : Nat}
  {outcomes : SendOutcomes} {info : MountPointInformation}

theorem subscribed_after (wellFormed : TableWellFormed net.sys.caster.mountPointInfos)
    (owned : RoleOwned net.sys)
    (admission : net.Admission client source sink count outcomes info) :
    (net.step (.casterReceives client count outcomes)).sys.Subscribed info.serverFd client
      source sink := by
  rcases admission.named with ⟨fields, reads, good⟩
  rw [sys_casterReceives admission.owns]
  exact System.subscribed_of_admission wellFormed owned admission.one admission.owns
    admission.stranger admission.member admission.serving reads good admission.granted

/-- After the admission the client has been sent a success line. -/
theorem replied_after (distinct : net.sys.Distinct) (honest : net.Honest sink)
    (admission : net.Admission client source sink count outcomes info) :
    ((net.step (.casterReceives client count outcomes)).downlink sink).sent = okLine ∨
      ((net.step (.casterReceives client count outcomes)).downlink sink).sent = icyLine := by
  have silent : (net.downlink sink).sent = [] := by
    rcases honest with ⟨loggedIn, _⟩ | ⟨_, silent | ⟨_, closed, _⟩⟩
    · exact absurd loggedIn admission.stranger
    · exact silent
    · exact absurd admission.owns (closed client)
  rw [downlink_casterReceives admission.owns, Channels.sent_writeAll, silent, List.nil_append,
    System.addressed_deliveries distinct admission.owns]
  exact answer_granted admission.granted

/-- Nothing of the stream has been taken for it. -/
theorem untaken_after (owned : RoleOwned net.sys)
    (admission : net.Admission client source sink count outcomes info) :
    ((net.step (.casterReceives client count outcomes)).uplink source).taken =
      (net.uplink source).taken := by
  have apart : source ≠ sink := by
    rintro rfl
    rcases (owned info admission.member).server with ⟨server, holds, posted⟩
    rw [admission.serving] at holds
    exact admission.stranger (Option.some.inj holds ▸ System.loggedIn_of_posted posted)
  rw [uplink_casterReceives admission.owns, Channels.read_other apart]

/-- A session: the client is sent a success line and then exactly the bytes
that the caster takes from the server. -/
theorem session_run {before during : List Move}
    (valid : ValidRun (before ++ .casterReceives client count outcomes :: during))
    (kept : Execution.EachStep step RolesKept init before)
    (admission : (Execution.run step init before).Admission client source sink count outcomes info)
    (keeps : Execution.EachStep step (KeepsUp info.serverFd client)
      ((Execution.run step init before).step (.casterReceives client count outcomes)) during) :
    ∃ reply stream, (reply = okLine ∨ reply = icyLine) ∧
      ((Execution.run step init
        (before ++ .casterReceives client count outcomes :: during)).downlink sink).sent =
          reply ++ stream ∧
      ((Execution.run step init
        (before ++ .casterReceives client count outcomes :: during)).uplink source).taken =
          ((Execution.run step init before).uplink source).taken ++ stream := by
  have parts := Execution.eachStep_append.mp valid
  rcases (always_honest parts.1 kept).last with ⟨distinct, owned, honest⟩
  have subscribed := subscribed_after (wellFormed_run before) owned admission
  rcases (stream_run (step_distinct _ _ distinct) subscribed parts.2.2 keeps).2 with
    ⟨stream, taken, sent⟩
  rw [untaken_after owned admission] at taken
  rw [Execution.run_append]
  refine ⟨_, stream, replied_after distinct (honest sink) admission, sent, taken⟩

end Admission

end Network
end Ntrip
