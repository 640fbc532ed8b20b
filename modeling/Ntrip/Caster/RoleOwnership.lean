import Ntrip.Caster.ThreadHandler

namespace Ntrip

/-!
# Who owns a role

A descriptor in the tables stands for a connection only as long as that
connection is open.  The caster has three ways to close a descriptor, and
two of them leave the tables alone: the loop closes the sender of a refused
buffer without looking at its roles, and a disconnect stops at the first
record that it finds.  `RoleKept` says when neither of the two does harm, and
roles are owned throughout a run exactly as long as every step meets it.
-/

/-! ## The property -/

/-- The connection sent a `POST` that was granted and that made this record. -/
def PostedBy (history : List Received) (conn : ConnId) (info : MountPointInformation) : Prop :=
  ∃ entry ∈ history, entry.conn = conn ∧ entry.ret = 0 ∧
    ∃ fields ntripStr, PostReads [] entry.buffer fields ntripStr ∧ fields.Matches info

/-- The connection sent a `GET` that was granted with the name and account of
this record. -/
def GotBy (history : List Received) (conn : ConnId) (info : MountPointInformation) : Prop :=
  ∃ entry ∈ history, entry.conn = conn ∧ entry.ret = 0 ∧
    ∃ fields, GetReads entry.buffer fields ∧ fields.toRequestFields.Matches info

/-- Every descriptor of the record names the open connection that asked for
this role. -/
structure OwnedRecord (sys : System) (info : MountPointInformation) : Prop where
  server : ∃ conn, sys.owner info.serverFd = some conn ∧ PostedBy sys.history conn info
  clients : ∀ fd ∈ info.clientSocketList,
    ∃ conn, sys.owner fd = some conn ∧ GotBy sys.history conn info

def RoleOwned (sys : System) : Prop :=
  ∀ info ∈ sys.caster.mountPointInfos, OwnedRecord sys info

/-! ## The condition -/

/-- A disconnect of the descriptor leaves no trace of what it closes.  When
the first record that mentions the descriptor is served by it, no other record
mentions the server or one of its clients; otherwise the descriptor has one
entry in that record and none behind it. -/
def SoleTrace (infos : List MountPointInformation) (fd : Fd) : Prop :=
  ∀ before info after, MentionSplit infos fd before info after →
    (info.serverFd = fd → ∀ gone ∈ info.descriptors, gone ∉ descriptors (before ++ after)) ∧
      (info.serverFd ≠ fd → info.clientSocketList.count fd = 1 ∧ fd ∉ descriptors after)

/-- A connection with a role sends nothing that the caster refuses, and a
connection that hangs up has one role, as have the clients it takes along. -/
def RoleKept (sys : System) : Event → Prop
  | .accept _ => True
  | .received fd buffer outcomes =>
      fd ∈ descriptors sys.caster.mountPointInfos → ¬ Refused sys.caster outcomes fd buffer
  | .disconnected fd => SoleTrace sys.caster.mountPointInfos fd

/-! ## Records between two states -/

theorem PostedBy.mono {history later : List Received} {conn : ConnId}
    {info same : MountPointInformation} (posted : PostedBy history conn info)
    (kept : history ⊆ later) (account : same.SameAccount info) : PostedBy later conn same := by
  rcases posted with ⟨entry, member, sender, granted, fields, ntripStr, reads, good⟩
  refine ⟨entry, kept member, sender, granted, fields, ntripStr, reads, ?_⟩
  exact ⟨good.1.trans account.1.symm, good.2.1.trans account.2.1.symm,
    good.2.2.trans account.2.2.symm⟩

theorem GotBy.mono {history later : List Received} {conn : ConnId}
    {info same : MountPointInformation} (got : GotBy history conn info)
    (kept : history ⊆ later) (account : same.SameAccount info) : GotBy later conn same := by
  rcases got with ⟨entry, member, sender, granted, fields, reads, good⟩
  refine ⟨entry, kept member, sender, granted, fields, reads, ?_⟩
  exact ⟨good.1.trans account.1.symm, good.2.1.trans account.2.1.symm,
    good.2.2.trans account.2.2.symm⟩

/-- A record stays owned when none of its descriptors changes hands. -/
theorem OwnedRecord.mono {sys next : System} {info same : MountPointInformation}
    (owned : OwnedRecord sys info) (kept : sys.history ⊆ next.history)
    (account : same.SameAccount info) (server : same.serverFd = info.serverFd)
    (clients : same.clientSocketList ⊆ info.clientSocketList)
    (owners : ∀ fd ∈ same.descriptors, next.owner fd = sys.owner fd) : OwnedRecord next same := by
  constructor
  · rcases owned.server with ⟨conn, holds, posted⟩
    refine ⟨conn, ?_, posted.mono kept account⟩
    rw [owners _ List.mem_cons_self, server, holds]
  · intro fd listed
    rcases owned.clients fd (clients listed) with ⟨conn, holds, got⟩
    refine ⟨conn, ?_, got.mono kept account⟩
    rw [owners fd (List.mem_cons_of_mem _ listed), holds]

theorem OwnedRecord.owner_isSome {sys : System} {info : MountPointInformation}
    (owned : OwnedRecord sys info) {fd : Fd} (listed : fd ∈ info.descriptors) :
    (sys.owner fd).isSome = true := by
  rcases (info.mem_descriptors fd).mp listed with same | client
  · rcases owned.server with ⟨conn, holds, _⟩
    rw [same, holds]
    rfl
  · rcases owned.clients fd client with ⟨conn, holds, _⟩
    rw [holds]
    rfl

/-- Where roles are owned, every descriptor of the tables is open. -/
theorem RoleOwned.owner_isSome {sys : System} (owned : RoleOwned sys) :
    ∀ fd ∈ descriptors sys.caster.mountPointInfos, (sys.owner fd).isSome = true := by
  intro fd listed
  rcases mem_descriptors.mp listed with ⟨info, member, inRecord⟩
  exact (owned info member).owner_isSome inRecord

/-- After some descriptors are closed, roles are owned exactly when the
remaining records mention none of them. -/
theorem roleOwned_closed_iff {sys next : System} {closed : List Fd}
    (owned : RoleOwned sys) (kept : sys.history ⊆ next.history)
    (conns : next.conns = System.closeAll sys.conns closed)
    (survivors : ∀ survivor ∈ next.caster.mountPointInfos,
      ∃ info ∈ sys.caster.mountPointInfos, survivor.serverFd = info.serverFd ∧
        survivor.SameAccount info ∧ survivor.clientSocketList.Sublist info.clientSocketList) :
    RoleOwned next ↔ ∀ fd ∈ closed, fd ∉ descriptors next.caster.mountPointInfos := by
  have owners : ∀ fd, next.owner fd = if fd ∈ closed then none else sys.owner fd := by
    intro fd
    rw [System.owner, conns, System.lookup_closeAll]
    rfl
  constructor
  · intro ownedNext fd gone listed
    have isOpen := ownedNext.owner_isSome fd listed
    rw [owners, if_pos gone] at isOpen
    cases isOpen
  · intro clean survivor member
    rcases survivors survivor member with ⟨info, listed, server, account, clients⟩
    refine (owned info listed).mono kept account server clients.subset ?_
    intro fd inRecord
    rw [owners, if_neg]
    exact fun gone => clean fd gone (mem_descriptors.mpr ⟨survivor, member, inRecord⟩)

/-! ## Accepted requests -/

/-- The names in use only ever refuse a request; they never change what its
lines amount to. -/
theorem readServerLines_forget {infos : List MountPointInformation}
    {fields result : RequestFields} {lines : List Bytes}
    (read : readServerLines infos fields lines = .ok result) :
    readServerLines [] fields lines = .ok result := by
  induction lines generalizing fields with
  | nil => exact read
  | cons line rest inductionHypothesis =>
      rw [readServerLines] at read ⊢
      cases round : serverLine infos fields line with
      | error refusal =>
          rw [round] at read
          cases read
      | ok next =>
          have same : serverLine [] fields line = .ok next := by
            unfold serverLine at round ⊢
            split_ifs at round ⊢ with post header
            · cases path : requestPath line with
              | none =>
                  rw [path] at round
                  cases round
              | some mountPoint =>
                  rw [path] at round
                  by_cases used : infos.any (fun info => mountPoint = info.mountpoint) = true
                  · simp only [if_pos used] at round
                    cases round
                  · simp only [if_neg used] at round
                    exact round
            · exact round
            · exact round
          rw [round] at read
          rw [same]
          exact inductionHypothesis read

theorem PostReads.forget {infos : List MountPointInformation} {buffer : Bytes}
    {fields : RequestFields} {ntripStr : Bytes} (reads : PostReads infos buffer fields ntripStr) :
    PostReads [] buffer fields ntripStr :=
  ⟨reads.1, readServerLines_forget reads.2.1, reads.2.2⟩

/-! ## One step -/

/-- A buffer that is not refused keeps the connections and adds one entry to
the record of what was sent. -/
theorem step_received_granted {sys : System} {fd : Fd} {buffer : Bytes}
    {outcomes : SendOutcomes} {conn : ConnId} (holds : sys.owner fd = some conn)
    (granted : (parseData sys.caster outcomes fd buffer).ret = 0) :
    sys.step (.received fd buffer outcomes) =
      ⟨(parseData sys.caster outcomes fd buffer).caster, sys.conns, sys.accepted,
        sys.history ++ [⟨conn, buffer, 0⟩]⟩ := by
  simp [System.step, granted, holds]

theorem roleOwned_received {sys : System} {fd : Fd} {buffer : Bytes} {outcomes : SendOutcomes}
    (owned : RoleOwned sys) (valid : sys.Valid (.received fd buffer outcomes))
    (accepted : ¬ Refused sys.caster outcomes fd buffer) :
    RoleOwned (sys.step (.received fd buffer outcomes)) := by
  rcases Option.isSome_iff_exists.mp valid.1 with ⟨conn, holds⟩
  have outcome := parseData_outcome sys.caster outcomes fd buffer
  have next : (parseData sys.caster outcomes fd buffer).ret = 0 →
      sys.step (.received fd buffer outcomes) =
        ⟨(parseData sys.caster outcomes fd buffer).caster, sys.conns, sys.accepted,
          sys.history ++ [⟨conn, buffer, 0⟩]⟩ := step_received_granted holds
  generalize parseData sys.caster outcomes fd buffer = response at outcome next
  have kept : sys.history ⊆ sys.history ++ [⟨conn, buffer, 0⟩] :=
    List.subset_append_left sys.history _
  have latest : (⟨conn, buffer, 0⟩ : Received) ∈ sys.history ++ [⟨conn, buffer, 0⟩] :=
    List.mem_append_right sys.history List.mem_cons_self
  have old : ∀ caster, ∀ info ∈ sys.caster.mountPointInfos,
      OwnedRecord ⟨caster, sys.conns, sys.accepted, sys.history ++ [⟨conn, buffer, 0⟩]⟩ info :=
    fun caster info listed => (owned info listed).mono kept ⟨rfl, rfl, rfl⟩ rfl
      (List.Subset.refl _) (fun _ _ => rfl)
  cases outcome with
  | registered reads taken =>
      rename_i fields ntripStr
      rw [next rfl]
      intro info member
      rcases List.mem_append.mp member with before | new
      · exact old _ info before
      · rw [List.mem_singleton.mp new]
        refine ⟨⟨conn, holds, _, latest, rfl, rfl, fields, ntripStr, reads.forget, rfl, rfl, rfl⟩, ?_⟩
        exact fun client listed => absurd listed List.not_mem_nil
  | admitted reads split good tried failed taken =>
      rename_i fields before after info failures
      rw [next rfl]
      have listed : info ∈ sys.caster.mountPointInfos := by
        rw [split]
        exact List.mem_append_right before List.mem_cons_self
      have grown := old (sys.caster.withInfos (before ++ info.addClient fd :: after)) info listed
      intro record member
      rcases List.mem_append.mp member with left | right
      · exact old _ record (by rw [split]; exact List.mem_append_left _ left)
      · rcases List.mem_cons.mp right with same | later
        · subst same
          refine ⟨grown.server, ?_⟩
          intro client inList
          rcases List.mem_append.mp inList with present | new
          · exact grown.clients client present
          · rw [List.mem_singleton.mp new]
            exact ⟨conn, holds, _, latest, rfl, rfl, fields, reads, good⟩
        · refine old _ record ?_
          rw [split]
          exact List.mem_append_right before (List.mem_cons_of_mem info later)
  | forwarded kind served =>
      rw [next rfl]
      exact old _
  | reported kind served gga =>
      rw [next rfl]
      exact old _
  | refused refusal harmless => exact absurd refusal accepted

/-- A refused buffer costs the roles exactly when its sender has one. -/
theorem roleOwned_refused_iff {sys : System} {fd : Fd} {buffer : Bytes} {outcomes : SendOutcomes}
    (owned : RoleOwned sys) (refusal : Refused sys.caster outcomes fd buffer) :
    RoleOwned (sys.step (.received fd buffer outcomes)) ↔
      fd ∉ descriptors sys.caster.mountPointInfos := by
  have negative := (parseData_ret_neg_iff sys.caster outcomes fd buffer).mpr refusal
  have same : (sys.step (.received fd buffer outcomes)).caster = sys.caster :=
    parseData_of_neg negative
  have closed : (sys.step (.received fd buffer outcomes)).conns =
      System.closeAll sys.conns [fd] := by
    simp [System.step, negative]
  have kept : sys.history ⊆ (sys.step (.received fd buffer outcomes)).history :=
    List.subset_append_left sys.history _
  rw [roleOwned_closed_iff owned kept closed ?_, same, List.forall_mem_singleton]
  intro survivor member
  rw [same] at member
  exact ⟨survivor, member, rfl, ⟨rfl, rfl, rfl⟩, List.Sublist.refl _⟩

/-- The descriptors that a disconnect closes are gone from the tables exactly
when they have no further trace. -/
theorem disconnect_clean_iff (caster : NtripCaster) (fd : Fd) :
    (∀ gone ∈ (disconnect caster fd).2,
        gone ∉ descriptors (disconnect caster fd).1.mountPointInfos) ↔
      SoleTrace caster.mountPointInfos fd := by
  rcases exists_mentionSplit caster.mountPointInfos fd with absent | ⟨before, info, after, found⟩
  · rw [disconnect_of_notMem absent, List.forall_mem_singleton]
    refine iff_of_true absent ?_
    intro before info after found
    exact absurd found.mem_descriptors absent
  · have parts : SoleTrace caster.mountPointInfos fd ↔
        (info.serverFd = fd → ∀ gone ∈ info.descriptors, gone ∉ descriptors (before ++ after)) ∧
          (info.serverFd ≠ fd → info.clientSocketList.count fd = 1 ∧ fd ∉ descriptors after) := by
      constructor
      · exact fun trace => trace before info after found
      · intro trace before' info' after' found'
        rcases found.unique found' with ⟨rfl, rfl, rfl⟩
        exact trace
    rw [parts]
    by_cases serves : info.serverFd = fd
    · rw [disconnect_of_server found serves]
      have closed : ∀ gone, gone ∈ info.clientSocketList ++ [fd] ↔ gone ∈ info.descriptors := by
        intro gone
        rw [List.mem_append, List.mem_singleton, info.mem_descriptors, serves, or_comm]
      simp only [closed]
      exact ⟨fun clean => ⟨fun _ => clean, fun other => absurd serves other⟩,
        fun trace => trace.1 serves⟩
    · rw [disconnect_of_client found serves, List.forall_mem_singleton]
      have listed : 0 < info.clientSocketList.count fd := by
        rcases (info.mem_descriptors fd).mp found.mentioned with same | client
        · exact absurd same.symm serves
        · exact List.count_pos_iff.mpr client
      have unmentioned : fd ∉ descriptors before := by
        intro inBefore
        rcases mem_descriptors.mp inBefore with ⟨record, member, inRecord⟩
        exact found.unmentioned record member inRecord
      have entry : fd ∈ (info.eraseClient fd).descriptors ↔ 1 < info.clientSocketList.count fd := by
        rw [MountPointInformation.mem_descriptors, MountPointInformation.eraseClient_serverFd,
          MountPointInformation.eraseClient_clientSocketList, ← List.count_pos_iff,
          List.count_erase_self]
        have other : fd ≠ info.serverFd := Ne.symm serves
        constructor
        · rintro (same | more)
          · exact absurd same other
          · omega
        · exact fun more => Or.inr (by omega)
      rw [descriptors_append, descriptors_cons, List.mem_append, List.mem_append, entry]
      constructor
      · intro clean
        refine ⟨fun same => absurd same serves, fun _ => ⟨?_, ?_⟩⟩
        · have single : ¬ 1 < info.clientSocketList.count fd :=
            fun more => clean (Or.inr (Or.inl more))
          omega
        · exact fun later => clean (Or.inr (Or.inr later))
      · rintro ⟨_, trace⟩ (early | more | later)
        · exact unmentioned early
        · have single := (trace serves).1
          omega
        · exact (trace serves).2 later

/-- One possible event leaves roles owned exactly under the condition. -/
theorem step_roleOwned_iff (sys : System) (event : Event) (owned : RoleOwned sys)
    (valid : sys.Valid event) : RoleOwned (sys.step event) ↔ RoleKept sys event := by
  cases event with
  | accept fd =>
      refine iff_of_true ?_ trivial
      intro info member
      refine (owned info member).mono (List.Subset.refl _) ⟨rfl, rfl, rfl⟩ rfl
        (List.Subset.refl _) ?_
      intro other listed
      have isOpen := (owned info member).owner_isSome listed
      have distinct : other ≠ fd := by
        intro same
        rw [same, (valid : sys.owner fd = none)] at isOpen
        cases isOpen
      exact AList.lookup_insert_ne distinct
  | received fd buffer outcomes =>
      by_cases refusal : Refused sys.caster outcomes fd buffer
      · rw [roleOwned_refused_iff owned refusal]
        exact ⟨fun absent listed => absurd listed absent, fun kept listed => kept listed refusal⟩
      · exact iff_of_true (roleOwned_received owned valid refusal) (fun _ => refusal)
  | disconnected fd =>
      have clean : RoleOwned (sys.step (.disconnected fd)) ↔
          ∀ gone ∈ (disconnect sys.caster fd).2,
            gone ∉ descriptors (disconnect sys.caster fd).1.mountPointInfos :=
        roleOwned_closed_iff owned (List.Subset.refl _) rfl
          (fun survivor member => exists_of_mem_disconnect member)
      exact clean.trans (disconnect_clean_iff sys.caster fd)

/-- Where roles are owned, a buffer is passed on only from the connection that
posted a record to the connections that asked for it. -/
theorem forwarded_between_owners {sys : System} (owned : RoleOwned sys) {outcomes : SendOutcomes}
    {fd : Fd} {buffer : Bytes} {call : SendCall}
    (sent : call ∈ (tryToForwardServerData sys.caster outcomes fd buffer).sends) :
    ∃ info ∈ sys.caster.mountPointInfos,
      (∃ conn, sys.owner fd = some conn ∧ PostedBy sys.history conn info) ∧
        ∃ conn, sys.owner call.fd = some conn ∧ GotBy sys.history conn info := by
  unfold tryToForwardServerData at sent
  cases served : servedRecord sys.caster.mountPointInfos fd with
  | none =>
      rw [served] at sent
      cases sent
  | some info =>
      rw [served] at sent
      have member := List.mem_of_find?_eq_some served
      have serves : info.serverFd = fd := by simpa using List.find?_some served
      rcases List.mem_mapIdx.mp sent with ⟨index, bound, rfl⟩
      exact ⟨info, member, serves ▸ (owned info member).server,
        (owned info member).clients _ (List.getElem_mem bound)⟩

/-! ## Whole runs -/

/-- In a possible run every role is owned in every state exactly when every
step meets the condition. -/
theorem role_ownership_iff (events : List Event) (valid : System.ValidRun events) :
    Execution.Always System.step RoleOwned System.init events ↔
      Execution.EachStep System.step RoleKept System.init events :=
  Execution.always_iff_eachStep step_roleOwned_iff
    (fun _ member => absurd member List.not_mem_nil) valid

/-- A connection registers a mount point and leaves. -/
def postAndLeave : List Event :=
  [.accept 5,
    .received 5 (ascii "POST /A HTTP/1.1\r\nAuthorization: Basic dTpw\r\n") (fun _ => true),
    .disconnected 5]

theorem role_ownership_of_postAndLeave :
    Execution.Always System.step RoleOwned System.init postAndLeave := by
  apply (role_ownership_iff postAndLeave (by decide +kernel)).mpr
  refine ⟨trivial, fun listed => absurd listed (by decide +kernel), ?_, trivial⟩
  exact (disconnect_clean_iff _ 5).mp (by decide +kernel)

/-- A connection registers a mount point and then sends a buffer that the
caster refuses. -/
def postAndStray : List Event :=
  [.accept 5,
    .received 5 (ascii "POST /A HTTP/1.1\r\nAuthorization: Basic dTpw\r\n") (fun _ => true),
    .received 5 (ascii "GET /\r\n") (fun _ => true)]

theorem role_ownership_fails :
    ¬ ∀ events, System.ValidRun events →
      Execution.Always System.step RoleOwned System.init events := by
  intro always
  have owned := always postAndStray (by decide +kernel)
  have last : RoleOwned (Execution.run System.step System.init postAndStray) := owned.2.2.2
  have isOpen := last.owner_isSome 5 (by decide +kernel)
  revert isOpen
  decide +kernel

end Ntrip
