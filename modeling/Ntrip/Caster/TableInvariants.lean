import Ntrip.Caster.RequestLines
import Ntrip.Caster.ThreadHandler

namespace Ntrip

/-!
# Invariants of the mount table over whole runs

Two properties of the table that every event has to respect.  Names and
accounts stay well formed in every run.  That no descriptor has two roles is
not kept by the code on its own: it holds in a run exactly as long as no
accepted request comes from a descriptor that already has a role.
-/

/-! ## What the header loops leave in their variables -/

/-- The variables of `ServerConnectRequest` between two rounds: the name has
passed the comparison with the table. -/
structure FieldsWellFormed (infos : List MountPointInformation) (fields : RequestFields) :
    Prop where
  path : space ∉ fields.mountPoint
  unused : fields.mountPoint ≠ [] → fields.mountPoint ∉ infos.map (·.mountpoint)
  user : colon ∉ fields.user

theorem fieldsWellFormed_empty (infos : List MountPointInformation) :
    FieldsWellFormed infos {} where
  path := List.not_mem_nil
  unused := fun nonempty => absurd rfl nonempty
  user := List.not_mem_nil

theorem serverLine_wellFormed {infos : List MountPointInformation} {fields next : RequestFields}
    {line : Bytes} (wellFormed : FieldsWellFormed infos fields)
    (read : serverLine infos fields line = .ok next) : FieldsWellFormed infos next := by
  unfold serverLine at read
  by_cases post : mentions line "POST" = true
  · rw [if_pos post] at read
    cases path : requestPath line with
    | none =>
        rw [path] at read
        cases read
    | some mountPoint =>
        rw [path] at read
        by_cases used : infos.any (fun info => mountPoint = info.mountpoint) = true
        · simp only [if_pos used] at read
          cases read
        · simp only [if_neg used] at read
          rcases requestPath_eq_some path with ⟨_, _, _, _, fresh⟩
          rw [← Except.ok.inj read]
          refine ⟨fresh, fun _ listed => used ?_, wellFormed.user⟩
          rcases List.mem_map.mp listed with ⟨info, member, same⟩
          exact List.any_eq_true.mpr ⟨info, member, by simpa using same.symm⟩
  · rw [if_neg post] at read
    by_cases header : mentions line "Authorization: Basic" = true
    · rw [if_pos header] at read
      cases account : readCredentials line with
      | none =>
          rw [account] at read
          cases read
      | some credentials =>
          rw [account] at read
          rw [← Except.ok.inj read]
          exact ⟨wellFormed.path, wellFormed.unused, colon_notMem_user account⟩
    · rw [if_neg header] at read
      rw [← Except.ok.inj read]
      exact wellFormed

theorem readServerLines_wellFormed {infos : List MountPointInformation}
    {fields result : RequestFields} {lines : List Bytes}
    (wellFormed : FieldsWellFormed infos fields)
    (read : readServerLines infos fields lines = .ok result) : FieldsWellFormed infos result := by
  induction lines generalizing fields with
  | nil => exact Except.ok.inj read ▸ wellFormed
  | cons line rest inductionHypothesis =>
      rw [readServerLines] at read
      cases round : serverLine infos fields line with
      | error refusal =>
          rw [round] at read
          cases read
      | ok next =>
          rw [round] at read
          exact inductionHypothesis (serverLine_wellFormed wellFormed round) read

/-! ## Names and accounts -/

/-- A record that a request can have made. -/
structure RecordWellFormed (info : MountPointInformation) : Prop where
  mountpoint_nonempty : info.mountpoint ≠ []
  mountpoint_word : space ∉ info.mountpoint
  username_nonempty : info.username ≠ []
  username_colon : colon ∉ info.username
  password_nonempty : info.password ≠ []

/-- Well-formed records under pairwise distinct names. -/
structure TableWellFormed (infos : List MountPointInformation) : Prop where
  records : ∀ info ∈ infos, RecordWellFormed info
  distinct : (infos.map (·.mountpoint)).Nodup

theorem RecordWellFormed.congr {left right : MountPointInformation}
    (wellFormed : RecordWellFormed right) (same : left.SameAccount right) :
    RecordWellFormed left := by
  rcases same with ⟨mountpoint, username, password⟩
  exact ⟨mountpoint ▸ wellFormed.mountpoint_nonempty, mountpoint ▸ wellFormed.mountpoint_word,
    username ▸ wellFormed.username_nonempty, username ▸ wellFormed.username_colon,
    password ▸ wellFormed.password_nonempty⟩

theorem map_mountpoint_addClient (before after : List MountPointInformation)
    (info : MountPointInformation) (fd : Fd) :
    (before ++ info.addClient fd :: after).map (·.mountpoint) =
      (before ++ info :: after).map (·.mountpoint) := by
  simp

/-- A received buffer keeps the table well formed. -/
theorem parseData_wellFormed {caster : NtripCaster}
    (wellFormed : TableWellFormed caster.mountPointInfos) (outcomes : SendOutcomes)
    (socketFd : Fd) (buffer : Bytes) :
    TableWellFormed (parseData caster outcomes socketFd buffer).caster.mountPointInfos := by
  have outcome := parseData_outcome caster outcomes socketFd buffer
  generalize parseData caster outcomes socketFd buffer = response at outcome
  cases outcome with
  | registered reads taken =>
      rename_i fields ntripStr
      have good := readServerLines_wellFormed (fieldsWellFormed_empty _) reads.2.1
      rcases reads.2.2.2 with ⟨name, user, passwd⟩
      constructor
      · intro info member
        rcases List.mem_append.mp member with old | new
        · exact wellFormed.records info old
        · rw [List.mem_singleton.mp new]
          exact ⟨name, good.path, user, good.user, passwd⟩
      · simp only [NtripCaster.register_mountPointInfos, List.map_append, List.map_cons,
          List.map_nil]
        refine List.nodup_append.mpr ⟨wellFormed.distinct, List.nodup_singleton _, ?_⟩
        intro left inTable right isNew same
        rw [same, List.mem_singleton.mp isNew] at inTable
        exact good.unused name inTable
  | admitted reads split good tried failed accepted =>
      rename_i fields before after info failures
      have table := wellFormed
      rw [split] at table
      constructor
      · intro record member
        rcases List.mem_append.mp member with left | right
        · exact table.records record (List.mem_append_left _ left)
        · rcases List.mem_cons.mp right with same | later
          · rw [same]
            exact (table.records info (List.mem_append_right _ List.mem_cons_self)).congr
              (info.addClient_sameAccount socketFd)
          · exact table.records record (List.mem_append_right _ (List.mem_cons_of_mem _ later))
      · rw [NtripCaster.withInfos_mountPointInfos, map_mountpoint_addClient]
        exact table.distinct
  | forwarded kind served => exact wellFormed
  | reported kind served gga => exact wellFormed
  | refused refusal harmless => exact wellFormed

theorem map_mountpoint_disconnect_sublist (caster : NtripCaster) (fd : Fd) :
    ((disconnect caster fd).1.mountPointInfos.map (·.mountpoint)).Sublist
      (caster.mountPointInfos.map (·.mountpoint)) := by
  rcases exists_mentionSplit caster.mountPointInfos fd with absent | ⟨before, info, after, found⟩
  · rw [disconnect_of_notMem absent]
  · by_cases serves : info.serverFd = fd
    · rw [disconnect_of_server found serves, found.split]
      exact ((List.Sublist.refl before).append (List.sublist_cons_self info after)).map _
    · rw [disconnect_of_client found serves, found.split]
      simp

/-- A disconnect keeps the table well formed. -/
theorem disconnect_wellFormed {caster : NtripCaster}
    (wellFormed : TableWellFormed caster.mountPointInfos) (fd : Fd) :
    TableWellFormed (disconnect caster fd).1.mountPointInfos := by
  constructor
  · intro survivor member
    rcases exists_of_mem_disconnect member with ⟨info, listed, _, same, _⟩
    exact (wellFormed.records info listed).congr same
  · exact wellFormed.distinct.sublist (map_mountpoint_disconnect_sublist caster fd)

theorem step_wellFormed (sys : System) (event : Event)
    (wellFormed : TableWellFormed sys.caster.mountPointInfos) :
    TableWellFormed (sys.step event).caster.mountPointInfos := by
  cases event with
  | accept fd => exact wellFormed
  | received fd buffer outcomes => exact parseData_wellFormed wellFormed outcomes fd buffer
  | disconnected fd => exact disconnect_wellFormed wellFormed fd

/-- In every run the names are distinct, non-empty words and the accounts
are non-empty, the user names without a colon; so a name never has more than
one record. -/
theorem mount_table_invariant (events : List Event) :
    Execution.Always System.step
      (fun sys => TableWellFormed sys.caster.mountPointInfos ∧
        ∀ name, (sys.caster.mountPointInfos.map (·.mountpoint)).count name ≤ 1)
      System.init events := by
  have unique : ∀ infos : List MountPointInformation, TableWellFormed infos →
      ∀ name, (infos.map (·.mountpoint)).count name ≤ 1 :=
    fun infos wellFormed => List.nodup_iff_count_le_one.mp wellFormed.distinct
  apply Execution.always_of_preserved
  · rintro sys event ⟨wellFormed, _⟩
    have next := step_wellFormed sys event wellFormed
    exact ⟨next, unique _ next⟩
  · have empty : TableWellFormed System.init.caster.mountPointInfos :=
      ⟨fun _ member => absurd member List.not_mem_nil, List.nodup_nil⟩
    exact ⟨empty, unique _ empty⟩

/-! ## One role for each descriptor -/

/-- No descriptor occurs twice among servers and clients together. -/
def OneRole (sys : System) : Prop :=
  (descriptors sys.caster.mountPointInfos).Nodup

instance (sys : System) : Decidable (OneRole sys) :=
  inferInstanceAs (Decidable (List.Nodup _))

/-- No request is accepted from a descriptor that already has a role. -/
def NoSecondRole (sys : System) : Event → Prop
  | .received fd buffer outcomes =>
      Granted sys.caster outcomes buffer → fd ∉ descriptors sys.caster.mountPointInfos
  | _ => True

theorem step_oneRole_iff (sys : System) (event : Event) (one : OneRole sys) :
    OneRole (sys.step event) ↔ NoSecondRole sys event := by
  cases event with
  | accept fd => exact iff_of_true one trivial
  | disconnected fd =>
      exact iff_of_true (one.sublist (descriptors_disconnect_sublist sys.caster fd)) trivial
  | received fd buffer outcomes =>
      change (descriptors (parseData sys.caster outcomes fd buffer).caster.mountPointInfos).Nodup ↔
        (Granted sys.caster outcomes buffer → fd ∉ descriptors sys.caster.mountPointInfos)
      rcases parseData_granted_or sys.caster outcomes fd buffer with
        ⟨granted, perm⟩ | ⟨ungranted, same⟩
      · rw [perm.nodup_iff, List.nodup_cons]
        exact ⟨fun parts _ => parts.1, fun fresh => ⟨fresh granted, one⟩⟩
      · rw [same]
        exact iff_of_true one (fun granted => absurd granted ungranted)

/-- Every state of a run gives each descriptor at most one role exactly when
no step of the run grants a second role. -/
theorem one_role_iff (events : List Event) :
    Execution.Always System.step OneRole System.init events ↔
      Execution.EachStep System.step NoSecondRole System.init events :=
  Execution.always_iff_eachStep (fun sys event one _ => step_oneRole_iff sys event one)
    List.nodup_nil (Execution.eachStep_of_forall (fun _ _ => trivial) _ events)

/-- The descriptors that the accepts of a run return. -/
def acceptedFds (events : List Event) : List Fd :=
  events.filterMap fun event =>
    match event with
    | .accept fd => some fd
    | _ => none

/-- One connection registers two mount points. -/
def twoPosts : List Event :=
  [.accept 5,
    .received 5 (ascii "POST /A HTTP/1.1\r\nAuthorization: Basic dTpw\r\n") (fun _ => true),
    .received 5 (ascii "POST /B HTTP/1.1\r\nAuthorization: Basic dTpw\r\n") (fun _ => true)]

theorem one_role_fails :
    ¬ ∀ events, System.ValidRun events → (acceptedFds events).Nodup →
      Execution.Always System.step OneRole System.init events := by
  intro always
  have valid : System.ValidRun twoPosts := by decide +kernel
  have one := always twoPosts valid (by decide)
  revert one
  decide +kernel

end Ntrip
