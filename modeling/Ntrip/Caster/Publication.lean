import Ntrip.Foundation.Directory
import Ntrip.Caster.Commutation
import Ntrip.Caster.RoleOwnership
import Ntrip.Caster.Subscription
import Ntrip.Caster.TableInvariants

namespace Ntrip

/-!
# The mount table as a directory

What the records are for: a server claims a mount point, clients subscribe
to it with the server's account, and what the server sends is heard by the
subscribers.  While nobody has two roles, the caster's list of records is such
a directory, and whom a buffer reaches is a question about the requests and
departures of the past.
-/

open Sequence

namespace MountPointInformation

def credentials (info : MountPointInformation) : Credentials where
  user := info.username
  passwd := info.password

/-- The record without its name, its clients without their order. -/
def entry (info : MountPointInformation) : Directory.Entry Fd Credentials where
  publisher := info.serverFd
  key := info.credentials
  subscribers := { fd | fd ∈ info.clientSocketList }

end MountPointInformation

def RequestFields.credentials (fields : RequestFields) : Credentials where
  user := fields.user
  passwd := fields.passwd

/-- The directory that the records stand for. -/
def directory (infos : List MountPointInformation) : Directory.Table Bytes Fd Credentials :=
  fun name => (infos.find? fun info => info.mountpoint = name).map (·.entry)

/-- What an event amounts to, whatever the tables hold.  The parties are
descriptor numbers, and a party leaves when `Disconnect` is called for its
number.  A close after a refused buffer does not call it, and a number that is
handed out again stands for the same party. -/
def Event.actions : Event → List (Directory.Action Bytes Fd Credentials)
  | .accept _ => []
  | .disconnected fd => [.leave fd]
  | .received fd buffer outcomes =>
      if outcomes 0 then
        match dispatch buffer with
        | .post =>
            ((registration [] buffer).map fun fields =>
              .claim (lineNames "POST" (requestLines buffer)) fields.mountPoint fd
                fields.credentials).toList
        | .get =>
            ((login buffer).map fun fields =>
              .subscribe fields.mountPoint fd fields.credentials).toList
        | _ => []
      else []

/-! ## Looking a name up -/

section Lookup

variable {infos : List MountPointInformation} {info : MountPointInformation} {name : Bytes}
  {entry : Directory.Entry Fd Credentials}

theorem directory_eq_none_iff : directory infos name = none ↔ name ∉ infos.map (·.mountpoint) := by
  rw [directory, Option.map_eq_none_iff, List.find?_eq_none]
  simp

theorem directory_eq_some_iff (distinct : (infos.map (·.mountpoint)).Nodup) :
    directory infos name = some entry ↔
      ∃ info ∈ infos, info.mountpoint = name ∧ info.entry = entry := by
  unfold directory
  rw [Option.map_eq_some_iff]
  constructor
  · rintro ⟨info, found, same⟩
    have named := List.find?_some found
    exact ⟨info, List.mem_of_find?_eq_some found, of_decide_eq_true named, same⟩
  · rintro ⟨info, member, named, same⟩
    refine ⟨info, ?_, same⟩
    rcases List.append_of_mem member with ⟨before, after, split⟩
    rw [split, List.find?_append, List.find?_eq_none.mpr]
    · simp [named]
    · intro other earlier equal
      rw [split, List.map_append, List.map_cons, List.nodup_append] at distinct
      exact distinct.2.2 _ (List.mem_map_of_mem earlier) _ List.mem_cons_self
        ((of_decide_eq_true equal).trans named.symm)

end Lookup

/-! ## Registrations -/

/-- A server's request is read to its end only when none of its names is in
use. -/
theorem readServerLines_unused {infos : List MountPointInformation}
    {fields result : RequestFields} {lines : List Bytes}
    (read : readServerLines infos fields lines = .ok result) :
    ∀ name ∈ lineNames "POST" lines, name ∉ infos.map (·.mountpoint) := by
  induction lines generalizing fields with
  | nil => exact fun name member => absurd member List.not_mem_nil
  | cons line rest inductionHypothesis =>
      rw [readServerLines] at read
      cases round : serverLine infos fields line with
      | error refusal =>
          rw [round] at read
          cases read
      | ok next =>
          rw [round] at read
          intro name member
          rcases mem_lineNames_cons.mp member with ⟨post, path⟩ | later
          · unfold serverLine at round
            rw [if_pos post, path] at round
            by_cases used : infos.any (fun info => name = info.mountpoint) = true
            · simp only [if_pos used] at round
              cases round
            · intro listed
              rcases List.mem_map.mp listed with ⟨info, inTable, same⟩
              exact used (List.any_eq_true.mpr ⟨info, inTable, by simpa using same.symm⟩)
          · exact inductionHypothesis read name later

/-- The records decide about a registration only by the names in use. -/
theorem registration_iff_unused {infos : List MountPointInformation} {buffer : Bytes}
    {fields : RequestFields} (post : dispatch buffer = .post) :
    registration infos buffer = some fields ↔ registration [] buffer = some fields ∧
      ∀ name ∈ lineNames "POST" (requestLines buffer), name ∉ infos.map (·.mountpoint) := by
  constructor
  · intro registered
    rcases (registration_eq_some_iff post).mp registered with ⟨ntripStr, reads⟩
    exact ⟨(registration_eq_some_iff post).mpr ⟨ntripStr, reads.forget⟩,
      readServerLines_unused reads.2.1⟩
  · rintro ⟨registered, unused⟩
    have nobody : infos.filter (named (lineNames "POST" (requestLines buffer))) = [] := by
      apply List.filter_eq_nil_iff.mpr
      intro info member isNamed
      exact unused _ (named_iff.mp isNamed) (List.mem_map_of_mem member)
    rw [← registration_filter (List.Subset.refl _), nobody]
    exact registered

theorem free_iff {infos : List MountPointInformation} {names : List Bytes} :
    Directory.Free (directory infos) names ↔
      ∀ name ∈ names, name ∉ infos.map (·.mountpoint) :=
  forall₂_congr fun _ _ => directory_eq_none_iff

theorem free_names_iff {infos : List MountPointInformation} {buffer : Bytes}
    {fields : RequestFields} (post : dispatch buffer = .post)
    (registered : registration [] buffer = some fields) :
    Directory.Free (directory infos)
        (fields.mountPoint :: lineNames "POST" (requestLines buffer)) ↔
      ∀ name ∈ lineNames "POST" (requestLines buffer), name ∉ infos.map (·.mountpoint) := by
  rw [free_iff, List.forall_mem_cons]
  exact and_iff_right_of_imp fun unused => unused _ (name_of_registration post registered)

/-- A record at the end of the table, under a free name. -/
theorem directory_append {infos : List MountPointInformation} {info : MountPointInformation}
    (unused : info.mountpoint ∉ infos.map (·.mountpoint)) :
    directory (infos ++ [info]) =
      Function.update (directory infos) info.mountpoint (some info.entry) := by
  funext name
  rw [Function.update_apply, directory, List.find?_append]
  split
  · rename_i same
    subst same
    have nobody := directory_eq_none_iff.mpr unused
    rw [directory, Option.map_eq_none_iff] at nobody
    rw [nobody]
    simp
  · rename_i other
    simp [directory, Ne.symm other]

/-- A further client of the record with a name. -/
theorem directory_addClient {before after : List MountPointInformation}
    {info : MountPointInformation} (fd : Fd)
    (distinct : ((before ++ info :: after).map (·.mountpoint)).Nodup) :
    directory (before ++ info.addClient fd :: after) =
      Function.update (directory (before ++ info :: after)) info.mountpoint
        (some (info.addClient fd).entry) := by
  funext name
  rw [Function.update_apply]
  split
  · rename_i same
    subst same
    refine (directory_eq_some_iff ?_).mpr ⟨info.addClient fd, by simp, rfl, rfl⟩
    rw [map_mountpoint_addClient]
    exact distinct
  · rename_i other
    simp [directory, List.find?_append, Ne.symm other]

/-! ## Departures -/

theorem departure_eq_some_iff {fd : Fd} {info left : MountPointInformation} :
    departure fd info = some left ↔ info.serverFd ≠ fd ∧ info.eraseClient fd = left := by
  unfold departure
  split
  · rename_i serves
    exact iff_of_false (Option.some_ne_none left).symm fun parts => parts.1 serves
  · rename_i other
    rw [Option.some_inj]
    exact (and_iff_right other).symm

theorem departure_of_notMem {fd : Fd} {info : MountPointInformation}
    (absent : fd ∉ info.descriptors) : departure fd info = some info := by
  rw [MountPointInformation.mem_descriptors, not_or] at absent
  refine departure_eq_some_iff.mpr ⟨Ne.symm absent.1, ?_⟩
  rw [MountPointInformation.eraseClient, List.erase_of_not_mem absent.2]

theorem filterMap_departure_of_notMem {fd : Fd} {infos : List MountPointInformation}
    (absent : ∀ info ∈ infos, fd ∉ info.descriptors) : infos.filterMap (departure fd) = infos := by
  rw [List.filterMap_congr fun info member => departure_of_notMem (absent info member)]
  exact List.filterMap_some

/-- Where no descriptor has two roles, the loop that stops at its first hit
treats every record. -/
theorem disconnect_eq_filterMap {caster : NtripCaster}
    (roles : (descriptors caster.mountPointInfos).Nodup) (fd : Fd) :
    (disconnect caster fd).1.mountPointInfos =
      caster.mountPointInfos.filterMap (departure fd) := by
  rcases exists_mentionSplit caster.mountPointInfos fd with absent | ⟨before, info, after, found⟩
  · rw [disconnect_of_notMem absent, filterMap_departure_of_notMem]
    intro info member mentioned
    exact absent (mem_descriptors.mpr ⟨info, member, mentioned⟩)
  · have behind : ∀ record ∈ after, fd ∉ record.descriptors := by
      intro record member mentioned
      rw [found.split, descriptors_append, descriptors_cons] at roles
      have later := (List.nodup_append.mp (List.nodup_append.mp roles).2.1).2.2
      exact later fd found.mentioned fd (mem_descriptors.mpr ⟨record, member, mentioned⟩) rfl
    have shape : caster.mountPointInfos.filterMap (departure fd) =
        before ++ (departure fd info).toList ++ after := by
      rw [found.split, List.filterMap_append, List.filterMap_cons,
        filterMap_departure_of_notMem found.unmentioned, filterMap_departure_of_notMem behind]
      cases departure fd info <;> simp
    by_cases serves : info.serverFd = fd
    · rw [shape, disconnect_of_server found serves, departure, if_pos serves]
      simp
    · rw [shape, disconnect_of_client found serves, departure, if_neg serves]
      simp

/-- The entry of a record that a descriptor has left. -/
theorem without_eq_some_iff {info : MountPointInformation}
    (distinct : info.clientSocketList.Nodup) {fd : Fd}
    {entry : Directory.Entry Fd Credentials} :
    info.entry.without fd = some entry ↔
      ∃ left, departure fd info = some left ∧ left.entry = entry := by
  have members : { other | other ∈ info.clientSocketList.erase fd } =
      { other | other ∈ info.clientSocketList } \ {fd} := by
    ext other
    simp [distinct.mem_erase_iff, and_comm]
  have fewer : (info.eraseClient fd).entry =
      ⟨info.serverFd, info.credentials, { other | other ∈ info.clientSocketList } \ {fd}⟩ :=
    congrArg (Directory.Entry.mk info.serverFd info.credentials) members
  rw [Directory.Entry.without_eq_some_iff]
  constructor
  · rintro ⟨other, rfl⟩
    exact ⟨info.eraseClient fd, departure_eq_some_iff.mpr ⟨other, rfl⟩, fewer⟩
  · rintro ⟨left, departed, rfl⟩
    rcases departure_eq_some_iff.mp departed with ⟨other, rfl⟩
    exact ⟨other, fewer.symm⟩

theorem mountpoint_of_departure {fd : Fd} {info left : MountPointInformation}
    (departed : departure fd info = some left) : left.mountpoint = info.mountpoint := by
  rcases departure_eq_some_iff.mp departed with ⟨_, rfl⟩
  rfl

theorem nodup_names_departure {infos : List MountPointInformation} (fd : Fd)
    (names : (infos.map (·.mountpoint)).Nodup) :
    ((infos.filterMap (departure fd)).map (·.mountpoint)).Nodup := by
  rw [List.Nodup, List.pairwise_map] at names ⊢
  apply names.filterMap
  intro info info' different left departed left' departed'
  rw [mountpoint_of_departure departed, mountpoint_of_departure departed']
  exact different

theorem directory_departure {infos : List MountPointInformation} (fd : Fd)
    (names : (infos.map (·.mountpoint)).Nodup) (roles : (descriptors infos).Nodup) :
    directory (infos.filterMap (departure fd)) =
      fun name => (directory infos name).bind (·.without fd) := by
  have clients : ∀ info ∈ infos, info.clientSocketList.Nodup := by
    intro info member
    have inRecord := (List.nodup_flatMap.mp roles).1 info member
    exact (List.nodup_cons.mp inRecord).2
  funext name
  apply Option.ext
  intro entry
  rw [directory_eq_some_iff (nodup_names_departure fd names), Option.bind_eq_some_iff]
  constructor
  · rintro ⟨left, member, rfl, rfl⟩
    rcases List.mem_filterMap.mp member with ⟨info, inTable, departed⟩
    refine ⟨info.entry, (directory_eq_some_iff names).mpr ⟨info, inTable, ?_, rfl⟩, ?_⟩
    · exact (mountpoint_of_departure departed).symm
    · exact (without_eq_some_iff (clients info inTable)).mpr ⟨left, departed, rfl⟩
  · rintro ⟨held, listed, stays⟩
    rcases (directory_eq_some_iff names).mp listed with ⟨info, inTable, rfl, rfl⟩
    rcases (without_eq_some_iff (clients info inTable)).mp stays with ⟨left, departed, rfl⟩
    exact ⟨left, List.mem_filterMap.mpr ⟨info, inTable, departed⟩,
      mountpoint_of_departure departed, rfl⟩

/-! ## One event -/

section Steps

variable {caster : NtripCaster} {outcomes : SendOutcomes} {fd : Fd} {buffer : Bytes}

theorem directory_registered {fields : RequestFields} {ntripStr : Bytes}
    (reads : PostReads caster.mountPointInfos buffer fields ntripStr) (taken : outcomes 0 = true) :
    directory (caster.mountPointInfos ++ [fields.toRecord fd]) =
      Execution.run Directory.step (directory caster.mountPointInfos)
        (Event.received fd buffer outcomes).actions := by
  rcases (registration_iff_unused reads.1).mp
    ((registration_eq_some_iff reads.1).mpr ⟨ntripStr, reads⟩) with ⟨registered, unused⟩
  have free := (free_names_iff reads.1 registered).mpr unused
  have actions : (Event.received fd buffer outcomes).actions =
      [.claim (lineNames "POST" (requestLines buffer)) fields.mountPoint fd fields.credentials] := by
    simp only [Event.actions, taken, reads.1, registered, if_true]
    rfl
  have opened : Directory.step (directory caster.mountPointInfos)
      (.claim (lineNames "POST" (requestLines buffer)) fields.mountPoint fd fields.credentials) =
      Function.update (directory caster.mountPointInfos) fields.mountPoint
        (some ⟨fd, fields.credentials, ∅⟩) := if_pos free
  have entry : (fields.toRecord fd).entry = ⟨fd, fields.credentials, ∅⟩ := by
    simp [MountPointInformation.entry, RequestFields.toRecord, MountPointInformation.credentials,
      RequestFields.credentials]
  rw [actions, directory_append (unused _ (name_of_registration reads.1 registered)), entry]
  exact opened.symm

theorem directory_admitted {fields : ClientFields} {before after : List MountPointInformation}
    {info : MountPointInformation} (names : (caster.mountPointInfos.map (·.mountpoint)).Nodup)
    (reads : GetReads buffer fields) (split : caster.mountPointInfos = before ++ info :: after)
    (good : fields.toRequestFields.Matches info) (taken : outcomes 0 = true) :
    directory (before ++ info.addClient fd :: after) =
      Execution.run Directory.step (directory caster.mountPointInfos)
        (Event.received fd buffer outcomes).actions := by
  have asked := (login_eq_some_iff reads.1).mpr ⟨fields, reads, rfl⟩
  have actions : (Event.received fd buffer outcomes).actions =
      [.subscribe info.mountpoint fd info.credentials] := by
    have same : fields.toRequestFields.credentials = info.credentials := by
      rw [RequestFields.credentials, MountPointInformation.credentials, good.2.1, good.2.2]
    rw [← same, ← good.1]
    simp only [Event.actions, taken, reads.1, asked, if_true]
    rfl
  have listed : directory (before ++ info :: after) info.mountpoint = some info.entry :=
    (directory_eq_some_iff (split ▸ names)).mpr ⟨info, by simp, rfl, rfl⟩
  have grown : info.entry.enrol fd info.credentials = (info.addClient fd).entry := by
    have members : insert fd { other | other ∈ info.clientSocketList } =
        { other | other ∈ (info.addClient fd).clientSocketList } := by
      ext other
      simp [or_comm]
    refine (if_pos rfl).trans ?_
    exact congrArg (Directory.Entry.mk info.serverFd info.credentials) members
  rw [actions, directory_addClient fd (split ▸ names), split]
  change _ = Function.update _ _ _
  rw [listed, Option.map_some, grown]

/-- A buffer that grants nothing amounts to nothing. -/
theorem run_of_not_granted (names : (caster.mountPointInfos.map (·.mountpoint)).Nodup)
    (ungranted : ¬ Granted caster outcomes buffer) :
    Execution.run Directory.step (directory caster.mountPointInfos)
        (Event.received fd buffer outcomes).actions = directory caster.mountPointInfos := by
  rw [Event.actions]
  split
  · rename_i taken
    split
    · rename_i post
      cases registered : registration [] buffer with
      | none => rfl
      | some fields =>
          refine if_neg fun free => ungranted (Or.inl ⟨?_, taken⟩)
          have unused := (free_names_iff post registered).mp free
          exact ⟨fields, (registration_eq_some_iff post).mp
            ((registration_iff_unused post).mpr ⟨registered, unused⟩)⟩
    · rename_i get
      cases asked : login buffer with
      | none => rfl
      | some wanted =>
          rcases (login_eq_some_iff get).mp asked with ⟨fields, reads, rfl⟩
          have kept : (directory caster.mountPointInfos fields.mountPoint).map
              (·.enrol fd fields.toRequestFields.credentials) =
                directory caster.mountPointInfos fields.mountPoint := by
            cases listed : directory caster.mountPointInfos fields.mountPoint with
            | none => rfl
            | some entry =>
                rcases (directory_eq_some_iff names).mp listed with ⟨info, member, named, rfl⟩
                refine congrArg some (if_neg fun same => ungranted (Or.inr ?_))
                have account := Credentials.mk.inj same
                refine ⟨fields, reads, 0, List.length_pos_of_mem (List.mem_filter.mpr
                  ⟨member, ?_⟩), taken⟩
                simp [RequestFields.Matches, named, account.1, account.2]
          change Function.update (directory caster.mountPointInfos) fields.mountPoint _ = _
          rw [kept]
          exact Function.update_eq_self _ _
    · rfl
  · rfl

/-- What a received buffer makes of the directory depends on nothing but its
text, its sender and whether the first reply is taken. -/
theorem directory_parseData (names : (caster.mountPointInfos.map (·.mountpoint)).Nodup) :
    directory (parseData caster outcomes fd buffer).caster.mountPointInfos =
      Execution.run Directory.step (directory caster.mountPointInfos)
        (Event.received fd buffer outcomes).actions := by
  have outcome := parseData_outcome caster outcomes fd buffer
  generalize parseData caster outcomes fd buffer = response at outcome
  cases outcome with
  | registered reads taken => exact directory_registered reads taken
  | admitted reads split good tried failed accepted =>
      rename_i fields before after info failures
      have alone : matchingRecords before fields.toRequestFields = [] := by
        apply List.filter_eq_nil_iff.mpr
        intro other earlier matched
        rw [split, List.map_append, List.map_cons, List.nodup_append] at names
        exact names.2.2 _ (List.mem_map_of_mem earlier) _ List.mem_cons_self
          ((of_decide_eq_true matched).1.symm.trans good.1)
      rw [← tried, alone] at accepted
      exact directory_admitted names reads split good accepted
  | forwarded kind served => exact (run_of_not_granted names (not_granted_of_data kind)).symm
  | reported kind served gga => exact (run_of_not_granted names (not_granted_of_data kind)).symm
  | refused refusal harmless =>
      exact (run_of_not_granted names (not_granted_of_refused refusal)).symm

end Steps

/-! ## Whole runs -/

/-- Names are distinct and no descriptor has two roles. -/
structure Tidy (sys : System) : Prop where
  table : TableWellFormed sys.caster.mountPointInfos
  roles : OneRole sys

theorem step_directory (sys : System) (event : Event) (tidy : Tidy sys)
    (single : NoSecondRole sys event) :
    Tidy (sys.step event) ∧
      directory (sys.step event).caster.mountPointInfos =
        Execution.run Directory.step (directory sys.caster.mountPointInfos) event.actions := by
  refine ⟨⟨step_wellFormed sys event tidy.table,
    (step_oneRole_iff sys event tidy.roles).mpr single⟩, ?_⟩
  rw [Event.step_caster]
  cases event with
  | accept fresh => rfl
  | received fd buffer outcomes => exact directory_parseData tidy.table.distinct
  | disconnected fd =>
      refine (congrArg directory (disconnect_eq_filterMap tidy.roles fd)).trans ?_
      exact directory_departure fd tidy.table.distinct tidy.roles

theorem tidy_init : Tidy System.init where
  table := ⟨fun _ member => absurd member List.not_mem_nil, List.nodup_nil⟩
  roles := List.nodup_nil

/-- The requests and departures of a run, in order. -/
def requests (events : List Event) : List (Directory.Action Bytes Fd Credentials) :=
  events.flatMap Event.actions

/-- While nobody is granted a second role, the records are the directory that
the requests and departures of the run make. -/
theorem directory_run (events : List Event)
    (single : Execution.EachStep System.step NoSecondRole System.init events) :
    directory (Execution.run System.step System.init events).caster.mountPointInfos =
      Directory.after (requests events) :=
  Execution.run_flatMap_of_view (fun sys => directory sys.caster.mountPointInfos) Event.actions
    step_directory tidy_init single

/-! ## Who hears whom -/

theorem mem_audience_directory_iff {infos : List MountPointInformation}
    (names : (infos.map (·.mountpoint)).Nodup) {fd client : Fd} :
    client ∈ Directory.audience (directory infos) fd ↔
      ∃ info ∈ infos, info.serverFd = fd ∧ client ∈ info.clientSocketList := by
  constructor
  · rintro ⟨name, entry, listed, serves, subscribed⟩
    rcases (directory_eq_some_iff names).mp listed with ⟨info, member, _, rfl⟩
    exact ⟨info, member, serves, subscribed⟩
  · rintro ⟨info, member, serves, subscribed⟩
    exact ⟨info.mountpoint, info.entry,
      (directory_eq_some_iff names).mpr ⟨info, member, rfl, rfl⟩, serves, subscribed⟩

/-- A server's bytes go once to each of those who hear it. -/
theorem messages_eq {caster : NtripCaster}
    (names : (caster.mountPointInfos.map (·.mountpoint)).Nodup)
    (roles : (descriptors caster.mountPointInfos).Nodup) {buffer : Bytes}
    (data : ¬ LooksLikeRequest buffer) (outcomes : SendOutcomes) (fd client : Fd) :
    (client ∈ Directory.audience (directory caster.mountPointInfos) fd →
      ((parseData caster outcomes fd buffer).sends.filter fun call => call.fd = client).map
        SendCall.message = [buffer]) ∧
    (client ∉ Directory.audience (directory caster.mountPointInfos) fd →
      ((parseData caster outcomes fd buffer).sends.filter fun call => call.fd = client).map
        SendCall.message = []) := by
  rw [mem_audience_directory_iff names]
  cases served : servedRecord caster.mountPointInfos fd with
  | none =>
      have silent : (parseData caster outcomes fd buffer).sends = [] := by
        simp only [parseData, (dispatch_eq_data_iff buffer).mpr data, tryToForwardServerData, served]
        split <;> rfl
      rw [silent]
      refine ⟨?_, fun _ => rfl⟩
      rintro ⟨info, member, serves, _⟩
      exact absurd (decide_eq_true serves) (List.find?_eq_none.mp served info member)
  | some info =>
      have inTable := List.mem_of_find?_eq_some served
      have serves : info.serverFd = fd := by simpa using List.find?_some served
      have mentioned : fd ∈ info.descriptors := (info.mem_descriptors fd).mpr (Or.inl serves.symm)
      have once := List.count_eq_one_of_mem roles (mem_descriptors.mpr ⟨info, inTable, mentioned⟩)
      have sole := (record_of_count_one once inTable mentioned).2
      have clients : info.clientSocketList.Nodup :=
        (List.nodup_cons.mp ((List.nodup_flatMap.mp roles).1 info inTable)).2
      rw [parseData_of_served data served, forwardTo_messages]
      constructor
      · rintro ⟨other, member, otherServes, listed⟩
        obtain rfl := sole other member ((other.mem_descriptors fd).mpr (Or.inl otherServes.symm))
        rw [List.count_eq_one_of_mem clients listed]
        rfl
      · intro unheard
        have absent : client ∉ info.clientSocketList :=
          fun listed => unheard ⟨info, inTable, serves, listed⟩
        rw [List.count_eq_zero_of_not_mem absent]
        rfl

theorem tidy_run {events : List Event}
    (single : Execution.EachStep System.step NoSecondRole System.init events) :
    Tidy (Execution.run System.step System.init events) :=
  (Execution.always_of_eachStep (fun sys event tidy one => (step_directory sys event tidy one).1)
    tidy_init single).last

/-- In every run in which no number is granted a second role, the record of a
mount point is determined by the requests of the past and the calls of
`Disconnect`. -/
theorem mount_point_by_history (events : List Event)
    (single : Execution.EachStep System.step NoSecondRole System.init events) (name : Bytes)
    (entry : Directory.Entry Fd Credentials) :
    (∃ info ∈ (Execution.run System.step System.init events).caster.mountPointInfos,
        info.mountpoint = name ∧ info.entry = entry) ↔
      Directory.Standing (requests events) name entry := by
  rw [← directory_eq_some_iff (tidy_run single).table.distinct, directory_run events single]
  exact Directory.after_eq_some_iff

/-- In every run in which no number is granted a second role, bytes that come
in on a descriptor and that do not look like a request go once to each
descriptor that hears it, by the requests of the past and the calls of
`Disconnect`, and to no other. -/
theorem delivered_by_history (events : List Event)
    (single : Execution.EachStep System.step NoSecondRole System.init events) (fd client : Fd)
    (buffer : Bytes) (data : ¬ LooksLikeRequest buffer) (outcomes : SendOutcomes) :
    (Directory.Hears (requests events) fd client →
      ((parseData (Execution.run System.step System.init events).caster outcomes fd
        buffer).sends.filter fun call => call.fd = client).map SendCall.message = [buffer]) ∧
    (¬ Directory.Hears (requests events) fd client →
      ((parseData (Execution.run System.step System.init events).caster outcomes fd
        buffer).sends.filter fun call => call.fd = client).map SendCall.message = []) := by
  have tidy := tidy_run single
  rw [← Directory.mem_audience_after_iff, ← directory_run events single]
  exact messages_eq tidy.table.distinct tidy.roles data outcomes fd client

/-- A server registers, a client asks for its mount point, another one for a
mount point that nobody serves. -/
def publishing : List Event :=
  [.accept 5,
    .received 5 (ascii "POST /A HTTP/1.1\r\nAuthorization: Basic dTpw\r\n") (fun _ => true),
    .accept 8,
    .received 8 (ascii "GET /A HTTP/1.1\r\nAuthorization: Basic dTpw\r\n") (fun _ => true),
    .accept 9,
    .received 9 (ascii "GET /B HTTP/1.1\r\nAuthorization: Basic dTpw\r\n") (fun _ => true)]

theorem requests_publishing :
    requests publishing =
      [.claim [ascii "A"] (ascii "A") 5 ⟨ascii "u", ascii "p"⟩,
        .subscribe (ascii "A") 8 ⟨ascii "u", ascii "p"⟩,
        .subscribe (ascii "B") 9 ⟨ascii "u", ascii "p"⟩] := by
  decide +kernel

theorem single_publishing :
    Execution.EachStep System.step NoSecondRole System.init publishing := by
  have one : Execution.Always System.step OneRole System.init publishing := by decide +kernel
  exact (Execution.always_iff_eachStep (fun sys event one _ => step_oneRole_iff sys event one)
    tidy_init.roles (Execution.eachStep_of_forall (fun _ _ => trivial) _ publishing)).mp one

theorem mount_point_by_history_publishing :
    Directory.Standing (requests publishing) (ascii "A") ⟨5, ⟨ascii "u", ascii "p"⟩, {8}⟩ := by
  apply (mount_point_by_history publishing single_publishing _ _).mp
  have records : (Execution.run System.step System.init publishing).caster.mountPointInfos =
      [⟨5, ascii "A", ascii "u", ascii "p", [8]⟩] := by
    decide +kernel
  rw [records]
  refine ⟨_, List.mem_singleton_self _, rfl, ?_⟩
  have clients : { fd : Fd | fd ∈ [8] } = {8} := by simp
  exact congrArg (Directory.Entry.mk 5 (Credentials.mk (ascii "u") (ascii "p"))) clients

theorem delivered_by_history_publishing :
    ((parseData (Execution.run System.step System.init publishing).caster (fun _ => true) 5
      [0xD3, 0, 0]).sends.filter fun call => call.fd = 8).map SendCall.message =
        [[0xD3, 0, 0]] := by
  apply (delivered_by_history publishing single_publishing 5 8 [0xD3, 0, 0] (by decide) _).1
  rw [requests_publishing]
  refine ⟨[], _, _, _, _, rfl, fun _ _ => rfl, by decide, [], _, rfl, by decide⟩

end Ntrip
