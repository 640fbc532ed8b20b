import Ntrip.Foundation.Locality
import Ntrip.Caster.Isolation

namespace Ntrip

/-!
# Independent events commute

When every send is taken, an event acts on the mount table alone, and
`Event.effect` is that action as one expression: a `POST` appends a record, a
`GET` alters the first record it names, a disconnect alters or removes the
first record that mentions the descriptor.  Each action is local to the
records that have a name in the event's footprint, so events with disjoint
footprints commute.
-/

open Sequence

/-! ## Footprints -/

/-- The mount points named by the lines of one method. -/
def lineNames (method : String) (lines : List Bytes) : List Bytes :=
  lines.filterMap fun line => if mentions line method then requestPath line else none

/-- The mount points that a buffer's request lines are parsed to.
`ServerConnectRequest` reads the `POST` lines, `ClientConnectRequest` the
`GET` lines, and other buffers are not parsed. -/
def parsedNames (buffer : Bytes) : List Bytes :=
  match dispatch buffer with
  | .post => lineNames "POST" (requestLines buffer)
  | .get => lineNames "GET" (requestLines buffer)
  | _ => []

namespace Event

/-- The names that an event's text contains. -/
def names : Event → List Bytes
  | .received _ buffer _ => parsedNames buffer
  | _ => []

/-- The names of the records that mention the descriptor, and the names that
the event's text contains. -/
def footprint (caster : NtripCaster) (event : Event) : List Bytes :=
  (caster.mountPointInfos.filter fun info => event.fd ∈ info.descriptors).map (·.mountpoint) ++
    event.names

/-- Every `send` takes the whole message. -/
def Taken : Event → Prop
  | .received _ _ outcomes => ∀ index, outcomes index = true
  | _ => True

/-- What `ParseData` returns; the other events return nothing. -/
def ret (caster : NtripCaster) : Event → Option Int
  | .received fd buffer outcomes => some (parseData caster outcomes fd buffer).ret
  | _ => none

end Event

/-! ## The action of an event on the mount table -/

/-- What a buffer that is taken for a `POST` registers. -/
def registration (infos : List MountPointInformation) (buffer : Bytes) : Option RequestFields :=
  match readServerLines infos {} (requestLines buffer) with
  | .error _ => none
  | .ok fields =>
      if (readStrLines fields.mountPoint [] (requestLines buffer)).isSome ∧ fields.Complete then
        some fields
      else none

/-- What a buffer that is taken for a `GET` asks for. -/
def login (buffer : Bytes) : Option RequestFields :=
  let fields := readClientLines {} (requestLines buffer)
  if fields.Complete then some fields.toRequestFields else none

/-- What a disconnect makes of the record that it finds. -/
def departure (fd : Fd) (info : MountPointInformation) : Option MountPointInformation :=
  if info.serverFd = fd then none else some (info.eraseClient fd)

/-- The table with the client in the first record that it asks for. -/
def admission (fd : Fd) (fields : RequestFields) (infos : List MountPointInformation) :
    List MountPointInformation :=
  alterFirst (fun info => fields.Matches info) (fun info => some (info.addClient fd)) infos

/-- The return value and the table of an event whose sends are all taken. -/
def Event.effect (infos : List MountPointInformation) :
    Event → Option Int × List MountPointInformation
  | .accept _ => (none, infos)
  | .disconnected fd =>
      (none, alterFirst (fun info => fd ∈ info.descriptors) (departure fd) infos)
  | .received fd buffer _ =>
      match dispatch buffer with
      | .post =>
          match registration infos buffer with
          | some fields => (some 0, infos ++ [fields.toRecord fd])
          | none => (some (-1), infos)
      | .get =>
          match login buffer with
          | some fields =>
              if infos.any fun info => fields.Matches info then
                (some 0, admission fd fields infos)
              else (some (-1), infos)
          | none => (some (-1), infos)
      | .unknownVersion => (some (-1), infos)
      | .data =>
          (some (if (servedRecord infos fd).isSome || mentionsGga buffer then 0 else -1), infos)

theorem registration_eq_some_iff {infos : List MountPointInformation} {buffer : Bytes}
    {fields : RequestFields} (post : dispatch buffer = .post) :
    registration infos buffer = some fields ↔
      ∃ ntripStr, PostReads infos buffer fields ntripStr := by
  unfold registration PostReads
  cases read : readServerLines infos {} (requestLines buffer) with
  | error refusal => simp
  | ok found =>
      by_cases complete : found.Complete
      · cases str : readStrLines found.mountPoint [] (requestLines buffer) with
        | none =>
            constructor
            · intro registered
              simp [str] at registered
            · rintro ⟨ntripStr, _, same, reads, _⟩
              rw [← Except.ok.inj same, str] at reads
              cases reads
        | some text =>
            constructor
            · intro registered
              have same : found = fields := by simpa [str, complete] using registered
              subst same
              exact ⟨text, post, rfl, str, complete⟩
            · rintro ⟨ntripStr, _, same, reads, _⟩
              rw [← Except.ok.inj same]
              simp [str, complete]
      · constructor
        · intro registered
          simp [complete] at registered
        · rintro ⟨ntripStr, _, same, _, whole⟩
          rw [← Except.ok.inj same] at whole
          exact absurd whole complete

theorem login_eq_some_iff {buffer : Bytes} {fields : RequestFields}
    (get : dispatch buffer = .get) :
    login buffer = some fields ↔
      ∃ read, GetReads buffer read ∧ read.toRequestFields = fields := by
  unfold login GetReads
  by_cases complete : (readClientLines {} (requestLines buffer)).Complete
  · constructor
    · intro asked
      exact ⟨_, ⟨get, rfl, complete⟩, by simpa [complete] using asked⟩
    · rintro ⟨read, ⟨_, same, whole⟩, rfl⟩
      simp [same, whole]
  · constructor
    · intro asked
      simp [complete] at asked
    · rintro ⟨read, ⟨_, same, whole⟩, _⟩
      rw [← same] at whole
      exact absurd whole complete

theorem disconnect_eq_alterFirst (caster : NtripCaster) (fd : Fd) :
    (disconnect caster fd).1.mountPointInfos =
      alterFirst (fun info => fd ∈ info.descriptors) (departure fd) caster.mountPointInfos := by
  rcases exists_mentionSplit caster.mountPointInfos fd with absent | ⟨before, info, after, found⟩
  · rw [disconnect_of_notMem absent, alterFirst_of_miss]
    intro info member
    apply decide_eq_false
    intro mentioned
    exact absent (mem_descriptors.mpr ⟨info, member, mentioned⟩)
  · have earlier : ∀ other ∈ before, decide (fd ∈ other.descriptors) = false := by
      intro other member
      exact decide_eq_false (found.unmentioned other member)
    rw [found.split, alterFirst_split earlier (decide_eq_true found.mentioned), departure]
    by_cases serves : info.serverFd = fd
    · rw [disconnect_of_server found serves, if_pos serves]
      rfl
    · rw [disconnect_of_client found serves, if_neg serves]
      rfl

section Effect

variable {caster : NtripCaster} {outcomes : SendOutcomes} {fd : Fd} {buffer : Bytes}

/-- The first record that a client asks for takes it in. -/
theorem effect_of_admitted {fields : ClientFields} {before after : List MountPointInformation}
    {info : MountPointInformation} (reads : GetReads buffer fields)
    (split : caster.mountPointInfos = before ++ info :: after)
    (good : fields.toRequestFields.Matches info)
    (first : matchingRecords before fields.toRequestFields = []) :
    (Event.received fd buffer outcomes).effect caster.mountPointInfos =
      (some 0, before ++ info.addClient fd :: after) := by
  have asked := (login_eq_some_iff reads.1).mpr ⟨_, reads, rfl⟩
  have earlier : ∀ other ∈ before, decide (fields.toRequestFields.Matches other) = false := by
    intro other member
    exact Bool.eq_false_iff.mpr (List.filter_eq_nil_iff.mp first other member)
  have hit : caster.mountPointInfos.any
      (fun info => fields.toRequestFields.Matches info) = true := by
    apply List.any_eq_true.mpr
    refine ⟨info, ?_, decide_eq_true good⟩
    rw [split]
    exact List.mem_append_right before List.mem_cons_self
  simp only [Event.effect, reads.1, asked, hit, if_true, admission]
  rw [split, alterFirst_split earlier (decide_eq_true good)]
  rfl

/-- A buffer that is refused although its sends are taken changes nothing. -/
theorem effect_of_refused (refusal : Refused caster outcomes fd buffer)
    (taken : ∀ index, outcomes index = true) :
    (Event.received fd buffer outcomes).effect caster.mountPointInfos =
      (some (-1), caster.mountPointInfos) := by
  rw [Refused] at refusal
  unfold Event.effect
  cases kind : dispatch buffer with
  | post =>
      rw [kind] at refusal
      have unasked : registration caster.mountPointInfos buffer = none := by
        apply Option.eq_none_iff_forall_ne_some.mpr
        intro fields asked
        exact refusal ⟨⟨fields, (registration_eq_some_iff kind).mp asked⟩, taken 0⟩
      simp only [kind, unasked]
  | get =>
      rw [kind] at refusal
      cases asked : login buffer with
      | none => simp only [kind, asked]
      | some fields =>
          rcases (login_eq_some_iff kind).mp asked with ⟨read, reads, rfl⟩
          have miss : caster.mountPointInfos.any
              (fun info => read.toRequestFields.Matches info) = false := by
            apply Bool.eq_false_iff.mpr
            intro hit
            rcases List.any_eq_true.mp hit with ⟨info, member, good⟩
            have present : info ∈ matchingRecords caster.mountPointInfos
                read.toRequestFields := List.mem_filter.mpr ⟨member, good⟩
            exact refusal ⟨read, reads, 0, List.length_pos_of_mem present, taken 0⟩
          simp only [kind, asked, miss, Bool.false_eq_true, if_false]
  | unknownVersion => simp only [kind]
  | data =>
      rw [kind] at refusal
      simp [kind, refusal.1, refusal.2]

end Effect

/-- An event whose sends are all taken returns and leaves in the mount table
what its action says. -/
theorem effect_eq (caster : NtripCaster) (event : Event) (taken : event.Taken) :
    (event.ret caster, (event.tables caster).mountPointInfos) =
      event.effect caster.mountPointInfos := by
  cases event with
  | accept fd => rfl
  | disconnected fd => exact congrArg (Prod.mk none) (disconnect_eq_alterFirst caster fd)
  | received fd buffer outcomes =>
      have outcome := parseData_outcome caster outcomes fd buffer
      change (some (parseData caster outcomes fd buffer).ret,
        (parseData caster outcomes fd buffer).caster.mountPointInfos) = _
      generalize parseData caster outcomes fd buffer = response at outcome
      cases outcome with
      | registered reads accepted =>
          have asked := (registration_eq_some_iff reads.1).mpr ⟨_, reads⟩
          simp only [Event.effect, reads.1, asked]
          rfl
      | admitted reads split good tried failed accepted =>
          rename_i fields before after info failures
          have first : failures = 0 := by
            rcases Nat.eq_zero_or_pos failures with zero | positive
            · exact zero
            · have impossible := failed 0 positive
              rw [taken 0] at impossible
              cases impossible
          have none_match := List.length_eq_zero_iff.mp (tried.trans first)
          exact (effect_of_admitted reads split good none_match).symm
      | forwarded kind served => simp [Event.effect, kind, served]
      | reported kind served gga => simp [Event.effect, kind, served, gga]
      | refused refusal harmless => exact (effect_of_refused refusal taken).symm

/-! ## Each action is local to the names of its event -/

/-- The record has one of the names. -/
def named (names : List Bytes) (info : MountPointInformation) : Bool :=
  info.mountpoint ∈ names

theorem named_iff {names : List Bytes} {info : MountPointInformation} :
    named names info = true ↔ info.mountpoint ∈ names :=
  decide_eq_true_iff

theorem mem_lineNames_cons {method : String} {line name : Bytes} {lines : List Bytes} :
    name ∈ lineNames method (line :: lines) ↔
      (mentions line method = true ∧ requestPath line = some name) ∨
        name ∈ lineNames method lines := by
  have here : (if mentions line method then requestPath line else none) = some name ↔
      mentions line method = true ∧ requestPath line = some name := by
    cases mentions line method <;> simp
  unfold lineNames
  rw [List.mem_filterMap, List.mem_filterMap, List.exists_mem_cons_iff, here]

theorem serverLine_filter {names : List Bytes} {infos : List MountPointInformation}
    {line : Bytes} (fields : RequestFields)
    (covers : ∀ name, mentions line "POST" = true → requestPath line = some name → name ∈ names) :
    serverLine (infos.filter (named names)) fields line = serverLine infos fields line := by
  unfold serverLine
  split
  · rename_i post
    cases path : requestPath line with
    | none => rfl
    | some name =>
        have used : (infos.filter (named names)).any (fun info => name = info.mountpoint) =
            infos.any (fun info => name = info.mountpoint) := by
          apply any_filter_of_hits
          intro info _ same
          rw [decide_eq_true_iff] at same
          exact named_iff.mpr (same ▸ covers name post path)
        simp only [used]
  · rfl

theorem readServerLines_filter {names : List Bytes} {infos : List MountPointInformation}
    {lines : List Bytes} (fields : RequestFields) (covers : lineNames "POST" lines ⊆ names) :
    readServerLines (infos.filter (named names)) fields lines =
      readServerLines infos fields lines := by
  induction lines generalizing fields with
  | nil => rfl
  | cons line rest inductionHypothesis =>
      have here : serverLine (infos.filter (named names)) fields line =
          serverLine infos fields line :=
        serverLine_filter fields fun name post path =>
          covers (mem_lineNames_cons.mpr (Or.inl ⟨post, path⟩))
      have later : lineNames "POST" rest ⊆ names :=
        fun name member => covers (mem_lineNames_cons.mpr (Or.inr member))
      rw [readServerLines, readServerLines, here]
      cases serverLine infos fields line with
      | error refusal => rfl
      | ok next => exact inductionHypothesis next later

/-- The name that the header loop of a server's request ends with. -/
theorem readServerLines_name {infos : List MountPointInformation} {fields result : RequestFields}
    {lines : List Bytes} (read : readServerLines infos fields lines = .ok result) :
    result.mountPoint = fields.mountPoint ∨ result.mountPoint ∈ lineNames "POST" lines := by
  induction lines generalizing fields with
  | nil => exact Or.inl (congrArg RequestFields.mountPoint (Except.ok.inj read).symm)
  | cons line rest inductionHypothesis =>
      rw [readServerLines] at read
      cases round : serverLine infos fields line with
      | error refusal =>
          rw [round] at read
          cases read
      | ok next =>
          rw [round] at read
          have first : next.mountPoint = fields.mountPoint ∨
              (mentions line "POST" = true ∧ requestPath line = some next.mountPoint) := by
            unfold serverLine at round
            split at round
            · rename_i post
              cases path : requestPath line with
              | none => simp [path] at round
              | some name =>
                  simp only [path] at round
                  split at round
                  · cases round
                  · refine Or.inr ⟨post, ?_⟩
                    rw [← Except.ok.inj round]
            · refine Or.inl ?_
              split at round
              · split at round
                · cases round
                · rw [← Except.ok.inj round]
              · rw [← Except.ok.inj round]
          rcases inductionHypothesis read with same | listed
          · rcases first with kept | named
            · exact Or.inl (same.trans kept)
            · exact Or.inr (mem_lineNames_cons.mpr (Or.inl ⟨named.1, same ▸ named.2⟩))
          · exact Or.inr (mem_lineNames_cons.mpr (Or.inr listed))

/-- The name that the loop of a client's request ends with. -/
theorem readClientLines_name (fields : ClientFields) (lines : List Bytes) :
    (readClientLines fields lines).mountPoint = fields.mountPoint ∨
      (readClientLines fields lines).mountPoint ∈ lineNames "GET" lines := by
  induction lines generalizing fields with
  | nil => exact Or.inl rfl
  | cons line rest inductionHypothesis =>
      have first : (clientLine fields line).1.mountPoint = fields.mountPoint ∨
          (mentions line "GET" = true ∧
            requestPath line = some (clientLine fields line).1.mountPoint) := by
        unfold clientLine
        split
        · rename_i get
          cases path : requestPath line with
          | none =>
              refine Or.inl ?_
              dsimp only
              split <;> rfl
          | some name => exact Or.inr ⟨get, rfl⟩
        · split
          · split
            · exact Or.inl rfl
            · exact Or.inl rfl
          · exact Or.inl rfl
      rw [readClientLines]
      rcases round : clientLine fields line with ⟨next, goesOn⟩
      rw [round] at first
      cases goesOn with
      | false =>
          rcases first with kept | named
          · exact Or.inl kept
          · exact Or.inr (mem_lineNames_cons.mpr (Or.inl named))
      | true =>
          rcases inductionHypothesis next with same | listed
          · rcases first with kept | named
            · exact Or.inl (same.trans kept)
            · exact Or.inr (mem_lineNames_cons.mpr (Or.inl ⟨named.1, same ▸ named.2⟩))
          · exact Or.inr (mem_lineNames_cons.mpr (Or.inr listed))

theorem registration_filter {names : List Bytes} {infos : List MountPointInformation}
    {buffer : Bytes} (covers : lineNames "POST" (requestLines buffer) ⊆ names) :
    registration (infos.filter (named names)) buffer = registration infos buffer := by
  unfold registration
  rw [readServerLines_filter {} covers]

theorem name_of_registration {infos : List MountPointInformation} {buffer : Bytes}
    {fields : RequestFields} (post : dispatch buffer = .post)
    (registered : registration infos buffer = some fields) :
    fields.mountPoint ∈ lineNames "POST" (requestLines buffer) := by
  rcases (registration_eq_some_iff post).mp registered with ⟨_, reads⟩
  rcases readServerLines_name reads.2.1 with empty | listed
  · exact absurd empty reads.2.2.2.1
  · exact listed

theorem name_of_login {buffer : Bytes} {fields : RequestFields} (get : dispatch buffer = .get)
    (asked : login buffer = some fields) :
    fields.mountPoint ∈ lineNames "GET" (requestLines buffer) := by
  rcases (login_eq_some_iff get).mp asked with ⟨read, reads, rfl⟩
  rcases reads with ⟨_, rfl, complete⟩
  rcases readClientLines_name {} (requestLines buffer) with empty | listed
  · exact absurd empty complete.1
  · exact listed

/-- Names that cover an event: those in its text, and those of the records
that mention its descriptor. -/
structure Covers (names : List Bytes) (infos : List MountPointInformation) (event : Event) :
    Prop where
  text : event.names ⊆ names
  mentioned : ∀ info ∈ infos, event.fd ∈ info.descriptors → info.mountpoint ∈ names

/-- An event that acts alike on the table and on the covered part of it is
local when its action is. -/
theorem effect_local_of {names : List Bytes} {infos : List MountPointInformation} {event : Event}
    {action : List MountPointInformation → List MountPointInformation} (value : Option Int)
    (acts : LocalAt (named names) action infos)
    (whole : event.effect infos = (value, action infos))
    (inPart : event.effect (infos.filter (named names)) =
      (value, action (infos.filter (named names)))) :
    LocalAt (named names) (fun infos => (event.effect infos).2) infos ∧
      (event.effect (infos.filter (named names))).1 = (event.effect infos).1 := by
  constructor
  · exact acts.congr (congrArg Prod.snd whole) (congrArg Prod.snd inPart)
  · rw [whole, inPart]

theorem departure_local {names : List Bytes} {infos : List MountPointInformation} {fd : Fd}
    (covers : Covers names infos (.disconnected fd)) :
    LocalAt (named names) (alterFirst (fun info => fd ∈ info.descriptors) (departure fd))
      infos := by
  apply localAt_alterFirst
  · intro info member mentions
    exact named_iff.mpr (covers.mentioned info member (of_decide_eq_true mentions))
  · intro info member mentions changed change
    have inPart := covers.mentioned info member (of_decide_eq_true mentions)
    unfold departure at change
    split at change
    · cases change
    · rw [← Option.some.inj change]
      exact named_iff.mpr inPart

section Buffers

variable {names : List Bytes} {infos : List MountPointInformation} {fd : Fd} {buffer : Bytes}
variable {outcomes : SendOutcomes}

theorem post_local (kind : dispatch buffer = .post)
    (text : lineNames "POST" (requestLines buffer) ⊆ names) :
    LocalAt (named names)
        (fun infos => ((Event.received fd buffer outcomes).effect infos).2) infos ∧
      ((Event.received fd buffer outcomes).effect (infos.filter (named names))).1 =
        ((Event.received fd buffer outcomes).effect infos).1 := by
  have alike : registration (infos.filter (named names)) buffer = registration infos buffer :=
    registration_filter text
  cases registered : registration infos buffer with
  | none =>
      rw [registered] at alike
      apply effect_local_of (some (-1)) (localAt_id (named names) infos)
      · simp only [Event.effect, kind, registered]
      · simp only [Event.effect, kind, alike]
  | some fields =>
      rw [registered] at alike
      have added : ∀ info ∈ [fields.toRecord fd], named names info = true := by
        intro info member
        rw [List.mem_singleton.mp member]
        exact named_iff.mpr (text (name_of_registration kind registered))
      apply effect_local_of (some 0) (localAt_append added infos)
      · simp only [Event.effect, kind, registered]
      · simp only [Event.effect, kind, alike]

theorem get_local (kind : dispatch buffer = .get)
    (text : lineNames "GET" (requestLines buffer) ⊆ names) :
    LocalAt (named names)
        (fun infos => ((Event.received fd buffer outcomes).effect infos).2) infos ∧
      ((Event.received fd buffer outcomes).effect (infos.filter (named names))).1 =
        ((Event.received fd buffer outcomes).effect infos).1 := by
  cases asked : login buffer with
  | none =>
      apply effect_local_of (some (-1)) (localAt_id (named names) infos)
      · simp only [Event.effect, kind, asked]
      · simp only [Event.effect, kind, asked]
  | some fields =>
      have inNames := text (name_of_login kind asked)
      have hits : ∀ info ∈ infos, decide (fields.Matches info) = true →
          named names info = true := by
        intro info _ good
        exact named_iff.mpr ((of_decide_eq_true good).1 ▸ inNames)
      have alike : (infos.filter (named names)).any (fun info => fields.Matches info) =
          infos.any (fun info => fields.Matches info) := any_filter_of_hits hits
      cases hit : infos.any (fun info => fields.Matches info) with
      | false =>
          rw [hit] at alike
          apply effect_local_of (some (-1)) (localAt_id (named names) infos)
          · simp only [Event.effect, kind, asked, hit, Bool.false_eq_true, if_false]
          · simp only [Event.effect, kind, asked, alike, Bool.false_eq_true, if_false]
      | true =>
          rw [hit] at alike
          have admitted : LocalAt (named names) (admission fd fields) infos := by
            apply localAt_alterFirst hits
            intro info member good changed change
            rw [← Option.some.inj change]
            exact hits info member good
          apply effect_local_of (some 0) admitted
          · simp only [Event.effect, kind, asked, hit, if_true]
          · simp only [Event.effect, kind, asked, alike, if_true]

end Buffers

/-- The action neither changes nor consults records without a covering name,
and the return value does not depend on them either. -/
theorem effect_local {names : List Bytes} {infos : List MountPointInformation} {event : Event}
    (covers : Covers names infos event) :
    LocalAt (named names) (fun infos => (event.effect infos).2) infos ∧
      (event.effect (infos.filter (named names))).1 = (event.effect infos).1 := by
  cases event with
  | accept fd => exact effect_local_of none (localAt_id (named names) infos) rfl rfl
  | disconnected fd => exact effect_local_of none (departure_local covers) rfl rfl
  | received fd buffer outcomes =>
      have text : parsedNames buffer ⊆ names := covers.text
      unfold parsedNames at text
      cases kind : dispatch buffer with
      | unknownVersion =>
          apply effect_local_of (some (-1)) (localAt_id (named names) infos)
          · simp only [Event.effect, kind]
          · simp only [Event.effect, kind]
      | data =>
          have served : servedRecord (infos.filter (named names)) fd = servedRecord infos fd := by
            apply find?_filter_of_hits
            intro info member serves
            have mentioned := (info.mem_descriptors fd).mpr
              (Or.inl (of_decide_eq_true serves).symm)
            exact named_iff.mpr (covers.mentioned info member mentioned)
          apply effect_local_of (some (if (servedRecord infos fd).isSome || mentionsGga buffer
            then 0 else -1)) (localAt_id (named names) infos)
          · simp only [Event.effect, kind]
          · simp only [Event.effect, kind, served]
      | post =>
          simp only [kind] at text
          exact post_local kind text
      | get =>
          simp only [kind] at text
          exact get_local kind text

/-! ## Two events -/

/-- The footprint covers its event. -/
theorem covers_footprint (caster : NtripCaster) (event : Event) :
    Covers (event.footprint caster) caster.mountPointInfos event := by
  constructor
  · exact List.subset_append_right _ _
  · intro info member mentions
    apply List.mem_append_left
    exact List.mem_map_of_mem (List.mem_filter.mpr ⟨member, decide_eq_true mentions⟩)

/-- Another descriptor's event brings the descriptor into no new record. -/
theorem Covers.after {names : List Bytes} {caster : NtripCaster} {event other : Event}
    (covers : Covers names caster.mountPointInfos event) (different : other.fd ≠ event.fd) :
    Covers names (other.tables caster).mountPointInfos event := by
  refine ⟨covers.text, ?_⟩
  intro info' member mentions
  rcases evolves_tables caster other with ⟨survivors, fresh, shape, evolves, added⟩
  rw [shape] at member
  rcases List.mem_append.mp member with kept | new
  · rcases evolves.mem kept with ⟨info, listed, updated⟩
    rw [updated.mountpoint]
    exact covers.mentioned info listed (updated.mem_descriptors different.symm mentions)
  · rw [added info' new] at mentions
    exact absurd (List.mem_singleton.mp mentions).symm different

theorem named_apart {left right : List Bytes} (disjoint : left.Disjoint right)
    (info : MountPointInformation) (inLeft : named left info = true) :
    named right info = false := by
  apply decide_eq_false
  intro inRight
  exact disjoint (named_iff.mp inLeft) inRight

/-- An event returns the same after another one that leaves the records with
a covering name as they are. -/
theorem ret_of_filter_eq {names : List Bytes} {caster caster' : NtripCaster} {event : Event}
    (taken : event.Taken) (covers : Covers names caster.mountPointInfos event)
    (covers' : Covers names caster'.mountPointInfos event)
    (same : caster'.mountPointInfos.filter (named names) =
      caster.mountPointInfos.filter (named names)) :
    event.ret caster' = event.ret caster :=
  calc event.ret caster'
      = (event.effect caster'.mountPointInfos).1 := congrArg Prod.fst (effect_eq caster' event taken)
    _ = (event.effect (caster'.mountPointInfos.filter (named names))).1 :=
        (effect_local covers').2.symm
    _ = (event.effect (caster.mountPointInfos.filter (named names))).1 := by rw [same]
    _ = (event.effect caster.mountPointInfos).1 := (effect_local covers).2
    _ = event.ret caster := (congrArg Prod.fst (effect_eq caster event taken)).symm

/-- Events on different descriptors with disjoint footprints return the same
and leave the same records, up to their order, in either order. -/
theorem independent_events_commute (caster : NtripCaster) (first second : Event)
    (different : first.fd ≠ second.fd)
    (disjoint : (first.footprint caster).Disjoint (second.footprint caster))
    (taken : first.Taken) (taken' : second.Taken) :
    first.ret (second.tables caster) = first.ret caster ∧
      second.ret (first.tables caster) = second.ret caster ∧
      (second.tables (first.tables caster)).mountPointInfos.Perm
        (first.tables (second.tables caster)).mountPointInfos := by
  have covers := covers_footprint caster first
  have covers' := covers_footprint caster second
  have later := covers.after different.symm
  have later' := covers'.after different
  have tables : ∀ tables : NtripCaster, (first.tables tables).mountPointInfos =
      (first.effect tables.mountPointInfos).2 :=
    fun tables => congrArg Prod.snd (effect_eq tables first taken)
  have tables' : ∀ tables : NtripCaster, (second.tables tables).mountPointInfos =
      (second.effect tables.mountPointInfos).2 :=
    fun tables => congrArg Prod.snd (effect_eq tables second taken')
  have apart := named_apart disjoint
  have apart' := named_apart fun name inSecond inFirst => disjoint inFirst inSecond
  refine ⟨?_, ?_, ?_⟩
  · apply ret_of_filter_eq taken covers later
    rw [tables']
    exact (effect_local covers').1.filter_other apart
  · apply ret_of_filter_eq taken' covers' later'
    rw [tables]
    exact (effect_local covers).1.filter_other apart'
  · rw [tables'] at later
    rw [tables] at later'
    rw [tables, tables', tables, tables']
    exact commute_perm apart (effect_local covers).1 (effect_local covers').1
      (effect_local later).1 (effect_local later').1

/-- The server of one mount point leaves. -/
def leaving : Event :=
  .disconnected 8

/-- A client asks for the other one. -/
def asking : Event :=
  .received 7 (ascii "GET /A HTTP/1.1\r\nAuthorization: Basic dTpw\r\n") fun _ => true

theorem independent_events_commute_leaving_asking :
    (asking.tables (leaving.tables servedByFiveAndEight)).mountPointInfos.Perm
      (leaving.tables (asking.tables servedByFiveAndEight)).mountPointInfos := by
  have disjoint : (leaving.footprint servedByFiveAndEight).Disjoint
      (asking.footprint servedByFiveAndEight) := by
    have leaves : leaving.footprint servedByFiveAndEight = [ascii "B"] := by decide
    have asks : asking.footprint servedByFiveAndEight = [ascii "A", ascii "A"] := by
      decide
    rw [leaves, asks]
    intro name inFirst inSecond
    rw [List.mem_singleton.mp inFirst] at inSecond
    revert inSecond
    decide
  exact (independent_events_commute servedByFiveAndEight leaving asking (by decide) disjoint
    trivial (fun _ => rfl)).2.2

end Ntrip
