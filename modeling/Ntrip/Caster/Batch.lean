import Ntrip.Caster.ThreadHandler

namespace Ntrip

/-!
# One batch of readiness events

`epoll_wait` reports a batch, and the loop handles its entries one after the
other.  An entry is a number, not a connection: between the report and its
turn the number can be closed by an earlier entry and handed out again by an
`accept`.  The batch is laid over the event loop: an entry is handled as at
most one of its events, so what holds of its runs holds of batches as well.
-/

/-- What `recv` stores in the buffer. -/
structure Chunk where
  bytes : Bytes
  nonempty : bytes ≠ []
  fits : bytes.length ≤ kBufferSize

/-- One entry of `epoll_events_`. -/
structure Readiness where
  fd : Fd
  epollin : Bool
  outcomes : SendOutcomes

/-- The process outside the tables: the listening socket, the other
descriptors that are not connections, what each connection has to read
(`none` when `recv` returns zero or fails), and whether a peer is waiting. -/
structure Environment where
  listenSock : Fd
  reserved : List Fd
  input : ConnId → Option Chunk
  pending : Bool

/-- The lowest number that is not taken. -/
def lowestFree (taken : List Fd) : Fd :=
  ((List.range (taken.length + 1)).find? (fun fd => fd ∉ taken)).getD 0

theorem lowestFree_spec (taken : List Fd) :
    lowestFree taken ∉ taken ∧ ∀ fd < lowestFree taken, fd ∈ taken := by
  have free : ∃ fd ∈ List.range (taken.length + 1), fd ∉ taken := by
    by_contra none
    have inside : List.range (taken.length + 1) ⊆ taken := by
      intro fd member
      by_contra absent
      exact none ⟨fd, member, absent⟩
    have fits := (List.subperm_of_subset List.nodup_range inside).length_le
    rw [List.length_range] at fits
    omega
  rcases free with ⟨fd, member, absent⟩
  have found : ((List.range (taken.length + 1)).find? (fun fd => fd ∉ taken)).isSome = true := by
    rw [List.find?_isSome]
    exact ⟨fd, member, by simpa using absent⟩
  rcases Option.isSome_iff_exists.mp found with ⟨lowest, first⟩
  have value : lowestFree taken = lowest := by rw [lowestFree, first, Option.getD_some]
  rw [value]
  have parts := List.find?_range_eq_some.mp first
  refine ⟨by simpa using parts.1, ?_⟩
  intro lower below
  simpa using parts.2.2 lower below

namespace System

/-- The descriptors that the loop closes in one event, in order. -/
def closedBy (sys : System) : Event → List Fd
  | .accept _ => []
  | .received fd buffer outcomes =>
      if (parseData sys.caster outcomes fd buffer).ret < 0 then [fd] else []
  | .disconnected fd => (disconnect sys.caster fd).2

/-- Numbers of connections are never used twice. -/
def Numbered (sys : System) : Prop :=
  ∀ fd conn, sys.owner fd = some conn → conn < sys.accepted

theorem owner_step_accept (sys : System) (fresh fd : Fd) :
    (sys.step (.accept fresh)).owner fd =
      if fd = fresh then some sys.accepted else sys.owner fd := by
  by_cases same : fd = fresh
  · subst same
    simp [step, owner]
  · simp [step, owner, same, AList.lookup_insert_ne same]

theorem owner_step_other (sys : System) {event : Event} (other : ∀ fresh, event ≠ .accept fresh)
    (fd : Fd) :
    (sys.step event).owner fd = if fd ∈ sys.closedBy event then none else sys.owner fd := by
  cases event with
  | accept fresh => exact absurd rfl (other fresh)
  | received sender buffer outcomes =>
      by_cases negative : (parseData sys.caster outcomes sender buffer).ret < 0
      · simp [step, owner, closedBy, negative, lookup_closeAll]
      · simp [step, owner, closedBy, negative]
  | disconnected leaver => exact lookup_closeAll sys.conns _ fd

theorem accepted_le_step (sys : System) (event : Event) :
    sys.accepted ≤ (sys.step event).accepted := by
  cases event with
  | accept fd => exact Nat.le_succ sys.accepted
  | received fd buffer outcomes => exact Nat.le_refl _
  | disconnected fd => exact Nat.le_refl _

theorem step_numbered (sys : System) (event : Event) (numbered : sys.Numbered) :
    (sys.step event).Numbered := by
  intro fd conn holds
  have older : sys.owner fd = some conn → conn < (sys.step event).accepted :=
    fun before => Nat.lt_of_lt_of_le (numbered fd conn before) (accepted_le_step sys event)
  cases event with
  | accept fresh =>
      rw [owner_step_accept] at holds
      split_ifs at holds with same
      · rw [← Option.some.inj holds]
        exact Nat.lt_succ_self sys.accepted
      · exact older holds
  | received sender buffer outcomes =>
      rw [owner_step_other sys (by simp)] at holds
      split_ifs at holds with closed
      exact older holds
  | disconnected leaver =>
      rw [owner_step_other sys (by simp)] at holds
      split_ifs at holds with closed
      exact older holds

theorem numbered_run (events : List Event) : (Execution.run step init events).Numbered := by
  have first : init.Numbered := by
    intro fd conn holds
    cases holds
  exact (Execution.always_of_preserved step_numbered first events).last

end System

namespace Environment

/-- The numbers that `accept` may not return. -/
def taken (env : Environment) (sys : System) : List Fd :=
  env.listenSock :: env.reserved ++ sys.conns.keys

/-- `recv`; it fails on a descriptor that is not open. -/
def recv (env : Environment) (sys : System) (fd : Fd) : Option Chunk :=
  (sys.owner fd).bind env.input

/-- The branch of the loop body that an entry takes. -/
def eventOf (env : Environment) (sys : System) (ready : Readiness) : Option Event :=
  if ready.fd = env.listenSock then
    if ready.epollin && env.pending then some (.accept (lowestFree (env.taken sys))) else none
  else if ready.epollin then
    match env.recv sys ready.fd with
    | some chunk => some (.received ready.fd chunk.bytes ready.outcomes)
    | none => some (.disconnected ready.fd)
  else none

/-- The loop body. -/
def handle (env : Environment) (sys : System) (ready : Readiness) : System :=
  match env.eventOf sys ready with
  | some event => sys.step event
  | none => sys

/-- The descriptors that the loop body closes, in order. -/
def closes (env : Environment) (sys : System) (ready : Readiness) : List Fd :=
  match env.eventOf sys ready with
  | some event => sys.closedBy event
  | none => []

/-- The entry reads from a connection or closes it. -/
def Reads (env : Environment) (ready : Readiness) : Prop :=
  ready.fd ≠ env.listenSock ∧ ready.epollin = true

/-- A batch as `epoll_wait` reports it: one entry for a number, each the
listening socket's or that of an open connection. -/
structure Reported (env : Environment) (sys : System) (batch : List Readiness) : Prop where
  distinct : (batch.map (·.fd)).Nodup
  registered : ∀ ready ∈ batch, ready.fd ≠ env.listenSock → (sys.owner ready.fd).isSome = true
  listening : sys.owner env.listenSock = none

/-- An entry is handled safely: what it closes is open and closed once, and
its number does not name a connection other than the one reported. -/
def SafeAt (env : Environment) (reported sys : System) (ready : Readiness) : Prop :=
  (env.closes sys ready).Nodup ∧ (∀ fd ∈ env.closes sys ready, (sys.owner fd).isSome = true) ∧
    (env.Reads ready →
      sys.owner ready.fd = none ∨ sys.owner ready.fd = reported.owner ready.fd)

def BatchSafe (env : Environment) (reported : System) (batch : List Readiness) : Prop :=
  Execution.EachStep env.handle (env.SafeAt reported) reported batch

instance (env : Environment) (ready : Readiness) : Decidable (env.Reads ready) :=
  inferInstanceAs (Decidable (_ ∧ _))

instance (env : Environment) (reported sys : System) (ready : Readiness) :
    Decidable (env.SafeAt reported sys ready) :=
  inferInstanceAs (Decidable (_ ∧ _ ∧ (_ → _)))

instance (env : Environment) (reported : System) (batch : List Readiness) :
    Decidable (env.BatchSafe reported batch) :=
  inferInstanceAs (Decidable (Execution.EachStep _ _ _ _))

/-- When the entry is the hang-up of a server, its clients are open, distinct
from each other and from the server, and no later entry reads from one. -/
def OrderlyHangUp (env : Environment) (sys : System) (ready : Readiness)
    (rest : List Readiness) : Prop :=
  env.Reads ready → env.recv sys ready.fd = none →
    ∀ before info after, MentionSplit sys.caster.mountPointInfos ready.fd before info after →
      info.serverFd = ready.fd →
        info.descriptors.Nodup ∧ (∀ fd ∈ info.clientSocketList, (sys.owner fd).isSome = true) ∧
          ∀ later ∈ rest, env.Reads later → later.fd ∉ info.clientSocketList

/-- Every hang-up of a server in the batch is orderly. -/
def BatchOrderly (env : Environment) : System → List Readiness → Prop
  | _, [] => True
  | sys, ready :: rest =>
      env.OrderlyHangUp sys ready rest ∧ BatchOrderly env (env.handle sys ready) rest

/-! ## What one entry can do -/

/-- The ways in which the loop body can go, with the state that it leaves and
the descriptors that it closes. -/
inductive Handled (env : Environment) (sys : System) (ready : Readiness) :
    System → List Fd → Prop
  | idle : ¬ env.Reads ready → Handled env sys ready sys []
  | accepted {fresh : Fd} :
      ¬ env.Reads ready → fresh ≠ env.listenSock → sys.owner fresh = none →
      Handled env sys ready (sys.step (.accept fresh)) []
  | received {chunk : Chunk} :
      env.Reads ready → env.recv sys ready.fd = some chunk →
      Handled env sys ready (sys.step (.received ready.fd chunk.bytes ready.outcomes))
        (sys.closedBy (.received ready.fd chunk.bytes ready.outcomes))
  | hungUp :
      env.Reads ready → env.recv sys ready.fd = none →
      Handled env sys ready (sys.step (.disconnected ready.fd))
        (sys.closedBy (.disconnected ready.fd))

theorem lowestFree_taken (env : Environment) (sys : System) :
    lowestFree (env.taken sys) ≠ env.listenSock ∧
      sys.owner (lowestFree (env.taken sys)) = none := by
  have free := (lowestFree_spec (env.taken sys)).1
  rw [taken, List.cons_append, List.mem_cons, List.mem_append, not_or, not_or] at free
  exact ⟨free.1, AList.lookup_eq_none.mpr (fun isKey => free.2.2 isKey)⟩

theorem handled (env : Environment) (sys : System) (ready : Readiness) :
    Handled env sys ready (env.handle sys ready) (env.closes sys ready) := by
  unfold handle closes eventOf
  by_cases listen : ready.fd = env.listenSock
  · have silent : ¬ env.Reads ready := fun reads => reads.1 listen
    rw [if_pos listen]
    by_cases waiting : (ready.epollin && env.pending) = true
    · rw [if_pos waiting]
      exact .accepted silent (env.lowestFree_taken sys).1 (env.lowestFree_taken sys).2
    · rw [if_neg waiting]
      exact .idle silent
  · rw [if_neg listen]
    by_cases epollin : ready.epollin = true
    · rw [if_pos epollin]
      cases input : env.recv sys ready.fd with
      | some chunk => exact .received ⟨listen, epollin⟩ input
      | none => exact .hungUp ⟨listen, epollin⟩ input
    · rw [if_neg epollin]
      exact .idle (fun reads => epollin reads.2)

/-- A descriptor that is open changes hands only by being closed. -/
theorem owner_handle_of_isSome (env : Environment) {sys : System} (ready : Readiness) {fd : Fd}
    (isOpen : (sys.owner fd).isSome = true) :
    (env.handle sys ready).owner fd =
      if fd ∈ env.closes sys ready then none else sys.owner fd := by
  have outcome := env.handled sys ready
  generalize env.handle sys ready = next at outcome ⊢
  generalize env.closes sys ready = closed at outcome ⊢
  cases outcome with
  | idle silent => simp
  | accepted silent other free =>
      rename_i fresh
      have distinct : fd ≠ fresh := by
        intro same
        rw [same, free] at isOpen
        cases isOpen
      simp [System.owner_step_accept, distinct]
  | received reads input => exact System.owner_step_other sys (by simp) fd
  | hungUp reads input => exact System.owner_step_other sys (by simp) fd

/-- The loop body gives a descriptor to no connection but a new one. -/
theorem owner_handle_eq_some (env : Environment) {sys : System} {ready : Readiness} {fd : Fd}
    {conn : ConnId} (holds : (env.handle sys ready).owner fd = some conn) :
    sys.owner fd = some conn ∨ (conn = sys.accepted ∧ fd ≠ env.listenSock) := by
  have outcome := env.handled sys ready
  generalize env.handle sys ready = next at outcome holds
  generalize env.closes sys ready = closed at outcome
  cases outcome with
  | idle silent => exact Or.inl holds
  | accepted silent other free =>
      rw [System.owner_step_accept] at holds
      split_ifs at holds with same
      · exact Or.inr ⟨(Option.some.inj holds).symm, same ▸ other⟩
      · exact Or.inl holds
  | received reads input =>
      rw [System.owner_step_other sys (by simp)] at holds
      split_ifs at holds with gone
      exact Or.inl holds
  | hungUp reads input =>
      rw [System.owner_step_other sys (by simp)] at holds
      split_ifs at holds with gone
      exact Or.inl holds

theorem accepted_le_handle (env : Environment) (sys : System) (ready : Readiness) :
    sys.accepted ≤ (env.handle sys ready).accepted := by
  have outcome := env.handled sys ready
  generalize env.handle sys ready = next at outcome ⊢
  generalize env.closes sys ready = closed at outcome
  cases outcome with
  | idle silent => exact Nat.le_refl _
  | accepted silent other free => exact sys.accepted_le_step _
  | received reads input => exact sys.accepted_le_step _
  | hungUp reads input => exact sys.accepted_le_step _

/-! ## Entries that have lost their connection -/

/-- The descriptor is closed, or it names a connection that was accepted
after the report. -/
def Lost (reported sys : System) (fd : Fd) : Prop :=
  ∀ conn, sys.owner fd = some conn → reported.accepted ≤ conn

theorem lost_handle (env : Environment) {reported sys : System} {ready : Readiness} {fd : Fd}
    (later : reported.accepted ≤ sys.accepted) (lost : Lost reported sys fd) :
    Lost reported (env.handle sys ready) fd := by
  intro conn holds
  rcases env.owner_handle_eq_some holds with before | ⟨new, _⟩
  · exact lost conn before
  · exact new ▸ later

theorem recv_of_closed (env : Environment) {sys : System} {fd : Fd} (closed : sys.owner fd = none) :
    env.recv sys fd = none := by
  rw [recv, closed]
  rfl

/-- The turn of an entry that has lost its connection is never safe. -/
theorem not_safeAt_of_lost {env : Environment} {reported sys : System} {ready : Readiness}
    (numbered : reported.Numbered) (reads : env.Reads ready)
    (wasOpen : (reported.owner ready.fd).isSome = true) (lost : Lost reported sys ready.fd) :
    ¬ env.SafeAt reported sys ready := by
  rintro ⟨_, isOpen, same⟩
  rcases Option.isSome_iff_exists.mp wasOpen with ⟨conn, held⟩
  rcases same reads with closed | kept
  · have hungUp : env.eventOf sys ready = some (.disconnected ready.fd) := by
      rw [eventOf, if_neg reads.1, if_pos reads.2, env.recv_of_closed closed]
    have closing : ready.fd ∈ env.closes sys ready := by
      rw [closes, hungUp]
      exact mem_disconnect_closed sys.caster ready.fd
    have contradiction := isOpen ready.fd closing
    rw [closed] at contradiction
    cases contradiction
  · have old := numbered ready.fd conn held
    exact absurd old (Nat.not_lt.mpr (lost conn (kept.trans held)))

theorem not_batchSafe_of_lost {env : Environment} {reported sys : System} {batch : List Readiness}
    (numbered : reported.Numbered) (later : reported.accepted ≤ sys.accepted)
    {ready : Readiness} (member : ready ∈ batch) (reads : env.Reads ready)
    (wasOpen : (reported.owner ready.fd).isSome = true) (lost : Lost reported sys ready.fd) :
    ¬ Execution.EachStep env.handle (env.SafeAt reported) sys batch := by
  induction batch generalizing sys with
  | nil => exact absurd member List.not_mem_nil
  | cons head rest inductionHypothesis =>
      rintro ⟨safe, safeRest⟩
      rcases List.mem_cons.mp member with same | inRest
      · exact not_safeAt_of_lost numbered reads wasOpen lost (same ▸ safe)
      · exact inductionHypothesis (later.trans (env.accepted_le_handle sys head)) inRest
          (env.lost_handle later lost) safeRest

/-! ## Entries that still have their connection -/

/-- Every entry still to come names the connection that was reported. -/
structure Held (env : Environment) (reported sys : System) (batch : List Readiness) : Prop where
  distinct : (batch.map (·.fd)).Nodup
  owners : ∀ ready ∈ batch, env.Reads ready →
    sys.owner ready.fd = reported.owner ready.fd ∧ (reported.owner ready.fd).isSome = true
  listening : sys.owner env.listenSock = none
  later : reported.accepted ≤ sys.accepted

theorem held_of_reported {env : Environment} {sys : System} {batch : List Readiness}
    (reported : env.Reported sys batch) : Held env sys sys batch where
  distinct := reported.distinct
  owners := fun ready member reads => ⟨rfl, reported.registered ready member reads.1⟩
  listening := reported.listening
  later := Nat.le_refl _

theorem held_handle {env : Environment} {reported sys : System} {ready : Readiness}
    {rest : List Readiness} (held : Held env reported sys (ready :: rest))
    (spared : ∀ later ∈ rest, env.Reads later → later.fd ∉ env.closes sys ready) :
    Held env reported (env.handle sys ready) rest where
  distinct := (List.nodup_cons.mp held.distinct).2
  owners := by
    intro later member reads
    rcases held.owners later (List.mem_cons_of_mem ready member) reads with ⟨same, wasOpen⟩
    refine ⟨?_, wasOpen⟩
    rw [env.owner_handle_of_isSome ready (same ▸ wasOpen), if_neg (spared later member reads), same]
  listening := by
    cases owner : (env.handle sys ready).owner env.listenSock with
    | none => rfl
    | some conn =>
        rcases env.owner_handle_eq_some owner with before | ⟨_, other⟩
        · exact absurd (before.symm.trans held.listening) (by simp)
        · exact absurd rfl other
  later := held.later.trans (env.accepted_le_handle sys ready)

/-! ## Batches -/

/-- Closing the descriptors is safe now and takes no connection from an entry
still to come. -/
structure CloseSafe (env : Environment) (sys : System) (rest : List Readiness)
    (closed : List Fd) : Prop where
  distinct : closed.Nodup
  isOpen : ∀ fd ∈ closed, (sys.owner fd).isSome = true
  spared : ∀ later ∈ rest, env.Reads later → later.fd ∉ closed

theorem closeSafe_nil (env : Environment) (sys : System) (rest : List Readiness) :
    CloseSafe env sys rest [] where
  distinct := List.nodup_nil
  isOpen := fun _ member => absurd member List.not_mem_nil
  spared := fun _ _ _ => List.not_mem_nil

theorem closeSafe_single {env : Environment} {sys : System} {rest : List Readiness} {fd : Fd}
    (isOpen : (sys.owner fd).isSome = true) (fresh : ∀ later ∈ rest, later.fd ≠ fd) :
    CloseSafe env sys rest [fd] where
  distinct := List.nodup_singleton fd
  isOpen := fun _ member => List.mem_singleton.mp member ▸ isOpen
  spared := fun later member _ same => fresh later member (List.mem_singleton.mp same)

theorem closeSafe_append_iff {env : Environment} {sys : System} {rest : List Readiness} {fd : Fd}
    {clients : List Fd} (isOpen : (sys.owner fd).isSome = true)
    (fresh : ∀ later ∈ rest, later.fd ≠ fd) :
    CloseSafe env sys rest (clients ++ [fd]) ↔
      (fd :: clients).Nodup ∧ (∀ client ∈ clients, (sys.owner client).isSome = true) ∧
        ∀ later ∈ rest, env.Reads later → later.fd ∉ clients := by
  constructor
  · intro safe
    refine ⟨(List.perm_append_singleton fd clients).nodup_iff.mp safe.distinct, ?_, ?_⟩
    · exact fun client member => safe.isOpen client (List.mem_append_left _ member)
    · exact fun later member reads closed =>
        safe.spared later member reads (List.mem_append_left _ closed)
  · rintro ⟨distinct, clientsOpen, spared⟩
    refine ⟨(List.perm_append_singleton fd clients).nodup_iff.mpr distinct, ?_, ?_⟩
    · intro other member
      rcases List.mem_append.mp member with client | self
      · exact clientsOpen other client
      · exact List.mem_singleton.mp self ▸ isOpen
    · intro later member reads closed
      rcases List.mem_append.mp closed with client | self
      · exact spared later member reads client
      · exact fresh later member (List.mem_singleton.mp self)

/-- An entry that still has its connection closes safely exactly when it is
no hang-up of a server or an orderly one. -/
theorem orderly_iff {env : Environment} {reported sys : System} {ready : Readiness}
    {rest : List Readiness} (held : Held env reported sys (ready :: rest)) :
    env.OrderlyHangUp sys ready rest ↔ CloseSafe env sys rest (env.closes sys ready) := by
  have fresh : ∀ later ∈ rest, later.fd ≠ ready.fd := by
    intro later member same
    exact (List.nodup_cons.mp held.distinct).1 (List.mem_map.mpr ⟨later, member, same⟩)
  have isOpen : env.Reads ready → (sys.owner ready.fd).isSome = true := by
    intro reads
    rcases held.owners ready List.mem_cons_self reads with ⟨same, wasOpen⟩
    rw [same]
    exact wasOpen
  have outcome := env.handled sys ready
  generalize env.handle sys ready = next at outcome
  generalize env.closes sys ready = closed at outcome ⊢
  cases outcome with
  | idle silent =>
      exact iff_of_true (fun reads => absurd reads silent) (closeSafe_nil env sys rest)
  | accepted silent other free =>
      exact iff_of_true (fun reads => absurd reads silent) (closeSafe_nil env sys rest)
  | received reads input =>
      have quiet : env.OrderlyHangUp sys ready rest := by
        intro _ noInput
        rw [input] at noInput
        cases noInput
      refine iff_of_true quiet ?_
      simp only [System.closedBy]
      split_ifs
      · exact closeSafe_single (isOpen reads) fresh
      · exact closeSafe_nil env sys rest
  | hungUp reads input =>
      simp only [System.closedBy]
      rcases exists_mentionSplit sys.caster.mountPointInfos ready.fd with
        absent | ⟨before, info, after, found⟩
      · rw [disconnect_of_notMem absent]
        refine iff_of_true ?_ (closeSafe_single (isOpen reads) fresh)
        intro _ _ before info after found
        exact absurd found.mem_descriptors absent
      · by_cases serves : info.serverFd = ready.fd
        · rw [disconnect_of_server found serves, closeSafe_append_iff (isOpen reads) fresh, ← serves]
          constructor
          · exact fun orderly => orderly reads input before info after found serves
          · intro calm _ _ before' info' after' found' _
            rcases found.unique found' with ⟨_, rfl, _⟩
            exact calm
        · rw [disconnect_of_client found serves]
          refine iff_of_true ?_ (closeSafe_single (isOpen reads) fresh)
          intro _ _ before' info' after' found' same
          rcases found.unique found' with ⟨_, rfl, _⟩
          exact absurd same serves

theorem batchSafe_iff_of_held {env : Environment} {reported : System} (numbered : reported.Numbered)
    {batch : List Readiness} {sys : System} (held : Held env reported sys batch) :
    Execution.EachStep env.handle (env.SafeAt reported) sys batch ↔ env.BatchOrderly sys batch := by
  induction batch generalizing sys with
  | nil => exact Iff.rfl
  | cons ready rest inductionHypothesis =>
      have orderly := orderly_iff held
      constructor
      · rintro ⟨safe, safeRest⟩
        have spared : ∀ later ∈ rest, env.Reads later → later.fd ∉ env.closes sys ready := by
          intro later member reads closing
          rcases held.owners later (List.mem_cons_of_mem ready member) reads with ⟨_, wasOpen⟩
          refine not_batchSafe_of_lost numbered
            (held.later.trans (env.accepted_le_handle sys ready)) member reads wasOpen ?_ safeRest
          intro conn holds
          rw [env.owner_handle_of_isSome ready (safe.2.1 _ closing), if_pos closing] at holds
          cases holds
        exact ⟨orderly.mpr ⟨safe.1, safe.2.1, spared⟩,
          (inductionHypothesis (held_handle held spared)).mp safeRest⟩
      · rintro ⟨calm, calmRest⟩
        have safe := orderly.mp calm
        refine ⟨⟨safe.distinct, safe.isOpen, ?_⟩,
          (inductionHypothesis (held_handle held safe.spared)).mpr calmRest⟩
        exact fun reads => Or.inr (held.owners ready List.mem_cons_self reads).1

/-- After any run, a batch is handled safely exactly when every hang-up of a
server in it is orderly. -/
theorem batch_safe_iff (events : List Event) (env : Environment) (batch : List Readiness)
    (reported : env.Reported (Execution.run System.step System.init events) batch) :
    env.BatchSafe (Execution.run System.step System.init events) batch ↔
      env.BatchOrderly (Execution.run System.step System.init events) batch :=
  batchSafe_iff_of_held (System.numbered_run events) (held_of_reported reported)

/-- A client on descriptor 5 and its server on descriptor 6. -/
def clientAndServer : List Event :=
  [.accept 5, .accept 6,
    .received 6 (ascii "POST /A HTTP/1.1\r\nAuthorization: Basic dTpw\r\n") (fun _ => true),
    .received 5 (ascii "GET /A HTTP/1.1\r\nAuthorization: Basic dTpw\r\n") (fun _ => true)]

/-- Every `recv` fails and one peer is waiting. -/
def hangUps : Environment where
  listenSock := 3
  reserved := [0, 1, 2, 4]
  input := fun _ => none
  pending := true

theorem batchSafe_of_server_alone :
    hangUps.BatchSafe (Execution.run System.step System.init clientAndServer)
      [⟨6, true, fun _ => true⟩, ⟨3, true, fun _ => true⟩] := by
  refine (batch_safe_iff clientAndServer hangUps _ ⟨by decide, ?_, by decide +kernel⟩).mpr ?_
  · decide +kernel
  · refine ⟨?_, fun reads => absurd rfl reads.1, trivial⟩
    intro _ _ before info after found serves
    have only : MentionSplit
        (Execution.run System.step System.init clientAndServer).caster.mountPointInfos 6
        [] ⟨6, ascii "A", ascii "u", ascii "p", [5]⟩ [] :=
      ⟨by decide +kernel, by simp, by decide⟩
    rcases only.unique found with ⟨_, rfl, _⟩
    exact ⟨by decide, by decide +kernel, fun later member reads => by
      rw [List.mem_singleton.mp member] at reads
      exact absurd rfl reads.1⟩

/-- The server hangs up, the waiting peer gets the client's number, and the
client's entry is taken for the newcomer's. -/
theorem batch_safe_fails :
    ¬ ∀ events, System.ValidRun events → ∀ env batch,
      Reported env (Execution.run System.step System.init events) batch →
        env.BatchSafe (Execution.run System.step System.init events) batch := by
  intro always
  have safe := always clientAndServer (by decide +kernel) hangUps
    [⟨6, true, fun _ => true⟩, ⟨3, true, fun _ => true⟩, ⟨5, true, fun _ => true⟩]
    ⟨by decide, by decide +kernel, by decide +kernel⟩
  revert safe
  decide +kernel

/-! ## Batches are runs -/

/-- What a batch does, some possible run of the event loop does. -/
theorem exists_run_of_batch (env : Environment) (batch : List Readiness) (sys : System) :
    ∃ events, Execution.EachStep System.step System.Valid sys events ∧
      Execution.run env.handle sys batch = Execution.run System.step sys events := by
  induction batch generalizing sys with
  | nil => exact ⟨[], trivial, rfl⟩
  | cons ready rest inductionHypothesis =>
      rcases inductionHypothesis (env.handle sys ready) with ⟨events, valid, same⟩
      have outcome := env.handled sys ready
      change ∃ events, Execution.EachStep System.step System.Valid sys events ∧
        Execution.run env.handle (env.handle sys ready) rest = Execution.run System.step sys events
      rw [same]
      generalize env.handle sys ready = next at outcome valid
      generalize env.closes sys ready = closed at outcome
      cases outcome with
      | idle silent => exact ⟨events, valid, rfl⟩
      | accepted silent other free =>
          rename_i fresh
          exact ⟨.accept fresh :: events, ⟨free, valid⟩, rfl⟩
      | received reads input =>
          rename_i chunk
          have isOpen : (sys.owner ready.fd).isSome = true := by
            cases owner : sys.owner ready.fd with
            | none => exact absurd (input.symm.trans (env.recv_of_closed owner)) (by simp)
            | some conn => rfl
          exact ⟨.received ready.fd chunk.bytes ready.outcomes :: events,
            ⟨⟨isOpen, chunk.nonempty, chunk.fits⟩, valid⟩, rfl⟩
      | hungUp reads input => exact ⟨.disconnected ready.fd :: events, ⟨trivial, valid⟩, rfl⟩

end Environment
end Ntrip
