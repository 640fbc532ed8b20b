import Ntrip.Peers.LifeCycle

namespace Ntrip

/-!
# What `Run` and `Stop` leave behind

The invariant keeps three things together: the ledger with the two variables
that hold descriptors, the flag with the phase of the worker, and the parts of
a call in which there is no worker or no socket.  Each party keeps it with
every step, so it holds under every interleaving.
-/

namespace LifeCycle

variable {Locals : Type}

/-! ## The books -/

/-- The open sockets are those of `socket_fd_` and of the local variable of
`Run`, which are never in use together. -/
structure Books (ledger : Ledger Int Nat) (socketFd : Int) (unassigned : Option (Int × Nat)) :
    Prop where
  sound : ledger.Sound
  noneInVain : ∀ call ∈ ledger.released, call.2 ≠ none
  numbered : ∀ socket ∈ ledger.obtained, socket < ledger.obtained.length
  member : socketFd = -1 ∨ 0 < socketFd ∧ unassigned = none ∧ ledger.holder socketFd ≠ none
  variableHeld : ∀ fd socket, unassigned = some (fd, socket) →
    0 < fd ∧ ledger.holder fd = some socket
  noOther : ∀ fd, ledger.holder fd ≠ none →
    0 < fd ∧ (fd = socketFd ∨ ∃ socket, unassigned = some (fd, socket))

theorem books_init : Books (Ledger.empty : Ledger Int Nat) (-1) none where
  sound := Ledger.sound_empty
  noneInVain := fun _ member => absurd member List.not_mem_nil
  numbered := fun _ member => absurd member List.not_mem_nil
  member := Or.inl rfl
  variableHeld := by simp
  noOther := by simp

theorem noneInVain_release {ledger : Ledger Int Nat} {fd : Int}
    (before : ∀ call ∈ ledger.released, call.2 ≠ none) (held : ledger.holder fd ≠ none) :
    ∀ call ∈ (ledger.release fd).released, call.2 ≠ none := by
  intro call member
  rcases List.mem_append.mp member with earlier | last
  · exact before call earlier
  · rw [List.mem_singleton.mp last]
    exact held

/-- The block that closes `socket_fd_`. -/
theorem Books.release_member {ledger : Ledger Int Nat} {socketFd : Int}
    {unassigned : Option (Int × Nat)} (books : Books ledger socketFd unassigned)
    (above : 0 < socketFd) : Books (ledger.release socketFd) (-1) unassigned := by
  rcases books.member with unset | ⟨_, alone, held⟩
  · rw [unset] at above
    exact absurd above (by decide)
  · constructor
    · exact books.sound.release socketFd
    · exact noneInVain_release books.noneInVain held
    · exact books.numbered
    · exact Or.inl rfl
    · intro fd socket variableSet
      rw [alone] at variableSet
      cases variableSet
    · intro fd isOpen
      rw [Ledger.holder_release] at isOpen
      split at isOpen
      · exact absurd rfl isOpen
      · rename_i different
        rcases (books.noOther fd isOpen).2 with same | ⟨socket, variableSet⟩
        · exact absurd same different
        · rw [alone] at variableSet
          cases variableSet

/-- `socket` of `Run`. -/
theorem Books.obtain {ledger : Ledger Int Nat} (books : Books ledger (-1) none) {fd : Int}
    (above : 0 < fd) (free : ledger.holder fd = none) :
    Books (ledger.obtain fd ledger.obtained.length) (-1) (some (fd, ledger.obtained.length)) := by
  constructor
  · apply books.sound.obtain free
    intro member
    exact Nat.lt_irrefl _ (books.numbered ledger.obtained.length member)
  · exact books.noneInVain
  · intro socket member
    have longer : (ledger.obtain fd ledger.obtained.length).obtained.length =
        ledger.obtained.length + 1 := List.length_append
    rw [longer]
    rcases List.mem_append.mp member with earlier | last
    · exact Nat.lt_succ_of_lt (books.numbered socket earlier)
    · rw [List.mem_singleton.mp last]
      exact Nat.lt_succ_self ledger.obtained.length
  · exact Or.inl rfl
  · intro other socket same
    cases same
    refine ⟨above, ?_⟩
    rw [Ledger.holder_obtain, if_pos rfl]
  · intro other isOpen
    rw [Ledger.holder_obtain] at isOpen
    split at isOpen
    · rename_i same
      exact ⟨same ▸ above, Or.inr ⟨ledger.obtained.length, by rw [same]⟩⟩
    · rcases books.noOther other isOpen with ⟨positive, same | ⟨socket, impossible⟩⟩
      · exact ⟨positive, Or.inl same⟩
      · cases impossible

/-- A failing `Run` closes its socket. -/
theorem Books.abandon {ledger : Ledger Int Nat} {fd : Int} {socket : Nat}
    (books : Books ledger (-1) (some (fd, socket))) :
    Books (ledger.release fd) (-1) none ∧ socket ∈ (ledger.release fd).gone := by
  have held := (books.variableHeld fd socket rfl).2
  refine ⟨?_, ?_⟩
  · constructor
    · exact books.sound.release fd
    · exact noneInVain_release books.noneInVain (by simp [held])
    · exact books.numbered
    · exact Or.inl rfl
    · simp
    · intro other isOpen
      rw [Ledger.holder_release] at isOpen
      split at isOpen
      · exact absurd rfl isOpen
      · rename_i different
        rcases books.noOther other isOpen with ⟨positive, same | ⟨_, variableSet⟩⟩
        · exact ⟨positive, Or.inl same⟩
        · exact absurd (congrArg Prod.fst (Option.some.inj variableSet)).symm different
  · rw [Ledger.gone_release, held]
    exact List.mem_append_right _ List.mem_cons_self

/-- `socket_fd_ = socket_fd`. -/
theorem Books.assign {ledger : Ledger Int Nat} {fd : Int} {socket : Nat}
    (books : Books ledger (-1) (some (fd, socket))) : Books ledger fd none := by
  rcases books.variableHeld fd socket rfl with ⟨above, held⟩
  constructor
  · exact books.sound
  · exact books.noneInVain
  · exact books.numbered
  · exact Or.inr ⟨above, rfl, by simp [held]⟩
  · simp
  · intro other isOpen
    rcases books.noOther other isOpen with ⟨positive, same | ⟨_, variableSet⟩⟩
    · rw [same] at positive
      exact absurd positive (by decide)
    · have same : fd = other := congrArg Prod.fst (Option.some.inj variableSet)
      exact ⟨positive, Or.inl same.symm⟩

/-- With no socket in either variable the books balance. -/
theorem Books.balanced {ledger : Ledger Int Nat} (books : Books ledger (-1) none) :
    ledger.Balanced := by
  apply books.sound.balanced_iff.mpr
  refine ⟨?_, books.noneInVain⟩
  intro fd
  by_contra isOpen
  rcases books.noOther fd isOpen with ⟨positive, same | ⟨_, variableSet⟩⟩
  · rw [same] at positive
    exact absurd positive (by decide)
  · cases variableSet

/-! ## The invariant -/

/-- The parts of `Run` behind its `Stop`, in which there is no worker. -/
def Alone : Call → Prop
  | .opening => True
  | .contacting _ _ => True
  | .assigning _ _ => True
  | .resetting _ => True
  | _ => False

/-- The parts of the calls in which `socket_fd_` is `-1`. -/
def Unset : Call → Prop
  | .joining _ => True
  | .opening => True
  | .contacting _ _ => True
  | .assigning _ _ => True
  | _ => False

/-- What every step keeps.  The flag is up only while the worker is in its
loop or behind it. -/
structure Kept (state : LifeCycle Locals) : Prop where
  books : Books state.ledger state.socketFd state.call.unassigned
  running : state.serviceIsRunning = true → ¬ Ended state.thread ∧ state.thread ≠ some .starting
  alone : Alone state.call → Ended state.thread
  unset : Unset state.call → state.socketFd = -1
  stopped : state.call = .idle → state.returns.getLast? = some .stop →
    state.socketFd = -1 ∧ Ended state.thread
  failed : ∀ socket, .run false (some socket) ∈ state.returns → socket ∈ state.ledger.gone

theorem kept_init : (init : LifeCycle Locals).Kept where
  books := books_init
  running := fun impossible => absurd impossible Bool.false_ne_true
  alone := fun impossible => absurd impossible id
  unset := fun impossible => absurd impossible id
  stopped := fun _ impossible => by cases impossible
  failed := fun _ member => absurd member List.not_mem_nil

@[simp] theorem closeSocket_serviceIsRunning (state : LifeCycle Locals) :
    state.closeSocket.serviceIsRunning = state.serviceIsRunning := by
  unfold closeSocket
  split <;> rfl

@[simp] theorem closeSocket_thread (state : LifeCycle Locals) :
    state.closeSocket.thread = state.thread := by
  unfold closeSocket
  split <;> rfl

@[simp] theorem closeSocket_call (state : LifeCycle Locals) :
    state.closeSocket.call = state.call := by
  unfold closeSocket
  split <;> rfl

@[simp] theorem closeSocket_returns (state : LifeCycle Locals) :
    state.closeSocket.returns = state.returns := by
  unfold closeSocket
  split <;> rfl

theorem closeSocket_gone (state : LifeCycle Locals) :
    state.ledger.gone ⊆ state.closeSocket.ledger.gone := by
  unfold closeSocket
  split
  · rw [Ledger.gone_release]
    exact List.subset_append_left _ _
  · exact fun _ member => member

/-- The block leaves `-1` behind, whichever of its two branches it takes. -/
theorem closeSocket_books {state : LifeCycle Locals}
    (books : Books state.ledger state.socketFd state.call.unassigned) :
    state.closeSocket.socketFd = -1 ∧
      Books state.closeSocket.ledger state.closeSocket.socketFd state.call.unassigned := by
  unfold closeSocket
  split
  · rename_i above
    exact ⟨rfl, books.release_member above⟩
  · rename_i low
    rcases books.member with unset | ⟨above, _⟩
    · exact ⟨unset, books⟩
    · exact absurd above low

theorem kept_closeSocket {state : LifeCycle Locals} (kept : state.Kept) :
    state.closeSocket.Kept := by
  have closed := closeSocket_books kept.books
  constructor
  · rw [closeSocket_call]
    exact closed.2
  · rw [closeSocket_serviceIsRunning, closeSocket_thread]
    exact kept.running
  · rw [closeSocket_call, closeSocket_thread]
    exact kept.alone
  · exact fun _ => closed.1
  · rw [closeSocket_call, closeSocket_returns, closeSocket_thread]
    exact fun idle last => ⟨closed.1, (kept.stopped idle last).2⟩
  · rw [closeSocket_returns]
    exact fun socket member => closeSocket_gone state (kept.failed socket member)

/-! ## The steps of the worker -/

/-- The worker moves on while the application is not behind a `Stop`. -/
theorem Kept.setWorker {state : LifeCycle Locals} (kept : state.Kept)
    (working : ¬ Ended state.thread) {serviceIsRunning : Bool} {thread : Option (Phase Locals)}
    (running : serviceIsRunning = true → ¬ Ended thread ∧ thread ≠ some .starting) :
    { state with serviceIsRunning := serviceIsRunning, thread := thread }.Kept := by
  constructor
  · exact kept.books
  · exact running
  · exact fun alone => absurd (kept.alone alone) working
  · exact kept.unset
  · exact fun idle last => absurd (kept.stopped idle last).2 working
  · exact kept.failed

theorem not_ended_of_valid {state : LifeCycle Locals} {found : ThreadStart} {met : Surroundings}
    (possible : state.Valid (.worker found met)) : ¬ Ended state.thread := by
  rintro (none | done)
  · simp [Valid, none] at possible
  · simp [Valid, done] at possible

theorem not_ended_of_phase {phase : Phase Locals} (unfinished : phase ≠ .done) :
    ¬ Ended (some phase) := by
  rintro (none | done)
  · cases none
  · exact unfinished (Option.some.inj done)

theorem kept_work (code : PeerCode Locals) {state : LifeCycle Locals} (kept : state.Kept)
    {found : ThreadStart} {met : Surroundings} (possible : state.Valid (.worker found met)) :
    (state.work code found met).Kept := by
  have working := not_ended_of_valid possible
  have stays : ∀ phase : Phase Locals, phase ≠ .done → phase ≠ .starting →
      { state with thread := some phase }.Kept := by
    intro phase unfinished started
    apply kept.setWorker working
    exact fun _ => ⟨not_ended_of_phase unfinished, fun same => started (Option.some.inj same)⟩
  unfold work
  cases here : state.thread with
  | none => exact kept
  | some phase =>
      cases phase with
      | starting =>
          apply kept.setWorker working
          exact fun _ => ⟨not_ended_of_phase (by simp), by simp⟩
      | looping locals =>
          dsimp only
          split
          · split
            · exact stays _ (by simp) (by simp)
            · exact stays _ (by simp) (by simp)
          · exact stays _ (by simp) (by simp)
      | leaving =>
          have still : ¬ Ended state.closeSocket.thread := by
            rw [closeSocket_thread]
            exact working
          apply (kept_closeSocket kept).setWorker still
          exact fun _ => ⟨not_ended_of_phase (by simp), by simp⟩
      | storing =>
          apply kept.setWorker working
          exact fun impossible => absurd impossible Bool.false_ne_true
      | done => exact kept

/-! ## The steps of the application -/

/-- A call returns. -/
theorem Kept.finish {state next : LifeCycle Locals} (kept : state.Kept) {result : Return}
    (books : Books next.ledger next.socketFd none)
    (running : next.serviceIsRunning = true →
      state.serviceIsRunning = true ∧ next.thread = state.thread)
    (returns : next.returns = state.returns) (grows : state.ledger.gone ⊆ next.ledger.gone)
    (stopped : result = .stop → next.socketFd = -1 ∧ Ended next.thread)
    (failed : ∀ socket, result = .run false (some socket) → socket ∈ next.ledger.gone) :
    (next.finish result).Kept := by
  constructor
  · exact books
  · intro flag
    rcases running flag with ⟨before, same⟩
    change ¬ Ended next.thread ∧ next.thread ≠ some .starting
    rw [same]
    exact kept.running before
  · exact False.elim
  · exact False.elim
  · intro _ last
    have whole : (next.returns ++ [result]).getLast? = some .stop := last
    rw [List.getLast?_concat] at whole
    exact stopped (Option.some.inj whole)
  · intro socket member
    rcases List.mem_append.mp member with earlier | last
    · rw [returns] at earlier
      exact grows (kept.failed socket earlier)
    · exact failed socket (List.mem_singleton.mp last).symm

theorem Kept.flag_of_ended {state : LifeCycle Locals} (kept : state.Kept)
    (ended : Ended state.thread) : state.serviceIsRunning = false := by
  cases flag : state.serviceIsRunning with
  | false => rfl
  | true => exact absurd ended (kept.running flag).1

/-- A call goes on. -/
theorem Kept.goOn {state next : LifeCycle Locals} (kept : state.Kept) (busy : next.call ≠ .idle)
    (books : Books next.ledger next.socketFd next.call.unassigned)
    (running : next.serviceIsRunning = true →
      state.serviceIsRunning = true ∧ next.thread = state.thread)
    (alone : Alone next.call → Ended next.thread) (unset : Unset next.call → next.socketFd = -1)
    (returns : next.returns = state.returns) (grows : state.ledger.gone ⊆ next.ledger.gone) :
    next.Kept := by
  constructor
  · exact books
  · intro flag
    rcases running flag with ⟨before, same⟩
    rw [same]
    exact kept.running before
  · exact alone
  · exact unset
  · exact fun idle => absurd idle busy
  · intro socket member
    rw [returns] at member
    exact grows (kept.failed socket member)

/-- What the invariant says at a known point of a call. -/
theorem Kept.booksAt {state : LifeCycle Locals} (kept : state.Kept) {call : Call}
    (here : state.call = call) : Books state.ledger state.socketFd call.unassigned :=
  here ▸ kept.books

theorem Kept.aloneAt {state : LifeCycle Locals} (kept : state.Kept) {call : Call}
    (here : state.call = call) (alone : Alone call) : Ended state.thread :=
  kept.alone (here ▸ alone)

theorem Kept.unsetAt {state : LifeCycle Locals} (kept : state.Kept) {call : Call}
    (here : state.call = call) (unset : Unset call) : state.socketFd = -1 :=
  kept.unset (here ▸ unset)

/-- The first test of `Run`. -/
theorem kept_testing (code : PeerCode Locals) {state : LifeCycle Locals} (kept : state.Kept)
    (here : state.call = .testing) (fd : Int) (contact : Contact) :
    (state.advance code fd contact).Kept := by
  have books := kept.booksAt here
  have unchanged := List.Subset.refl state.ledger.gone
  unfold advance
  rw [here]
  dsimp only
  split
  · apply kept.finish books (fun flag => ⟨flag, rfl⟩) rfl unchanged
    · exact fun impossible => by cases impossible
    · exact fun _ impossible => by cases impossible
  · exact kept.goOn (by simp) books (fun flag => ⟨flag, rfl⟩) False.elim False.elim rfl unchanged

/-- The block of `Stop` that closes `socket_fd_`. -/
theorem kept_closing (code : PeerCode Locals) {state : LifeCycle Locals} (kept : state.Kept)
    {inRun : Bool} (here : state.call = .closing inRun) (fd : Int) (contact : Contact) :
    (state.advance code fd contact).Kept := by
  have closed := closeSocket_books kept.books
  rw [here] at closed
  unfold advance
  rw [here]
  apply (kept_closeSocket kept).goOn
  · simp
  · exact closed.2
  · exact fun flag => ⟨flag, rfl⟩
  · exact False.elim
  · exact fun _ => closed.1
  · rfl
  · exact List.Subset.refl _

/-- `join` returns, and with it `Stop`. -/
theorem kept_joining (code : PeerCode Locals) {state : LifeCycle Locals} (kept : state.Kept)
    {inRun : Bool} (here : state.call = .joining inRun) (ended : Ended state.thread) (fd : Int)
    (contact : Contact) : (state.advance code fd contact).Kept := by
  have books := kept.booksAt here
  have closed := kept.unsetAt here trivial
  have lowered := kept.flag_of_ended ended
  have unchanged := List.Subset.refl state.ledger.gone
  unfold advance
  rw [here]
  dsimp only
  cases inRun with
  | true =>
      rw [if_pos rfl]
      refine kept.goOn (by simp) books ?_ (fun _ => Or.inl rfl) (fun _ => closed) rfl unchanged
      exact fun flag => absurd flag (by simp [lowered])
  | false =>
      rw [if_neg Bool.false_ne_true]
      refine kept.finish books ?_ rfl unchanged (fun _ => ⟨closed, Or.inl rfl⟩) ?_
      · exact fun flag => absurd flag (by simp [lowered])
      · exact fun _ impossible => by cases impossible

/-- `socket` returns to `Run`. -/
theorem kept_opening (code : PeerCode Locals) {state : LifeCycle Locals} (kept : state.Kept)
    (here : state.call = .opening) {fd : Int}
    (result : fd = -1 ∨ 0 < fd ∧ state.ledger.holder fd = none) (contact : Contact) :
    (state.advance code fd contact).Kept := by
  have books := kept.booksAt here
  have unchanged := List.Subset.refl state.ledger.gone
  unfold advance
  rw [here]
  dsimp only
  rcases result with failed | ⟨above, free⟩
  · rw [if_pos failed]
    apply kept.finish books (fun flag => ⟨flag, rfl⟩) rfl unchanged
    · exact fun impossible => by cases impossible
    · exact fun _ impossible => by cases impossible
  · have opened : fd ≠ -1 := by
      intro failed
      rw [failed] at above
      exact absurd above (by decide)
    have closed := kept.unsetAt here trivial
    rw [closed] at books
    rw [if_neg opened]
    apply kept.goOn
    · simp
    · change Books _ state.socketFd _
      rw [closed]
      exact books.obtain above free
    · exact fun flag => ⟨flag, rfl⟩
    · exact fun _ => kept.aloneAt here trivial
    · exact fun _ => closed
    · rfl
    · exact unchanged

/-- `Run` learns what the caster answers. -/
theorem kept_contacting (code : PeerCode Locals) {state : LifeCycle Locals} (kept : state.Kept)
    {fd : Int} {socket : Nat} (here : state.call = .contacting fd socket) (unused : Int)
    (contact : Contact) : (state.advance code unused contact).Kept := by
  have closed := kept.unsetAt here trivial
  have ended := kept.aloneAt here trivial
  have books := kept.booksAt here
  rw [closed] at books
  unfold advance
  rw [here]
  dsimp only
  rw [code.socketOpen_eq]
  cases success : (code.contact contact).success with
  | true =>
      apply kept.goOn
      · simp
      · change Books state.ledger state.socketFd _
        rw [closed]
        exact books
      · exact fun flag => ⟨flag, rfl⟩
      · exact fun _ => ended
      · exact fun _ => closed
      · rfl
      · exact List.Subset.refl _
  | false =>
      have abandoned := books.abandon
      apply kept.finish
      · change Books _ state.socketFd none
        rw [closed]
        exact abandoned.1
      · exact fun flag => ⟨flag, rfl⟩
      · rfl
      · change state.ledger.gone ⊆ (state.ledger.release fd).gone
        rw [Ledger.gone_release]
        exact List.subset_append_left _ _
      · exact fun impossible => by cases impossible
      · intro other same
        cases same
        exact abandoned.2

theorem kept_advance (code : PeerCode Locals) {state : LifeCycle Locals} (kept : state.Kept)
    {fd : Int} {contact : Contact} (possible : state.Valid (.application fd contact)) :
    (state.advance code fd contact).Kept := by
  have unchanged := List.Subset.refl state.ledger.gone
  cases here : state.call with
  | idle =>
      unfold advance
      rw [here]
      exact kept
  | testing => exact kept_testing code kept here fd contact
  | storing inRun =>
      have books := kept.booksAt here
      unfold advance
      rw [here]
      dsimp only
      refine kept.goOn (by simp) books ?_ False.elim False.elim rfl unchanged
      exact fun impossible => absurd impossible Bool.false_ne_true
  | closing inRun => exact kept_closing code kept here fd contact
  | joining inRun =>
      have ended : Ended state.thread := by
        simpa [Valid, here] using possible
      exact kept_joining code kept here ended fd contact
  | opening =>
      have result : fd = -1 ∨ 0 < fd ∧ state.ledger.holder fd = none := by
        simpa [Valid, here] using possible
      exact kept_opening code kept here result contact
  | contacting fd' socket => exact kept_contacting code kept here fd contact
  | assigning fd' socket =>
      have books := kept.booksAt here
      rw [kept.unsetAt here trivial] at books
      have ended := kept.aloneAt here trivial
      unfold advance
      rw [here]
      exact kept.goOn (by simp) books.assign (fun flag => ⟨flag, rfl⟩) (fun _ => ended) False.elim
        rfl unchanged
  | resetting socket =>
      have books := kept.booksAt here
      have lowered := kept.flag_of_ended (kept.aloneAt here trivial)
      unfold advance
      rw [here]
      dsimp only
      refine kept.finish books ?_ rfl unchanged ?_ ?_
      · exact fun flag => absurd flag (by simp [lowered])
      · exact fun impossible => by cases impossible
      · exact fun _ impossible => by cases impossible

theorem kept_step (code : PeerCode Locals) (state : LifeCycle Locals) (event : LifeEvent)
    (kept : state.Kept) (possible : state.Valid event) : (state.step code event).Kept := by
  cases event with
  | callRun =>
      have books := kept.booksAt possible
      exact kept.goOn (by simp [step]) books (fun flag => ⟨flag, rfl⟩) False.elim False.elim rfl
        (List.Subset.refl _)
  | callStop =>
      have books := kept.booksAt possible
      exact kept.goOn (by simp [step]) books (fun flag => ⟨flag, rfl⟩) False.elim False.elim rfl
        (List.Subset.refl _)
  | application fd contact => exact kept_advance code kept possible
  | worker found met => exact kept_work code kept possible

/-! ## What the application can rely on -/

/-- `Stop` has just returned, to the application or to `Run`. -/
def BehindStop (state : LifeCycle Locals) : Prop :=
  state.call = .opening ∨ state.call = .idle ∧ state.returns.getLast? = some .stop

/-- Every socket is closed at most once, and none by a call of `close` on a
number that is not open; the socket of a failed `Run` is closed; and behind a
`Stop` every socket is closed, the member is `-1`, no worker runs and the flag
is down. -/
structure Disciplined (state : LifeCycle Locals) : Prop where
  closedOnce : ∀ socket, state.ledger.gone.count socket ≤ 1
  noneInVain : ∀ call ∈ state.ledger.released, call.2 ≠ none
  failed : ∀ socket, .run false (some socket) ∈ state.returns → socket ∈ state.ledger.gone
  stopped : BehindStop state →
    state.ledger.Balanced ∧ state.socketFd = -1 ∧ Ended state.thread ∧
      state.serviceIsRunning = false

theorem Kept.disciplined {state : LifeCycle Locals} (kept : state.Kept) : state.Disciplined where
  closedOnce := fun socket => List.nodup_iff_count_le_one.mp kept.books.sound.goneOnce socket
  noneInVain := kept.books.noneInVain
  failed := kept.failed
  stopped := by
    have holds : state.socketFd = -1 → Ended state.thread → state.call.unassigned = none →
        state.ledger.Balanced ∧ state.socketFd = -1 ∧ Ended state.thread ∧
          state.serviceIsRunning = false := by
      intro closed ended alone
      have books := kept.books
      rw [closed, alone] at books
      exact ⟨books.balanced, closed, ended, kept.flag_of_ended ended⟩
    rintro (opening | ⟨idle, last⟩)
    · have closed := kept.unsetAt opening trivial
      exact holds closed (kept.aloneAt opening trivial) (by rw [opening]; rfl)
    · rcases kept.stopped idle last with ⟨closed, ended⟩
      exact holds closed ended (by rw [idle]; rfl)

theorem disciplined_run {code : PeerCode Locals} {events : List LifeEvent}
    (valid : ValidRun code events) : Execution.Always (step code) Disciplined init events :=
  (Execution.always_of_eachStep (kept_step code) kept_init valid).imp fun _ kept => kept.disciplined

/-! ## `Stop` returns -/

/-- The steps that the worker has before it when `socket_fd_` is `-1`. -/
def remaining : Option (Phase Locals) → Nat
  | none => 0
  | some .starting => 4
  | some (.looping _) => 3
  | some .leaving => 2
  | some .storing => 1
  | some .done => 0

theorem remaining_eq_zero_iff (thread : Option (Phase Locals)) :
    remaining thread = 0 ↔ Ended thread := by
  cases thread with
  | none => exact iff_of_true rfl (Or.inl rfl)
  | some phase => cases phase <;> simp [remaining, Ended]

theorem remaining_le_four (thread : Option (Phase Locals)) : remaining thread ≤ 4 := by
  cases thread with
  | none => exact Nat.zero_le 4
  | some phase => cases phase <;> simp [remaining]

/-- The worker, once started, cannot stay in its loop: `recv` fails. -/
theorem work_remaining (code : PeerCode Locals) {state : LifeCycle Locals}
    (closed : state.socketFd = -1) {found : ThreadStart} {met : Surroundings}
    (possible : state.Valid (.worker found met)) :
    (state.work code found met).socketFd = -1 ∧
      remaining (state.work code found met).thread + 1 = remaining state.thread := by
  have working := not_ended_of_valid possible
  unfold work
  cases here : state.thread with
  | none => exact absurd (Or.inl here) working
  | some phase =>
      cases phase with
      | starting => exact ⟨closed, rfl⟩
      | looping locals =>
          have fails : met.recv = .negative EBADF := by
            have result : state.socketFd = -1 → met.recv = .negative EBADF := by
              simpa [Valid, here] using possible
            exact result closed
          dsimp only
          rw [code.round_badDescriptor locals met fails]
          split
          · exact ⟨closed, rfl⟩
          · exact ⟨closed, rfl⟩
      | leaving =>
          have low : ¬ 0 < state.socketFd := by
            rw [closed]
            decide
          dsimp only
          rw [closeSocket, if_neg low]
          exact ⟨closed, rfl⟩
      | storing => exact ⟨closed, rfl⟩
      | done => exact absurd (Or.inr here) working

/-- The steps of the worker, one after the other. -/
def workerSteps (steps : List (ThreadStart × Surroundings)) : List LifeEvent :=
  steps.map fun input => .worker input.1 input.2

theorem run_remaining (code : PeerCode Locals) {state : LifeCycle Locals}
    (closed : state.socketFd = -1) {steps : List (ThreadStart × Surroundings)}
    (possible : Execution.EachStep (step code) Valid state (workerSteps steps)) :
    remaining (Execution.run (step code) state (workerSteps steps)).thread + steps.length =
      remaining state.thread := by
  induction steps generalizing state with
  | nil => rfl
  | cons input steps inductionHypothesis =>
      have first := work_remaining code closed possible.1
      have later := inductionHypothesis first.1 possible.2
      rw [← first.2, List.length_cons, ← Nat.add_assoc]
      exact congrArg (· + 1) later

/-- Until it has ended the worker can always take a step. -/
theorem exists_worker_step {state : LifeCycle Locals} (working : ¬ Ended state.thread) :
    ∃ found met, state.Valid (.worker found met) := by
  refine ⟨⟨0, false, [], 0⟩, ⟨.negative EBADF, ⟨0, 0⟩, []⟩, ?_⟩
  unfold Valid
  cases here : state.thread with
  | none => exact absurd (Or.inl here) working
  | some phase =>
      cases phase with
      | done => exact absurd (Or.inr here) working
      | looping locals => exact fun _ => rfl
      | starting => trivial
      | leaving => trivial
      | storing => trivial

/-- `join` waits for at most four steps of the worker, for no step longer than
the worker takes to end, and until then the worker can take its next step. -/
theorem join_waits {code : PeerCode Locals} {events : List LifeEvent}
    (valid : ValidRun code events) {inRun : Bool}
    (joining : (Execution.run (step code) init events).call = .joining inRun)
    {steps : List (ThreadStart × Surroundings)}
    (possible : Execution.EachStep (step code) Valid (Execution.run (step code) init events)
      (workerSteps steps)) :
    steps.length ≤ 4 ∧
      (Ended (Execution.run (step code) (Execution.run (step code) init events)
          (workerSteps steps)).thread ↔
        steps.length = remaining (Execution.run (step code) init events).thread) ∧
      (¬ Ended (Execution.run (step code) (Execution.run (step code) init events)
          (workerSteps steps)).thread →
        ∃ found met, (Execution.run (step code) (Execution.run (step code) init events)
          (workerSteps steps)).Valid (.worker found met)) := by
  have kept := (Execution.always_of_eachStep (kept_step code) kept_init valid).last
  have closed := kept.unsetAt joining trivial
  have count := run_remaining code closed possible
  have bound := remaining_le_four (Execution.run (step code) init events).thread
  refine ⟨by omega, ?_, exists_worker_step⟩
  rw [← remaining_eq_zero_iff]
  omega

end LifeCycle

open LifeCycle in
/-- Both peers, under every interleaving of `Run`, `Stop` and the worker. -/
theorem life_cycle (reportInterval : Int) (events : List LifeEvent) :
    (ValidRun (NtripClient.code reportInterval) events →
        Execution.Always (step (NtripClient.code reportInterval)) Disciplined init events) ∧
      (ValidRun NtripServer.code events →
        Execution.Always (step NtripServer.code) Disciplined init events) :=
  ⟨disciplined_run, disciplined_run⟩

/-- What the steps of the example below meet: the caster answers at once, and
`recv` fails. -/
def answered : Contact := ⟨true, true, true, fun _ => .bytes okLine⟩

def refusedRecv : Surroundings := ⟨.negative EBADF, ⟨0, 0⟩, []⟩

/-- `Run` opens descriptor 3, and `Stop` is called before the worker has
taken its first step. -/
def stopBeforeWorker : List LifeEvent :=
  .callRun :: List.replicate 8 (.application 3 answered) ++
    .callStop :: List.replicate 2 (.application 3 answered) ++
    List.replicate 4 (.worker ⟨1, false, [], 0⟩ refusedRecv) ++ [.application 3 answered]

open LifeCycle in
theorem life_cycle_stopBeforeWorker :
    Execution.Always (step (NtripClient.code 1)) Disciplined init stopBeforeWorker ∧
      Execution.Always (step NtripServer.code) Disciplined init stopBeforeWorker := by
  refine ⟨(life_cycle 1 stopBeforeWorker).1 ?_, (life_cycle 1 stopBeforeWorker).2 ?_⟩
  · exact ⟨rfl, trivial, trivial, trivial, Or.inl rfl, Or.inr ⟨by decide, rfl⟩, trivial, trivial,
      Or.inl rfl, rfl, trivial, trivial, trivial, fun _ => rfl, trivial, trivial, Or.inr rfl,
      trivial⟩
  · exact ⟨rfl, trivial, trivial, trivial, Or.inl rfl, Or.inr ⟨by decide, rfl⟩, trivial, trivial,
      Or.inl rfl, rfl, trivial, trivial, trivial, fun _ => rfl, trivial, trivial, Or.inr rfl,
      trivial⟩

/-- `Stop` has come to its `join` before the worker has taken a step. -/
def joiningEarly : List LifeEvent :=
  .callRun :: List.replicate 8 (.application 3 answered) ++
    .callStop :: List.replicate 2 (.application 3 answered)

open LifeCycle in
theorem join_waits_joiningEarly :
    Ended (Execution.run (step NtripServer.code) (Execution.run (step NtripServer.code) init
      joiningEarly) (workerSteps (List.replicate 4 (⟨1, false, [], 0⟩, refusedRecv)))).thread := by
  have valid : ValidRun NtripServer.code joiningEarly :=
    ⟨rfl, trivial, trivial, trivial, Or.inl rfl, Or.inr ⟨by decide, rfl⟩, trivial, trivial,
      Or.inl rfl, rfl, trivial, trivial, trivial⟩
  have joining : (Execution.run (step NtripServer.code) init joiningEarly).call =
      .joining false := rfl
  have possible : Execution.EachStep (step NtripServer.code) Valid
      (Execution.run (step NtripServer.code) init joiningEarly)
      (workerSteps (List.replicate 4 (⟨1, false, [], 0⟩, refusedRecv))) :=
    ⟨trivial, fun _ => rfl, trivial, trivial, trivial⟩
  exact (join_waits valid joining possible).2.1.mpr rfl

end Ntrip
