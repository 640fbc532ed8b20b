import Ntrip.Network.Transport
import Ntrip.Peers.Handshake

namespace Ntrip

/-!
# What a peer can conclude from the reply

As long as no role outlives its connection, the bytes that a connection gets
begin with a success line exactly when the caster has granted a request of
it, and otherwise they are one line of refusal or nothing.  So the two
programs at the other end, which look for a success line anywhere in what
they receive, take no stranger's bytes for it: when `Run` succeeds, the caster
has granted the request.
-/

namespace System

/-- The caster has granted a request of the connection. -/
def LoggedIn (sys : System) (conn : ConnId) : Prop :=
  ∃ entry ∈ sys.history, entry.conn = conn ∧ entry.ret = 0 ∧ LooksLikeRequest entry.buffer

instance (sys : System) (conn : ConnId) : Decidable (sys.LoggedIn conn) :=
  inferInstanceAs (Decidable (∃ entry ∈ sys.history, _ ∧ _ ∧ _))

theorem loggedIn_of_posted {sys : System} {conn : ConnId} {info : MountPointInformation}
    (posted : PostedBy sys.history conn info) : sys.LoggedIn conn := by
  rcases posted with ⟨entry, member, sender, granted, fields, ntripStr, reads, _⟩
  refine ⟨entry, member, sender, granted, ?_⟩
  by_contra data
  exact absurd (reads.1.symm.trans ((dispatch_eq_data_iff _).mpr data)) (by simp)

theorem loggedIn_of_got {sys : System} {conn : ConnId} {info : MountPointInformation}
    (got : GotBy sys.history conn info) : sys.LoggedIn conn := by
  rcases got with ⟨entry, member, sender, granted, fields, reads, _⟩
  refine ⟨entry, member, sender, granted, ?_⟩
  by_contra data
  exact absurd (reads.1.symm.trans ((dispatch_eq_data_iff _).mpr data)) (by simp)

/-- A buffer is granted for its sender and for nobody else. -/
theorem loggedIn_step_received {sys : System} {fd : Fd} {sender : ConnId}
    (owns : sys.owner fd = some sender) (buffer : Bytes) (outcomes : SendOutcomes) (conn : ConnId) :
    (sys.step (.received fd buffer outcomes)).LoggedIn conn ↔
      sys.LoggedIn conn ∨ (conn = sender ∧ Granted sys.caster outcomes buffer) := by
  have grown : (sys.step (.received fd buffer outcomes)).history =
      sys.history ++ [⟨sender, buffer, (parseData sys.caster outcomes fd buffer).ret⟩] := by
    simp [step, owns]
  rw [← accepted_request_iff sys.caster outcomes fd buffer]
  unfold LoggedIn
  rw [grown]
  constructor
  · rintro ⟨entry, member, same, granted, request⟩
    rcases List.mem_append.mp member with old | new
    · exact Or.inl ⟨entry, old, same, granted, request⟩
    · rw [List.mem_singleton.mp new] at same granted request
      exact Or.inr ⟨same.symm, granted, request⟩
  · rintro (⟨entry, old, parts⟩ | ⟨same, granted, request⟩)
    · exact ⟨entry, List.mem_append_left _ old, parts⟩
    · exact ⟨_, List.mem_append_right _ List.mem_cons_self, same.symm, granted, request⟩

end System

namespace Network

/-- No role outlives its connection. -/
def RolesKept (net : Network) (move : Move) : Prop :=
  Execution.EachStep System.step RoleKept net.sys (net.seen move)

/-- The bytes written to a connection tell whether it is logged in.  One that
got a line of refusal has been closed. -/
def Honest (net : Network) (conn : ConnId) : Prop :=
  (net.sys.LoggedIn conn ∧
      (okLine <+: (net.downlink conn).sent ∨ icyLine <+: (net.downlink conn).sent)) ∨
    (¬ net.sys.LoggedIn conn ∧
      ((net.downlink conn).sent = [] ∨
        (conn < net.sys.accepted ∧ (∀ fd, net.sys.owner fd ≠ some conn) ∧
          (net.downlink conn).sent ∈ refusalLines)))

/-- Nothing is addressed to a connection but answers to itself, unless it is
logged in. -/
theorem addressed_to_stranger {net : Network} (distinct : net.sys.Distinct)
    (owned : RoleOwned net.sys) {fd : Fd} {sender conn : ConnId}
    (owns : net.sys.owner fd = some sender) (other : conn ≠ sender)
    (stranger : ¬ net.sys.LoggedIn conn) (buffer : Bytes) (outcomes : SendOutcomes) :
    Channels.addressed conn (net.sys.deliveries
      ((Event.received fd buffer outcomes).sends net.sys.caster)) = [] := by
  by_cases holds : ∃ own, net.sys.owner own = some conn
  · rcases holds with ⟨own, held⟩
    rw [System.addressed_deliveries distinct held]
    apply answer_eq_nil
    intro call made receiver
    exfalso
    rcases sends_cases net.sys.caster (.received fd buffer outcomes) call made with
      ⟨info, member, _, inList⟩ | reply
    · rcases (owned info member).clients call.fd inList with ⟨client, holds, got⟩
      rw [receiver, held] at holds
      exact stranger (Option.some.inj holds ▸ System.loggedIn_of_got got)
    · have same : own = fd := receiver.symm.trans reply.2.1
      rw [same, owns] at held
      exact other (Option.some.inj held).symm
  · exact System.addressed_of_closed (fun own held => holds ⟨own, held⟩) _

/-- A connection that is closed stays so. -/
theorem closed_step {sys : System} {event : Event} (other : ∀ fresh, event ≠ .accept fresh)
    {conn : ConnId} (closed : ∀ fd, sys.owner fd ≠ some conn) (fd : Fd) :
    (sys.step event).owner fd ≠ some conn := by
  rw [System.owner_step_other sys other]
  split_ifs with gone
  · simp
  · exact closed fd

/-- What a buffer is answered with tells its sender whether it is logged in. -/
theorem honest_sender {net : Network} (distinct : net.sys.Distinct) (owned : RoleOwned net.sys)
    {fd : Fd} {sender : ConnId} (owns : net.sys.owner fd = some sender)
    (stranger : ¬ net.sys.LoggedIn sender) (silent : (net.downlink sender).sent = [])
    (count : Nat) (outcomes : SendOutcomes) :
    (net.step (.casterReceives fd count outcomes)).Honest sender := by
  have logged := System.loggedIn_step_received owns (net.buffer sender count) outcomes sender
  have written : ((net.step (.casterReceives fd count outcomes)).downlink sender).sent =
      answer (parseData net.sys.caster outcomes fd (net.buffer sender count)).sends fd := by
    rw [downlink_casterReceives owns, Channels.sent_writeAll, silent, List.nil_append]
    exact System.addressed_deliveries distinct owns _
  unfold Honest
  rw [written, sys_casterReceives owns, logged]
  by_cases granted : Granted net.sys.caster outcomes (net.buffer sender count)
  · refine Or.inl ⟨Or.inr ⟨rfl, granted⟩, ?_⟩
    rcases answer_granted granted with ok | icy
    · exact Or.inl (ok ▸ List.prefix_rfl)
    · exact Or.inr (icy ▸ List.prefix_rfl)
  · refine Or.inr ⟨fun now => now.elim stranger (fun new => granted new.2), ?_⟩
    by_cases refusal : Refused net.sys.caster outcomes fd (net.buffer sender count)
    · rcases answer_refused refusal with none | line
      · exact Or.inl none
      · refine Or.inr ⟨distinct.numbered fd sender owns, ?_, line⟩
        intro other holds
        have negative := (parseData_ret_neg_iff _ _ _ _).mpr refusal
        rw [System.owner_step_other net.sys (by simp), System.closedBy, if_pos negative] at holds
        split_ifs at holds with gone
        exact gone (List.mem_singleton.mpr (distinct.injective owns holds))
    · refine Or.inl (answer_eq_nil ?_)
      intro call made _
      exfalso
      have data : dispatch (net.buffer sender count) = .data := by
        by_contra request
        exact refusal (refused_of_request fd request granted)
      rcases served : servedRecord net.sys.caster.mountPointInfos fd with _ | info
      · simp [parseData, data, tryToForwardServerData, served] at made
        split_ifs at made <;> cases made
      · have member := List.mem_of_find?_eq_some served
        have serves : info.serverFd = fd := by simpa using List.find?_some served
        rcases (owned info member).server with ⟨server, holds, posted⟩
        rw [serves, owns] at holds
        exact stranger (Option.some.inj holds ▸ System.loggedIn_of_posted posted)

theorem honest_received {net : Network} (distinct : net.sys.Distinct) (owned : RoleOwned net.sys)
    {fd : Fd} {sender : ConnId} (owns : net.sys.owner fd = some sender) {conn : ConnId}
    (honest : net.Honest conn) (count : Nat) (outcomes : SendOutcomes) :
    (net.step (.casterReceives fd count outcomes)).Honest conn := by
  have logged := System.loggedIn_step_received owns (net.buffer sender count) outcomes conn
  have written : ((net.step (.casterReceives fd count outcomes)).downlink conn).sent =
      (net.downlink conn).sent ++ Channels.addressed conn (net.sys.deliveries
        ((Event.received fd (net.buffer sender count) outcomes).sends net.sys.caster)) := by
    rw [downlink_casterReceives owns, Channels.sent_writeAll]
  rcases honest with ⟨loggedIn, line⟩ | ⟨stranger, quiet⟩
  · unfold Honest
    rw [written, sys_casterReceives owns, logged]
    refine Or.inl ⟨Or.inl loggedIn, line.imp ?_ ?_⟩
    · exact fun leading => leading.trans (List.prefix_append _ _)
    · exact fun leading => leading.trans (List.prefix_append _ _)
  · by_cases own : conn = sender
    · rw [own] at stranger quiet ⊢
      rcases quiet with silent | ⟨_, closed, _⟩
      · exact honest_sender distinct owned owns stranger silent count outcomes
      · exact absurd owns (closed fd)
    · unfold Honest
      rw [written, addressed_to_stranger distinct owned owns own stranger, List.append_nil,
        sys_casterReceives owns, logged]
      refine Or.inr ⟨fun now => now.elim stranger (fun new => own new.1), quiet.imp_right ?_⟩
      rintro ⟨numbered, closed, line⟩
      exact ⟨numbered, closed_step (by simp) closed, line⟩

theorem honest_step {net : Network} (distinct : net.sys.Distinct) (owned : RoleOwned net.sys)
    {move : Move} (valid : net.Valid move) {conn : ConnId} (honest : net.Honest conn) :
    (net.step move).Honest conn := by
  cases move with
  | peerSends sender bytes => exact honest
  | peerReceives reader count =>
      have same : (((net.step (.peerReceives reader count)).downlink) conn).sent =
          (net.downlink conn).sent := Channels.sent_read net.downlink reader conn count
      unfold Honest
      rw [same]
      exact honest
  | connect fd =>
      refine honest.imp_right fun quiet => ⟨quiet.1, quiet.2.imp_right ?_⟩
      rintro ⟨numbered, closed, line⟩
      refine ⟨Nat.lt_succ_of_lt numbered, ?_, line⟩
      intro other holds
      change (net.sys.step (.accept fd)).owner other = some conn at holds
      rw [System.owner_step_accept] at holds
      split_ifs at holds with same
      · exact absurd (Option.some.inj holds) (Nat.ne_of_gt numbered)
      · exact closed other holds
  | hangUp fd =>
      refine honest.imp_right fun quiet => ⟨quiet.1, quiet.2.imp_right ?_⟩
      rintro ⟨numbered, closed, line⟩
      exact ⟨numbered, closed_step (by simp) closed, line⟩
  | casterReceives fd count outcomes =>
      rcases valid with ⟨_, sender, owns, _⟩
      exact honest_received distinct owned owns honest count outcomes

/-! ## Whole runs -/

theorem roleOwned_step {net : Network} (owned : RoleOwned net.sys) {move : Move}
    (valid : net.Valid move) (kept : net.RolesKept move) : RoleOwned (net.step move).sys := by
  rw [sys_step]
  have preserved : ∀ (sys : System) event, RoleOwned sys → sys.Valid event ∧ RoleKept sys event →
      RoleOwned (sys.step event) :=
    fun sys event owned steps => (step_roleOwned_iff sys event owned steps.1).mpr steps.2
  exact (Execution.always_of_eachStep preserved owned ((seen_valid valid).and kept)).last

/-- Throughout a run in which no role outlives its connection, every
connection can tell from its first bytes whether it is logged in. -/
theorem always_honest {moves : List Move} (valid : ValidRun moves)
    (kept : Execution.EachStep step RolesKept init moves) :
    Execution.Always step
      (fun net => net.sys.Distinct ∧ RoleOwned net.sys ∧ ∀ conn, net.Honest conn) init moves := by
  apply Execution.always_of_eachStep _ _ (valid.and kept)
  · rintro net move ⟨distinct, owned, honest⟩ ⟨possible, keeps⟩
    exact ⟨net.step_distinct move distinct, roleOwned_step owned possible keeps,
      fun conn => honest_step distinct owned possible (honest conn)⟩
  · refine ⟨System.distinct_init, fun _ member => absurd member List.not_mem_nil, ?_⟩
    intro conn
    refine Or.inr ⟨?_, Or.inl rfl⟩
    rintro ⟨entry, member, _⟩
    exact absurd member List.not_mem_nil

/-- A connection is logged in exactly when its bytes begin with a success
line; otherwise they are one line of refusal or nothing. -/
def FirstLineTells (net : Network) (conn : ConnId) : Prop :=
  (net.sys.LoggedIn conn ↔
      okLine <+: (net.downlink conn).sent ∨ icyLine <+: (net.downlink conn).sent) ∧
    (¬ net.sys.LoggedIn conn →
      (net.downlink conn).sent = [] ∨ (net.downlink conn).sent ∈ refusalLines)

theorem Honest.firstLineTells {net : Network} {conn : ConnId} (honest : net.Honest conn) :
    net.FirstLineTells conn := by
  have refused : ∀ line ∈ refusalLines, ¬ (okLine <+: line ∨ icyLine <+: line) := by decide
  rcases honest with ⟨loggedIn, line⟩ | ⟨stranger, silent | ⟨_, _, refusal⟩⟩
  · exact ⟨iff_of_true loggedIn line, fun stranger => absurd loggedIn stranger⟩
  · rw [FirstLineTells, silent]
    exact ⟨iff_of_false stranger (by decide), fun _ => Or.inl rfl⟩
  · exact ⟨iff_of_false stranger (refused _ refusal), fun _ => Or.inr refusal⟩

/-- In every state of a run in which no role outlives its connection, the
first line tells. -/
theorem first_line_tells (moves : List Move) (valid : ValidRun moves)
    (kept : Execution.EachStep step RolesKept init moves) :
    Execution.Always step (fun net => ∀ conn, net.FirstLineTells conn) init moves :=
  (always_honest valid kept).imp fun _ holds conn => (holds.2.2 conn).firstLineTells

/-- The move is a turn of the event loop that grants a request of the
connection. -/
def Grants (net : Network) (conn : ConnId) (move : Move) : Prop :=
  ∃ fd count outcomes, move = .casterReceives fd count outcomes ∧
    net.sys.owner fd = some conn ∧ Granted net.sys.caster outcomes (net.buffer conn count)

theorem loggedIn_step (net : Network) (move : Move) (conn : ConnId) :
    (net.step move).sys.LoggedIn conn ↔ net.sys.LoggedIn conn ∨ net.Grants conn move := by
  have quiet : (∀ fd count outcomes, move ≠ .casterReceives fd count outcomes) →
      ¬ net.Grants conn move :=
    fun other ⟨fd, count, outcomes, same, _⟩ => other fd count outcomes same
  cases move with
  | connect fd => exact (or_iff_left (quiet (by simp))).symm
  | peerSends sender bytes => exact (or_iff_left (quiet (by simp))).symm
  | peerReceives reader count => exact (or_iff_left (quiet (by simp))).symm
  | hangUp fd => exact (or_iff_left (quiet (by simp))).symm
  | casterReceives fd count outcomes =>
      have grants : net.Grants conn (.casterReceives fd count outcomes) ↔
          net.sys.owner fd = some conn ∧
            Granted net.sys.caster outcomes (net.buffer conn count) := by
        constructor
        · rintro ⟨_, _, _, same, holds, granted⟩
          cases same
          exact ⟨holds, granted⟩
        · exact fun parts => ⟨fd, count, outcomes, rfl, parts.1, parts.2⟩
      rw [grants]
      cases owner : net.sys.owner fd with
      | none => simp [step, owner]
      | some sender =>
          rw [sys_casterReceives owner, System.loggedIn_step_received owner, Option.some.injEq]
          refine or_congr_right ⟨?_, ?_⟩
          · rintro ⟨rfl, granted⟩
            exact ⟨rfl, granted⟩
          · rintro ⟨rfl, granted⟩
            exact ⟨rfl, granted⟩

/-- What is logged in was granted a request in some turn of the run. -/
theorem loggedIn_iff (moves : List Move) (conn : ConnId) :
    (Execution.run step init moves).sys.LoggedIn conn ↔
      ∃ front move back, moves = front ++ move :: back ∧
        (Execution.run step init front).Grants conn move := by
  induction moves using List.reverseRecOn with
  | nil =>
      refine iff_of_false ?_ ?_
      · rintro ⟨entry, member, _⟩
        exact absurd member List.not_mem_nil
      · rintro ⟨front, move, back, split, _⟩
        exact absurd split.symm (by simp)
  | append_singleton moves last inductionHypothesis =>
      rw [Execution.run_append]
      change ((Execution.run step init moves).step last).sys.LoggedIn conn ↔ _
      rw [loggedIn_step, inductionHypothesis]
      constructor
      · rintro (⟨front, move, back, split, granted⟩ | granted)
        · exact ⟨front, move, back ++ [last], by rw [split, List.append_assoc]; rfl, granted⟩
        · exact ⟨moves, last, [], rfl, granted⟩
      · rintro ⟨front, move, back, split, granted⟩
        rcases List.eq_nil_or_concat back with rfl | ⟨rest, final, rfl⟩
        · have parts := List.append_inj' split rfl
          rw [← parts.1, ← (List.cons.inj parts.2).1] at granted
          exact Or.inr granted
        · rw [List.concat_eq_append, ← List.cons_append, ← List.append_assoc] at split
          exact Or.inl ⟨front, move, rest, (List.append_inj' split rfl).1, granted⟩

end Network

/-! ## The programs at the other end -/

theorem answers_mono {part whole : Bytes} (inside : part <:+: whole)
    (answer : answers part = true) : answers whole = true := by
  unfold answers at answer ⊢
  rw [Bool.or_eq_true, mentions_iff, mentions_iff] at answer ⊢
  exact answer.imp (fun ok => ok.trans inside) (fun icy => icy.trans inside)

/-- A loop that is left in time has found a success line. -/
theorem exists_answer_of_left {confirmed : Bool} {polls : Nat → RecvResult} {timeout poll : Nat}
    {remaining : Int} (exit : (handshakeLoop confirmed polls timeout poll).exit = .left remaining)
    (inTime : 0 ≤ remaining) :
    ∃ result ∈ (handshakeLoop confirmed polls timeout poll).received, answers result = true := by
  induction timeout generalizing poll with
  | zero =>
      rw [← LoopExit.left.inj exit] at inTime
      exact absurd inTime (by decide)
  | succ timeout inductionHypothesis =>
      rw [handshakeLoop] at exit ⊢
      cases recv : polls poll with
      | nothing =>
          rw [recv] at exit
          exact inductionHypothesis exit
      | closed =>
          rw [recv] at exit
          cases exit
      | bytes result =>
          rw [recv] at exit
          dsimp only at exit ⊢
          cases verdict : answers result with
          | true =>
              refine ⟨result, ?_, verdict⟩
              cases confirmed <;> exact List.mem_cons_self
          | false =>
              rw [verdict] at exit
              rcases inductionHypothesis exit with ⟨later, member, answer⟩
              exact ⟨later, List.mem_cons_of_mem result member, answer⟩

theorem exists_answer_of_success {confirmed : Bool} {polls : Nat → RecvResult}
    (success : (NtripClient.runHandshake confirmed polls).success = true) :
    ∃ result ∈ (NtripClient.runHandshake confirmed polls).received, answers result = true := by
  unfold NtripClient.runHandshake Handshake.outcome at success ⊢
  cases exit : (handshakeLoop confirmed polls 30 0).exit with
  | returned =>
      rw [exit] at success
      cases success
  | left remaining =>
      rw [exit] at success
      by_cases out : remaining ≤ 0
      · simp [out] at success
      · simpa only [if_neg out] using exists_answer_of_left exit (by omega)

namespace Network

/-- `Run` of either program succeeds only when the event loop has granted a
request of its connection, whatever everybody else does and however the bytes
come in. -/
theorem login_agreement (moves : List Move) (valid : ValidRun moves)
    (kept : Execution.EachStep step RolesKept init moves) (conn : ConnId) (confirmed : Bool)
    (polls : Nat → RecvResult) (outcome : RunOutcome)
    (ran : outcome = NtripServer.runHandshake polls ∨
      outcome = NtripClient.runHandshake confirmed polls)
    (read : outcome.received.flatten <+: ((Execution.run step init moves).downlink conn).taken)
    (success : outcome.success = true) :
    ∃ front move back, moves = front ++ move :: back ∧
      (Execution.run step init front).Grants conn move := by
  have answered : ∃ result ∈ outcome.received, answers result = true := by
    rcases ran with rfl | rfl
    · exact exists_answer_of_success success
    · exact exists_answer_of_success success
  rw [← loggedIn_iff]
  rcases (always_honest valid kept).last.2.2 conn with ⟨loggedIn, _⟩ | ⟨_, quiet⟩
  · exact loggedIn
  · rcases answered with ⟨result, member, answer⟩
    have inside : result <:+: ((Execution.run step init moves).downlink conn).sent :=
      (List.infix_of_mem_flatten member).trans
        (read.isInfix.trans (Channel.taken_prefix _).isInfix)
    have found := answers_mono inside answer
    exfalso
    rcases quiet with silent | ⟨_, _, line⟩
    · rw [silent] at found
      cases found
    · have unanswered : ∀ line ∈ refusalLines, answers line = false := by decide
      rw [unanswered _ line] at found
      cases found

/-- The client reads its reply. -/
def replyRead : List Move :=
  subscription ++ [.peerReceives 1 17]

theorem rolesKept_replyRead : Execution.EachStep step RolesKept init replyRead := by
  refine ⟨⟨trivial, trivial⟩, ⟨trivial, trivial⟩, trivial,
    ⟨fun listed => absurd listed (by decide +kernel), trivial⟩, trivial,
    ⟨fun listed => absurd listed (by decide +kernel), trivial⟩, trivial, trivial⟩

theorem first_line_tells_replyRead :
    Execution.Always step (fun net => ∀ conn, net.FirstLineTells conn) init replyRead :=
  first_line_tells replyRead (by decide +kernel) rolesKept_replyRead

theorem login_agreement_replyRead :
    ∃ front move back, replyRead = front ++ move :: back ∧
      (Execution.run step init front).Grants 1 move :=
  login_agreement replyRead (by decide +kernel) rolesKept_replyRead 1 true
    (fun poll => if poll = 1 then .bytes okLine else .nothing) _ (Or.inr rfl)
    (by decide +kernel) (by decide +kernel)

end Network
end Ntrip
