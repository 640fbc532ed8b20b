import Ntrip.Network.Login

namespace Ntrip

/-!
# Where a connection's bytes come from

As long as no role outlives its connection, whatever is written to a
connection is made of fixed replies and of whole buffers, each sent by a
connection that registered a mount point whose name and account the receiver
has asked for with success.
-/

namespace System

/-- The connection may get these bytes: a reply, or a buffer of a server whose
record it has asked for. -/
def Permitted (sys : System) (conn : ConnId) (piece : Bytes) : Prop :=
  piece ∈ replyLines ∨
    ∃ entry ∈ sys.history, entry.buffer = piece ∧
      ∃ info, PostedBy sys.history entry.conn info ∧ GotBy sys.history conn info

theorem Permitted.mono {sys next : System} {conn : ConnId} {piece : Bytes}
    (kept : sys.history ⊆ next.history) (permitted : sys.Permitted conn piece) :
    next.Permitted conn piece := by
  refine permitted.imp_right ?_
  rintro ⟨entry, member, same, info, posted, got⟩
  exact ⟨entry, kept member, same, info, posted.mono kept ⟨rfl, rfl, rfl⟩,
    got.mono kept ⟨rfl, rfl, rfl⟩⟩

theorem history_subset_step (sys : System) (event : Event) :
    sys.history ⊆ (sys.step event).history := by
  cases event with
  | accept fd => exact List.Subset.refl _
  | received fd buffer outcomes => exact List.subset_append_left _ _
  | disconnected fd => exact List.Subset.refl _

/-- Where roles are owned, a buffer goes to nobody else. -/
theorem permitted_of_sent {sys : System} (owned : RoleOwned sys) {fd other : Fd}
    {sender conn : ConnId} (owns : sys.owner fd = some sender) (holds : sys.owner other = some conn)
    {buffer : Bytes} {outcomes : SendOutcomes} {call : SendCall}
    (made : call ∈ (parseData sys.caster outcomes fd buffer).sends) (receiver : call.fd = other) :
    (sys.step (.received fd buffer outcomes)).Permitted conn call.message := by
  rcases sends_messages sys.caster outcomes fd buffer call made with
    ⟨same, info, member, serves, listed⟩ | reply
  · have kept := history_subset_step sys (.received fd buffer outcomes)
    rcases (owned info member).server with ⟨server, serving, posted⟩
    rcases (owned info member).clients call.fd listed with ⟨client, asking, got⟩
    rw [serves, owns] at serving
    rw [receiver, holds] at asking
    cases serving
    cases asking
    refine Or.inr ⟨⟨sender, buffer, (parseData sys.caster outcomes fd buffer).ret⟩, ?_, same.symm,
      info, posted.mono kept ⟨rfl, rfl, rfl⟩, got.mono kept ⟨rfl, rfl, rfl⟩⟩
    simp [step, owns]
  · exact Or.inl reply.2.2

end System

namespace Network

/-- What was written to the connection, in pieces that it may get. -/
def Sourced (net : Network) (conn : ConnId) : Prop :=
  ∃ pieces : List Bytes, (net.downlink conn).sent = pieces.flatten ∧
    ∀ piece ∈ pieces, net.sys.Permitted conn piece

theorem history_subset_move (net : Network) (move : Move) :
    net.sys.history ⊆ (net.step move).sys.history := by
  rw [sys_step]
  have preserved : ∀ (sys : System) event, net.sys.history ⊆ sys.history →
      net.sys.history ⊆ (sys.step event).history :=
    fun sys event kept => List.Subset.trans kept (sys.history_subset_step event)
  exact (Execution.always_of_preserved preserved (List.Subset.refl _) (net.seen move)).last

theorem Sourced.of_sent {net next : Network} {conn : ConnId} (sourced : net.Sourced conn)
    (kept : net.sys.history ⊆ next.sys.history)
    (same : (next.downlink conn).sent = (net.downlink conn).sent) : next.Sourced conn := by
  rcases sourced with ⟨pieces, whole, permitted⟩
  exact ⟨pieces, same.trans whole, fun piece member => (permitted piece member).mono kept⟩

theorem sourced_step {net : Network} (distinct : net.sys.Distinct) (owned : RoleOwned net.sys)
    (move : Move) {conn : ConnId} (sourced : net.Sourced conn) : (net.step move).Sourced conn := by
  have kept := net.history_subset_move move
  cases move with
  | connect fd => exact sourced.of_sent kept rfl
  | peerSends sender bytes => exact sourced.of_sent kept rfl
  | hangUp fd => exact sourced.of_sent kept rfl
  | peerReceives reader count =>
      exact sourced.of_sent kept (Channels.sent_read net.downlink reader conn count)
  | casterReceives fd count outcomes =>
      cases owner : net.sys.owner fd with
      | none => exact sourced.of_sent kept (by simp [step, owner])
      | some sender =>
          have written : ((net.step (.casterReceives fd count outcomes)).downlink conn).sent =
              (net.downlink conn).sent ++ Channels.addressed conn (net.sys.deliveries
                ((Event.received fd (net.buffer sender count) outcomes).sends net.sys.caster)) := by
            rw [downlink_casterReceives owner, Channels.sent_writeAll]
          by_cases holds : ∃ own, net.sys.owner own = some conn
          · rcases holds with ⟨own, held⟩
            rw [System.addressed_deliveries distinct held] at written
            rcases sourced with ⟨pieces, whole, permitted⟩
            refine ⟨pieces ++ _, by rw [written, whole, answer, List.flatten_append], ?_⟩
            intro piece member
            rcases List.mem_append.mp member with old | new
            · exact (permitted piece old).mono kept
            · rcases List.mem_map.mp new with ⟨call, taken, rfl⟩
              rcases List.mem_filter.mp (List.mem_filter.mp taken).1 with ⟨made, receiver⟩
              rw [sys_casterReceives owner]
              exact System.permitted_of_sent owned owner held made (by simpa using receiver)
          · rw [System.addressed_of_closed (fun own held => holds ⟨own, held⟩),
              List.append_nil] at written
            exact sourced.of_sent kept written

/-- In every state of a run in which no role outlives its connection, nothing
is written to a connection but replies and the buffers of servers whose mount
point and account it has named with success. -/
theorem bytes_have_provenance (moves : List Move) (valid : ValidRun moves)
    (kept : Execution.EachStep step RolesKept init moves) :
    Execution.Always step (fun net => ∀ conn, net.Sourced conn) init moves := by
  have preserved : ∀ (net : Network) move,
      (net.sys.Distinct ∧ RoleOwned net.sys ∧ ∀ conn, net.Sourced conn) →
      net.Valid move ∧ net.RolesKept move →
        ((net.step move).sys.Distinct ∧ RoleOwned (net.step move).sys ∧
          ∀ conn, (net.step move).Sourced conn) := by
    rintro net move ⟨distinct, owned, sourced⟩ ⟨possible, keeps⟩
    exact ⟨net.step_distinct move distinct, roleOwned_step owned possible keeps,
      fun conn => sourced_step distinct owned move (sourced conn)⟩
  have first : init.sys.Distinct ∧ RoleOwned init.sys ∧ ∀ conn, init.Sourced conn :=
    ⟨System.distinct_init, fun _ member => absurd member List.not_mem_nil,
      fun _ => ⟨[], rfl, fun _ member => absurd member List.not_mem_nil⟩⟩
  exact (Execution.always_of_eachStep preserved first (valid.and kept)).imp
    fun _ holds => holds.2.2

/-- The server's bytes go to its client. -/
def passedOn : List Move :=
  subscription ++ [.peerSends 0 [0xD3, 0, 0], .casterReceives 5 kBufferSize (fun _ => true)]

theorem bytes_have_provenance_passedOn :
    Execution.Always step (fun net => ∀ conn, net.Sourced conn) init passedOn := by
  apply bytes_have_provenance passedOn (by decide +kernel)
  refine ⟨⟨trivial, trivial⟩, ⟨trivial, trivial⟩, trivial,
    ⟨fun listed => absurd listed (by decide +kernel), trivial⟩, trivial,
    ⟨fun listed => absurd listed (by decide +kernel), trivial⟩, trivial,
    ⟨fun _ refusal => ?_, trivial⟩, trivial⟩
  have negative := (parseData_ret_neg_iff _ _ _ _).mpr refusal
  revert negative
  decide +kernel

end Network
end Ntrip
