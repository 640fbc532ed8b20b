import Ntrip.Caster.Segmentation
import Ntrip.Peers.Credentials

namespace Ntrip

/-!
# The peers' requests in pieces

Both programs hand their whole request to one `send`, and the network may
still deliver it in pieces.  The first theorem holds for every configuration;
the rest of the module works out, for well-formed ones, which cuts are safe.
A client's request has no safe cut at all, and a server's has none before the
end of its source-table string.
-/

open Sequence

/-- Either program, with the values that it is configured with. -/
inductive Peer
  | server (server : NtripServer)
  | client (client : NtripClient)

/-- The text that the peer formats. -/
def Peer.request (build : Build) : Peer → Bytes
  | .server program => program.request build
  | .client program => program.request build

theorem Peer.request_begins (build : Build) (peer : Peer) :
    ascii "GET /" <+: peer.request build ∨ ascii "POST /" <+: peer.request build := by
  cases peer with
  | server program =>
      refine Or.inr ?_
      simp only [Peer.request, NtripServer.request, NtripServer.formatLines, joinLines,
        List.map_cons, List.flatten_cons, List.append_assoc]
      exact List.prefix_append _ _
  | client program =>
      refine Or.inl ?_
      simp only [Peer.request, NtripClient.request, NtripClient.formatLines, joinLines,
        List.map_cons, List.flatten_cons, List.append_assoc]
      exact List.prefix_append _ _

/-- A request that would be accepted as a whole has the same effect in pieces
exactly when the first piece alone is read like the whole and every later
piece is data that its sender may send by then. -/
theorem segmentation_iff (build : Build) (peer : Peer) {sys : System} {fd : Fd}
    {outcomes : SendOutcomes} {text first : Bytes} {rest : List Delivery}
    (sent : sendFormatted (peer.request build) = some text)
    (isOpen : (sys.owner fd).isSome = true) (fresh : fd ∉ descriptors sys.caster.mountPointInfos)
    (accepted : (parseData sys.caster outcomes fd text).ret = 0)
    (cut : first ++ (rest.map Delivery.buffer).flatten = text) :
    sys.SameEffect fd (⟨first, outcomes⟩ :: rest) [⟨text, outcomes⟩] ↔
      ReadsAlike sys.caster.mountPointInfos text first ∧
        ∀ later ∈ rest, LaterPasses text later.buffer := by
  have begins := Peer.request_begins build peer
  rw [← (sendFormatted_eq_some.mp sent).1] at begins
  exact sameEffect_request_iff isOpen fresh begins ⟨_, cut⟩ accepted

/-- A fresh connection on descriptor 5. -/
def oneConnection : System :=
  System.init.step (.accept 5)

/-- The request of the server, cut behind its source-table line. -/
def postedPieces : Bytes × Bytes :=
  (joinLines crlf (((mountA.server strA userPass localhost 8090).formatLines release).take 6),
    joinLines crlf (((mountA.server strA userPass localhost 8090).formatLines release).drop 6))

theorem parseData_oneConnection :
    (parseData oneConnection.caster (fun _ => true) 5
      ((mountA.server strA userPass localhost 8090).request release)).ret = 0 := by
  change (parseData .empty _ _ _).ret = 0
  rw [parseData_postA]

theorem sameEffect_of_postedPieces :
    oneConnection.SameEffect 5 [⟨postedPieces.1, fun _ => true⟩, ⟨postedPieces.2, fun _ => true⟩]
      [⟨(mountA.server strA userPass localhost 8090).request release, fun _ => true⟩] := by
  have cut : postedPieces.1 ++ postedPieces.2 =
      (mountA.server strA userPass localhost 8090).request release := by
    rw [postedPieces, ← joinLines_append, List.take_append_drop, NtripServer.request]
  have first : parseData oneConnection.caster (fun _ => true) 5 postedPieces.1 =
      ⟨0, registeredA, [⟨.serverConnectRequest, 5, okLine, true⟩]⟩ := by
    decide +kernel
  refine (segmentation_iff release (.server (mountA.server strA userPass localhost 8090))
    sendFormatted_postA rfl List.not_mem_nil parseData_oneConnection
    (by rw [List.map_singleton, List.flatten_singleton, cut])).mpr ⟨Or.inl ?_, ?_⟩
  · refine (same_registration_iff (dispatch_server release _) (by decide +kernel)
      parseData_oneConnection (by rw [first])).mp ?_
    rw [first]
    change _ = (parseData .empty _ _ _).caster
    rw [parseData_postA]
  · intro later member
    rw [List.mem_singleton.mp member]
    exact ⟨by decide +kernel, fun get => absurd ((dispatch_server release _).symm.trans get) (by decide)⟩

/-- A request of which only the method's name arrives at first is lost. -/
theorem segmentation_fails :
    ¬ ∀ (build : Build) (peer : Peer) (sys : System) (fd : Fd) (outcomes : SendOutcomes)
      (text : Bytes) (pieces : List Bytes), sendFormatted (peer.request build) = some text →
        (sys.owner fd).isSome = true → fd ∉ descriptors sys.caster.mountPointInfos →
        (parseData sys.caster outcomes fd text).ret = 0 → pieces.flatten = text →
        (∀ piece ∈ pieces, piece ≠ []) →
        sys.SameEffect fd (pieces.map fun piece => ⟨piece, outcomes⟩) [⟨text, outcomes⟩] := by
  intro always
  have same := always release (.server (mountA.server strA userPass localhost 8090)) oneConnection 5
    (fun _ => true) _ [ascii "POST", ((mountA.server strA userPass localhost 8090).request
      release).drop 4] sendFormatted_postA rfl List.not_mem_nil parseData_oneConnection
    (by decide +kernel) (by decide +kernel)
  have stillOpen := same.2
  revert stillOpen
  decide +kernel

end Ntrip
