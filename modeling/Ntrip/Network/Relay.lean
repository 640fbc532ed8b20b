import Mathlib.Logic.Relation
import Ntrip.Network.EndToEnd

namespace Ntrip
namespace Network

/-!
# Relays

A program that is a client of one caster and a server of another forwards in
its callback.  It drops what comes while its server is not running and does
not look at what `SendData` returns.  Whatever is lost on the way, a chain of
relays never reorders, repeats or invents a byte; and when no relay loses any,
what arrives at its end is one piece of what went in.
-/

/-- One call of the callback: the buffer, whether the server is running, and
what `send` returns. -/
structure Callback where
  buffer : Bytes
  running : Bool
  sent : Int
deriving DecidableEq

/-- The bytes that the callback passes on. -/
def Callback.passed (callback : Callback) : Bytes :=
  if callback.running then (NtripServer.sendData callback.buffer callback.sent).2 else []

/-- Nothing is lost in the callback. -/
def Callback.Whole (callback : Callback) : Prop :=
  callback.running = true ∧ (callback.buffer.length : Int) = callback.sent

def relayedBytes (callbacks : List Callback) : Bytes :=
  (callbacks.map Callback.passed).flatten

theorem Callback.passed_prefix (callback : Callback) : callback.passed <+: callback.buffer := by
  rw [passed]
  split
  · exact List.take_prefix _ _
  · exact List.nil_prefix

theorem Callback.Whole.passed_eq {callback : Callback} (whole : callback.Whole) :
    callback.passed = callback.buffer := by
  rw [passed, if_pos whole.1, NtripServer.sendData, ← whole.2, Int.toNat_natCast,
    List.take_length]

theorem relayedBytes_sublist (callbacks : List Callback) :
    (relayedBytes callbacks).Sublist (callbacks.map (·.buffer)).flatten := by
  induction callbacks with
  | nil => exact List.Sublist.refl _
  | cons callback rest inductionHypothesis =>
      exact callback.passed_prefix.sublist.append inductionHypothesis

theorem relayedBytes_of_whole {callbacks : List Callback}
    (whole : ∀ callback ∈ callbacks, callback.Whole) :
    relayedBytes callbacks = (callbacks.map (·.buffer)).flatten :=
  congrArg List.flatten (List.map_congr_left fun callback member =>
    (whole callback member).passed_eq)

/-- What one caster has delivered is passed on by callbacks, and the server of
the next one has handed over the last part of it. -/
def Relays (condition : Callback → Prop) (hop next : Hop) : Prop :=
  ∃ callbacks : List Callback, callbacks.map (·.buffer) = hop.delivered ∧
    (∀ callback ∈ callbacks, condition callback) ∧ next.handed <:+ relayedBytes callbacks

theorem Relays.sublist {condition : Callback → Prop} {hop next : Hop}
    (relays : Relays condition hop next) : next.handed.Sublist hop.handed := by
  rcases relays with ⟨callbacks, buffers, _, handed⟩
  have passed := relayedBytes_sublist callbacks
  rw [buffers] at passed
  exact (handed.sublist.trans passed).trans hop.delivered_prefix.sublist

theorem Relays.infix {hop next : Hop} (relays : Relays Callback.Whole hop next) :
    next.handed <:+: hop.handed := by
  rcases relays with ⟨callbacks, buffers, whole, handed⟩
  rw [relayedBytes_of_whole whole, buffers] at handed
  exact handed.isInfix.trans hop.delivered_prefix.isInfix

/-- Through any number of relays, what the last client has been given is in
the order in which it was handed over at the first caster, with nothing added;
and it is one piece of that when no callback loses a byte. -/
theorem relays_keep_order (first last : Hop) :
    (Relation.ReflTransGen (Relays fun _ => True) first last →
      last.delivered.flatten.Sublist first.handed) ∧
    (Relation.ReflTransGen (Relays Callback.Whole) first last →
      last.delivered.flatten <:+: first.handed) := by
  constructor
  · intro chain
    refine last.delivered_prefix.sublist.trans ?_
    induction chain with
    | refl => exact List.Sublist.refl _
    | tail _ relays inductionHypothesis => exact relays.sublist.trans inductionHypothesis
  · intro chain
    refine last.delivered_prefix.isInfix.trans ?_
    induction chain with
    | refl => exact List.infix_rfl
    | tail _ relays inductionHypothesis => exact relays.infix.trans inductionHypothesis

/-- The run of three bytes, at the first caster of a chain and at the next. -/
def threeBytesHop : Hop where
  before := requested
  during := corrections
  client := 6
  source := 0
  sink := 1
  count := kBufferSize
  outcomes := fun _ => true
  info := requestedRecord
  valid := by decide +kernel
  kept := rolesKept_requested
  admission := admission_requested
  keeps := by decide +kernel
  handed := [0xD3, 0, 0]
  sent := by decide +kernel
  confirmed := true
  polls := secondPoll okLine
  found := everySecond
  events := twoRounds [0xD3, 0, 0]
  reply := okLine
  rest := [[0xD3, 0, 0]]
  reads := readsStream_corrections
  read := by decide +kernel

theorem relays_keep_order_threeBytes :
    threeBytesHop.delivered.flatten <:+: threeBytesHop.handed := by
  apply (relays_keep_order threeBytesHop threeBytesHop).2
  apply Relation.ReflTransGen.single
  refine ⟨[⟨[0xD3, 0, 0], true, 3⟩], by decide, ?_, List.suffix_rfl⟩
  intro callback member
  rw [List.mem_singleton.mp member]
  exact ⟨rfl, rfl⟩

end Network
end Ntrip
