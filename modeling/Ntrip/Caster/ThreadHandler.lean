import Mathlib.Data.List.AList
import Ntrip.Foundation.Execution
import Ntrip.Caster.Outcomes
import Ntrip.Caster.Disconnect

namespace Ntrip

/-!
# The event loop as a transition system

One step is one readiness event handled by `ThreadHandler`.  Beside the
tables, a state has the kernel's descriptor table, which maps each open
descriptor to the connection that owns it.  Connections are numbered in the
order of their acceptance and numbers are never used twice, so a descriptor
number that the kernel hands out again names another connection.  The record
of what every connection sent is kept for the statements only.
-/

abbrev ConnId := Nat

/-- A buffer that a connection sent, and the answer of `ParseData` to it. -/
structure Received where
  conn : ConnId
  buffer : Bytes
  ret : Int
deriving DecidableEq, Repr

/-- The descriptor table of the kernel. -/
abbrev Connections := AList (fun _ : Fd => ConnId)

structure System where
  caster : NtripCaster
  conns : Connections
  accepted : Nat
  history : List Received

/-- The size of the receive buffer. -/
def kBufferSize : Nat := 65536

/-- One event as the loop handles it: a new connection, a non-empty result of
`recv`, or a `recv` that returns zero or fails. -/
inductive Event
  | accept (fd : Fd)
  | received (fd : Fd) (buffer : Bytes) (outcomes : SendOutcomes)
  | disconnected (fd : Fd)

namespace System

/-- The state that `Run` starts the loop in. -/
def init : System where
  caster := .empty
  conns := ∅
  accepted := 0
  history := []

/-- The connection that a descriptor names. -/
def owner (sys : System) (fd : Fd) : Option ConnId :=
  sys.conns.lookup fd

/-- `close`; a descriptor that is not open is left alone. -/
def closeAll (conns : Connections) (fds : List Fd) : Connections :=
  fds.foldl (fun conns fd => conns.erase fd) conns

/-- What the loop does with one event. -/
def step (sys : System) : Event → System
  | .accept fd =>
      { sys with conns := sys.conns.insert fd sys.accepted, accepted := sys.accepted + 1 }
  | .received fd buffer outcomes =>
      let response := parseData sys.caster outcomes fd buffer
      { caster := response.caster
        conns := if response.ret < 0 then closeAll sys.conns [fd] else sys.conns
        accepted := sys.accepted
        history := sys.history ++ ((sys.owner fd).map (⟨·, buffer, response.ret⟩)).toList }
  | .disconnected fd =>
      let departure := disconnect sys.caster fd
      { sys with caster := departure.1, conns := closeAll sys.conns departure.2 }

/-- What the kernel can report: `accept` returns a number that is not open,
and only an open descriptor yields data. -/
def Valid (sys : System) : Event → Prop
  | .accept fd => sys.owner fd = none
  | .received fd buffer _ =>
      (sys.owner fd).isSome = true ∧ buffer ≠ [] ∧ buffer.length ≤ kBufferSize
  | .disconnected _ => True

instance (sys : System) (event : Event) : Decidable (sys.Valid event) := by
  cases event <;> unfold Valid <;> infer_instance

/-- The events of a run, each possible in the state in which it is handled. -/
abbrev ValidRun (events : List Event) : Prop :=
  Execution.EachStep step Valid init events

/-- The tables of some state that a run of the caster reaches. -/
def Reachable (caster : NtripCaster) : Prop :=
  ∃ events, ValidRun events ∧ (Execution.run step init events).caster = caster

theorem lookup_closeAll (conns : Connections) (fds : List Fd) (fd : Fd) :
    (closeAll conns fds).lookup fd = if fd ∈ fds then none else conns.lookup fd := by
  induction fds generalizing conns with
  | nil => simp [closeAll]
  | cons head tail inductionHypothesis =>
      change (closeAll (conns.erase head) tail).lookup fd = _
      rw [inductionHypothesis]
      by_cases later : fd ∈ tail
      · simp [later]
      · by_cases same : fd = head
        · subst same
          simp [AList.lookup_erase]
        · rw [if_neg later, AList.lookup_erase_ne same, if_neg]
          simp [same, later]

end System
end Ntrip
