import Mathlib.Logic.Function.Basic
import Mathlib.Data.List.Basic

namespace Ntrip

/-!
# Reliable ordered channels

A channel keeps what its reader has taken and what is still in flight, so
that nothing can be lost, repeated or overtaken between the two ends.  Reads
take any number of letters from the front; where a writer's messages are cut
is not kept.  A family of channels is written and read one channel at a time.
-/

universe u v

structure Channel (Letter : Type u) where
  taken : List Letter
  inFlight : List Letter

namespace Channel

variable {Letter : Type u}

/-- Everything that was ever written. -/
def sent (channel : Channel Letter) : List Letter :=
  channel.taken ++ channel.inFlight

def write (channel : Channel Letter) (letters : List Letter) : Channel Letter where
  taken := channel.taken
  inFlight := channel.inFlight ++ letters

/-- Everything written has been taken. -/
def settled (letters : List Letter) : Channel Letter where
  taken := letters
  inFlight := []

/-- Nothing was ever written. -/
def empty : Channel Letter where
  taken := []
  inFlight := []

/-- The letters that a read of at most so many takes. -/
def front (channel : Channel Letter) (count : Nat) : List Letter :=
  channel.inFlight.take count

def read (channel : Channel Letter) (count : Nat) : Channel Letter where
  taken := channel.taken ++ channel.front count
  inFlight := channel.inFlight.drop count

@[simp] theorem sent_write (channel : Channel Letter) (letters : List Letter) :
    (channel.write letters).sent = channel.sent ++ letters := by
  simp only [sent, write, List.append_assoc]

@[simp] theorem sent_read (channel : Channel Letter) (count : Nat) :
    (channel.read count).sent = channel.sent := by
  simp only [sent, read, front, List.append_assoc, List.take_append_drop]

@[simp] theorem taken_write (channel : Channel Letter) (letters : List Letter) :
    (channel.write letters).taken = channel.taken := rfl

@[simp] theorem taken_read (channel : Channel Letter) (count : Nat) :
    (channel.read count).taken = channel.taken ++ channel.front count := rfl

theorem taken_read_all (channel : Channel Letter) :
    (channel.read channel.inFlight.length).taken = channel.sent := by
  rw [taken_read, front, List.take_length, sent]

@[simp] theorem write_nil (channel : Channel Letter) : channel.write [] = channel := by
  rw [write, List.append_nil]

theorem write_write (channel : Channel Letter) (letters later : List Letter) :
    (channel.write letters).write later = channel.write (letters ++ later) := by
  simp only [write, List.append_assoc]

@[simp] theorem sent_settled (letters : List Letter) : (settled letters).sent = letters :=
  List.append_nil letters

@[simp] theorem read_settled (letters : List Letter) (count : Nat) :
    (settled letters).read count = settled letters := by
  simp only [read, settled, front, List.take_nil, List.drop_nil, List.append_nil]

/-- What is written to a settled channel can be read in one go. -/
theorem front_write_settled (letters : List Letter) {written : List Letter} {count : Nat}
    (enough : written.length ≤ count) : ((settled letters).write written).front count = written :=
  List.take_of_length_le enough

theorem read_write_settled (letters : List Letter) {written : List Letter} {count : Nat}
    (enough : written.length ≤ count) :
    ((settled letters).write written).read count = settled (letters ++ written) := by
  rw [read, front_write_settled letters enough]
  congr 1
  exact List.drop_of_length_le enough

theorem taken_prefix (channel : Channel Letter) : channel.taken <+: channel.sent :=
  List.prefix_append channel.taken channel.inFlight

theorem front_infix (channel : Channel Letter) (count : Nat) :
    channel.front count <:+: channel.inFlight :=
  (List.take_prefix count channel.inFlight).isInfix

end Channel

/-! ## Families -/

abbrev Channels (Index : Type v) (Letter : Type u) := Index → Channel Letter

namespace Channels

variable {Index : Type v} {Letter : Type u} [DecidableEq Index]

def write (channels : Channels Index Letter) (index : Index) (letters : List Letter) :
    Channels Index Letter :=
  Function.update channels index ((channels index).write letters)

def read (channels : Channels Index Letter) (index : Index) (count : Nat) :
    Channels Index Letter :=
  Function.update channels index ((channels index).read count)

/-- The messages are written one after the other. -/
def writeAll (channels : Channels Index Letter) (messages : List (Index × List Letter)) :
    Channels Index Letter :=
  messages.foldl (fun channels message => channels.write message.1 message.2) channels

/-- What is written to one channel, in order. -/
def addressed (index : Index) (messages : List (Index × List Letter)) : List Letter :=
  (messages.filter fun message => message.1 = index).flatMap Prod.snd

theorem write_self (channels : Channels Index Letter) (index : Index) (letters : List Letter) :
    channels.write index letters index = (channels index).write letters :=
  Function.update_self index _ channels

theorem write_other {channels : Channels Index Letter} {index other : Index}
    (different : other ≠ index) (letters : List Letter) :
    channels.write index letters other = channels other :=
  Function.update_of_ne different _ channels

theorem read_self (channels : Channels Index Letter) (index : Index) (count : Nat) :
    channels.read index count index = (channels index).read count :=
  Function.update_self index _ channels

theorem read_other {channels : Channels Index Letter} {index other : Index}
    (different : other ≠ index) (count : Nat) :
    channels.read index count other = channels other :=
  Function.update_of_ne different _ channels

/-- No read changes a settled channel. -/
theorem read_of_settled {channels : Channels Index Letter} {index : Index}
    {letters : List Letter} (settled : channels index = .settled letters) (other : Index)
    (count : Nat) : channels.read other count index = .settled letters := by
  by_cases same : index = other
  · rw [← same, read_self, settled, Channel.read_settled]
  · rw [read_other same, settled]

/-- Reading takes nothing away from what was written. -/
@[simp] theorem sent_read (channels : Channels Index Letter) (index other : Index) (count : Nat) :
    (channels.read index count other).sent = (channels other).sent := by
  by_cases same : other = index
  · rw [same, read_self, Channel.sent_read]
  · rw [read_other same]

/-- Writing one after the other is writing all that is addressed at once. -/
theorem writeAll_apply (channels : Channels Index Letter)
    (messages : List (Index × List Letter)) (index : Index) :
    channels.writeAll messages index = (channels index).write (addressed index messages) := by
  induction messages generalizing channels with
  | nil => exact (Channel.write_nil _).symm
  | cons message rest inductionHypothesis =>
      change (channels.write message.1 message.2).writeAll rest index = _
      rw [inductionHypothesis]
      by_cases same : message.1 = index
      · rw [← same, write_self, Channel.write_write]
        simp [addressed]
      · rw [write_other (Ne.symm same)]
        simp [addressed, same]

@[simp] theorem taken_writeAll (channels : Channels Index Letter)
    (messages : List (Index × List Letter)) (index : Index) :
    (channels.writeAll messages index).taken = (channels index).taken := by
  rw [writeAll_apply, Channel.taken_write]

@[simp] theorem sent_writeAll (channels : Channels Index Letter)
    (messages : List (Index × List Letter)) (index : Index) :
    (channels.writeAll messages index).sent = (channels index).sent ++ addressed index messages := by
  rw [writeAll_apply, Channel.sent_write]

theorem addressed_eq_nil {index : Index} {messages : List (Index × List Letter)}
    (elsewhere : ∀ message ∈ messages, message.1 ≠ index) : addressed index messages = [] := by
  have none_left : (messages.filter fun message => message.1 = index) = [] := by
    apply List.filter_eq_nil_iff.mpr
    intro message member
    simpa using elsewhere message member
  rw [addressed, none_left, List.flatMap_nil]

end Channels
end Ntrip
