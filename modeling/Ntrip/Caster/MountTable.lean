import Ntrip.Util.Text

namespace Ntrip

/-!
# The tables of the caster

The two containers of `NtripCaster` that requests and disconnects change.
Descriptors that the kernel hands out are natural numbers; the value -1 of a
failed call is never stored.
-/

abbrev Fd := Nat

/-- `MountPointInformation` of `mount_point.h`. -/
structure MountPointInformation where
  serverFd : Fd
  mountpoint : Bytes
  username : Bytes
  password : Bytes
  clientSocketList : List Fd
deriving DecidableEq, Repr

/-- The members `mount_point_infos_` and `ntrip_str_list_`. -/
structure NtripCaster where
  mountPointInfos : List MountPointInformation
  ntripStrList : List Bytes
deriving DecidableEq, Repr

namespace NtripCaster

def empty : NtripCaster where
  mountPointInfos := []
  ntripStrList := []

end NtripCaster

namespace MountPointInformation

/-- The server's descriptor and the clients' descriptors, in table order. -/
def descriptors (info : MountPointInformation) : List Fd :=
  info.serverFd :: info.clientSocketList

/-- `client_socket_list.push_back`. -/
def addClient (info : MountPointInformation) (fd : Fd) : MountPointInformation :=
  { info with clientSocketList := info.clientSocketList ++ [fd] }

/-- `client_socket_list.erase` at the first entry that holds the descriptor. -/
def eraseClient (info : MountPointInformation) (fd : Fd) : MountPointInformation :=
  { info with clientSocketList := info.clientSocketList.erase fd }

/-- Two records of one mount point and one account. -/
def SameAccount (left right : MountPointInformation) : Prop :=
  left.mountpoint = right.mountpoint ∧ left.username = right.username ∧
    left.password = right.password

@[simp] theorem addClient_mountpoint (info : MountPointInformation) (fd : Fd) :
    (info.addClient fd).mountpoint = info.mountpoint := rfl

@[simp] theorem addClient_clientSocketList (info : MountPointInformation) (fd : Fd) :
    (info.addClient fd).clientSocketList = info.clientSocketList ++ [fd] := rfl

@[simp] theorem eraseClient_serverFd (info : MountPointInformation) (fd : Fd) :
    (info.eraseClient fd).serverFd = info.serverFd := rfl

@[simp] theorem eraseClient_mountpoint (info : MountPointInformation) (fd : Fd) :
    (info.eraseClient fd).mountpoint = info.mountpoint := rfl

@[simp] theorem eraseClient_clientSocketList (info : MountPointInformation) (fd : Fd) :
    (info.eraseClient fd).clientSocketList = info.clientSocketList.erase fd := rfl

theorem addClient_sameAccount (info : MountPointInformation) (fd : Fd) :
    (info.addClient fd).SameAccount info :=
  ⟨rfl, rfl, rfl⟩

theorem mem_descriptors (info : MountPointInformation) (fd : Fd) :
    fd ∈ info.descriptors ↔ fd = info.serverFd ∨ fd ∈ info.clientSocketList :=
  List.mem_cons

end MountPointInformation

/-- Every occurrence of a descriptor in a mount table. -/
def descriptors (infos : List MountPointInformation) : List Fd :=
  infos.flatMap MountPointInformation.descriptors

theorem mem_descriptors {infos : List MountPointInformation} {fd : Fd} :
    fd ∈ descriptors infos ↔ ∃ info ∈ infos, fd ∈ info.descriptors :=
  List.mem_flatMap

theorem descriptors_append (left right : List MountPointInformation) :
    descriptors (left ++ right) = descriptors left ++ descriptors right :=
  List.flatMap_append

theorem descriptors_cons (info : MountPointInformation) (infos : List MountPointInformation) :
    descriptors (info :: infos) = info.descriptors ++ descriptors infos :=
  List.flatMap_cons

theorem MountPointInformation.addClient_ne (info : MountPointInformation) (fd : Fd) :
    info.addClient fd ≠ info := by
  intro same
  have lengths := congrArg (fun record => record.clientSocketList.length) same
  simp at lengths

/-- A table and the same table with one more client show which record grew. -/
theorem addClient_split_unique {before before' after after' : List MountPointInformation}
    {info info' : MountPointInformation} {fd : Fd}
    (split : before ++ info :: after = before' ++ info' :: after')
    (grown : before ++ info.addClient fd :: after = before' ++ info'.addClient fd :: after') :
    info' = info := by
  induction before generalizing before' with
  | nil =>
      cases before' with
      | nil => exact (List.cons.inj split).1.symm
      | cons head tail =>
          have same := (List.cons.inj split).1
          have new := (List.cons.inj grown).1
          exact absurd (new.trans same.symm) (info.addClient_ne fd)
  | cons first rest inductionHypothesis =>
      cases before' with
      | nil =>
          have same := (List.cons.inj split).1
          have new := (List.cons.inj grown).1
          exact absurd (new.symm.trans same) (info'.addClient_ne fd)
      | cons head tail =>
          exact inductionHypothesis (List.cons.inj split).2 (List.cons.inj grown).2

end Ntrip
