import Ntrip.Caster.Requests

namespace Ntrip

/-!
# `Disconnect`

The record loop leaves at its first hit: a record served by the descriptor
is removed and its clients are closed, a record that lists it as a client
loses the first such entry.  `MentionSplit` locates that record, so that the
results below need no induction of their own.
-/

open Sequence

/-- What the record loop of `Disconnect` finds. -/
inductive Departure
  | server (info : MountPointInformation)
  | client
  | nobody
deriving DecidableEq, Repr

/-- The record loop of `Disconnect`: what it finds and the list it leaves. -/
def disconnectLoop (socketFd : Fd) :
    List MountPointInformation → Departure × List MountPointInformation
  | [] => (.nobody, [])
  | info :: rest =>
      if info.serverFd = socketFd then (.server info, rest)
      else if socketFd ∈ info.clientSocketList then (.client, info.eraseClient socketFd :: rest)
      else
        let later := disconnectLoop socketFd rest
        (later.1, info :: later.2)

/-- The source-table loop of `Disconnect`. -/
def eraseSourceLine (mountpoint : Bytes) (ntripStrList : List Bytes) : List Bytes :=
  ntripStrList.eraseP fun str => contains str (ascii "STR;" ++ mountpoint ++ [semicolon])

/-- `Disconnect`: the tables afterwards and the descriptors closed, in order.
`ClearCilentConnection` closes a departing server's clients one by one. -/
def disconnect (caster : NtripCaster) (socketFd : Fd) : NtripCaster × List Fd :=
  match disconnectLoop socketFd caster.mountPointInfos with
  | (.server info, infos) =>
      ({ mountPointInfos := infos,
         ntripStrList := eraseSourceLine info.mountpoint caster.ntripStrList },
        info.clientSocketList ++ [socketFd])
  | (_, infos) => ({ caster with mountPointInfos := infos }, [socketFd])

/-- The first record that mentions a descriptor, with the records before and
after it. -/
structure MentionSplit (infos : List MountPointInformation) (fd : Fd)
    (before : List MountPointInformation) (info : MountPointInformation)
    (after : List MountPointInformation) : Prop where
  split : infos = before ++ info :: after
  unmentioned : ∀ record ∈ before, fd ∉ record.descriptors
  mentioned : fd ∈ info.descriptors

/-- A descriptor occurs nowhere, or there is a first record that mentions it. -/
theorem exists_mentionSplit (infos : List MountPointInformation) (fd : Fd) :
    fd ∉ descriptors infos ∨ ∃ before info after, MentionSplit infos fd before info after := by
  induction infos with
  | nil => exact Or.inl (by simp [descriptors])
  | cons head rest inductionHypothesis =>
      by_cases here : fd ∈ head.descriptors
      · exact Or.inr ⟨[], head, rest, rfl, by simp, here⟩
      · rcases inductionHypothesis with absent | ⟨before, info, after, found⟩
        · refine Or.inl ?_
          simp only [descriptors, List.flatMap_cons, List.mem_append, not_or]
          exact ⟨here, absent⟩
        · refine Or.inr ⟨head :: before, info, after, by rw [found.split]; rfl, ?_, found.mentioned⟩
          intro record member
          rcases List.mem_cons.mp member with same | later
          · exact same ▸ here
          · exact found.unmentioned record later

theorem MentionSplit.mem_descriptors {infos : List MountPointInformation} {fd : Fd}
    {before after : List MountPointInformation} {info : MountPointInformation}
    (found : MentionSplit infos fd before info after) : fd ∈ descriptors infos := by
  rw [found.split, descriptors_append, descriptors_cons]
  exact List.mem_append_right _ (List.mem_append_left _ found.mentioned)

/-- There is only one such record. -/
theorem MentionSplit.unique {infos : List MountPointInformation} {fd : Fd}
    {before before' after after' : List MountPointInformation}
    {info info' : MountPointInformation} (found : MentionSplit infos fd before info after)
    (found' : MentionSplit infos fd before' info' after') :
    before' = before ∧ info' = info ∧ after' = after :=
  first_split_unique (fun record => record.descriptors.contains fd)
    (found.split.symm.trans found'.split)
    (by simpa using found.unmentioned) (by simpa using found.mentioned)
    (by simpa using found'.unmentioned) (by simpa using found'.mentioned)

theorem disconnectLoop_append {before : List MountPointInformation} {fd : Fd}
    (unmentioned : ∀ record ∈ before, fd ∉ record.descriptors)
    (rest : List MountPointInformation) :
    disconnectLoop fd (before ++ rest) =
      ((disconnectLoop fd rest).1, before ++ (disconnectLoop fd rest).2) := by
  induction before with
  | nil => rfl
  | cons head tail inductionHypothesis =>
      have absent := unmentioned head List.mem_cons_self
      rw [MountPointInformation.mem_descriptors, not_or] at absent
      have later := inductionHypothesis
        (fun record member => unmentioned record (List.mem_cons_of_mem head member))
      rw [List.cons_append, disconnectLoop, if_neg (Ne.symm absent.1), if_neg absent.2, later]
      rfl

/-- A descriptor outside the tables is only closed. -/
theorem disconnect_of_notMem {caster : NtripCaster} {fd : Fd}
    (absent : fd ∉ descriptors caster.mountPointInfos) : disconnect caster fd = (caster, [fd]) := by
  have unmentioned : ∀ record ∈ caster.mountPointInfos, fd ∉ record.descriptors := by
    intro record member inRecord
    exact absent (mem_descriptors.mpr ⟨record, member, inRecord⟩)
  have whole := disconnectLoop_append unmentioned []
  rw [List.append_nil] at whole
  simp [disconnect, whole, disconnectLoop]

/-- A departing server takes its record and its clients with it. -/
theorem disconnect_of_server {caster : NtripCaster} {fd : Fd}
    {before after : List MountPointInformation} {info : MountPointInformation}
    (found : MentionSplit caster.mountPointInfos fd before info after)
    (serves : info.serverFd = fd) :
    disconnect caster fd =
      (⟨before ++ after, eraseSourceLine info.mountpoint caster.ntripStrList⟩,
        info.clientSocketList ++ [fd]) := by
  unfold disconnect
  rw [found.split, disconnectLoop_append found.unmentioned, disconnectLoop, if_pos serves]

/-- A departing client loses one entry. -/
theorem disconnect_of_client {caster : NtripCaster} {fd : Fd}
    {before after : List MountPointInformation} {info : MountPointInformation}
    (found : MentionSplit caster.mountPointInfos fd before info after)
    (other : info.serverFd ≠ fd) :
    disconnect caster fd =
      ({ caster with mountPointInfos := before ++ info.eraseClient fd :: after }, [fd]) := by
  have listed : fd ∈ info.clientSocketList := by
    rcases (info.mem_descriptors fd).mp found.mentioned with same | listed
    · exact absurd same.symm other
    · exact listed
  unfold disconnect
  rw [found.split, disconnectLoop_append found.unmentioned, disconnectLoop, if_neg other,
    if_pos listed]

/-- The descriptor itself is always closed. -/
theorem mem_disconnect_closed (caster : NtripCaster) (fd : Fd) : fd ∈ (disconnect caster fd).2 := by
  unfold disconnect
  split
  · exact List.mem_append_right _ List.mem_cons_self
  · exact List.mem_cons_self

/-- Nothing is closed but the descriptor itself and descriptors of the tables. -/
theorem eq_or_mem_of_closed {caster : NtripCaster} {fd other : Fd}
    (closed : other ∈ (disconnect caster fd).2) :
    other = fd ∨ other ∈ descriptors caster.mountPointInfos := by
  rcases exists_mentionSplit caster.mountPointInfos fd with absent | ⟨before, info, after, found⟩
  · rw [disconnect_of_notMem absent] at closed
    exact Or.inl (List.mem_singleton.mp closed)
  · by_cases serves : info.serverFd = fd
    · rw [disconnect_of_server found serves] at closed
      rcases List.mem_append.mp closed with client | self
      · refine Or.inr (mem_descriptors.mpr ⟨info, ?_, ?_⟩)
        · rw [found.split]
          exact List.mem_append_right before List.mem_cons_self
        · exact (info.mem_descriptors other).mpr (Or.inr client)
      · exact Or.inl (List.mem_singleton.mp self)
    · rw [disconnect_of_client found serves] at closed
      exact Or.inl (List.mem_singleton.mp closed)

/-- Every entry that a disconnect leaves was there before, in a record of the
same server and account. -/
theorem exists_of_mem_disconnect {caster : NtripCaster} {fd : Fd}
    {survivor : MountPointInformation}
    (member : survivor ∈ (disconnect caster fd).1.mountPointInfos) :
    ∃ info ∈ caster.mountPointInfos, survivor.serverFd = info.serverFd ∧
      survivor.SameAccount info ∧ survivor.clientSocketList.Sublist info.clientSocketList := by
  have kept : ∀ info ∈ caster.mountPointInfos, survivor = info →
      ∃ info ∈ caster.mountPointInfos, survivor.serverFd = info.serverFd ∧
        survivor.SameAccount info ∧ survivor.clientSocketList.Sublist info.clientSocketList := by
    intro info listed same
    subst same
    exact ⟨survivor, listed, rfl, ⟨rfl, rfl, rfl⟩, List.Sublist.refl _⟩
  rcases exists_mentionSplit caster.mountPointInfos fd with absent | ⟨before, info, after, found⟩
  · rw [disconnect_of_notMem absent] at member
    exact kept survivor member rfl
  · have listed : ∀ record, record ∈ before ++ after → record ∈ caster.mountPointInfos := by
      intro record inRest
      rw [found.split]
      rcases List.mem_append.mp inRest with left | right
      · exact List.mem_append_left _ left
      · exact List.mem_append_right _ (List.mem_cons_of_mem info right)
    by_cases serves : info.serverFd = fd
    · rw [disconnect_of_server found serves] at member
      exact kept survivor (listed survivor member) rfl
    · rw [disconnect_of_client found serves] at member
      rcases List.mem_append.mp member with left | right
      · exact kept survivor (listed survivor (List.mem_append_left after left)) rfl
      · rcases List.mem_cons.mp right with same | later
        · subst same
          refine ⟨info, ?_, rfl, ⟨rfl, rfl, rfl⟩, List.erase_sublist⟩
          rw [found.split]
          exact List.mem_append_right before List.mem_cons_self
        · exact kept survivor (listed survivor (List.mem_append_right before later)) rfl

/-- A disconnect never adds a descriptor to the tables or repeats one. -/
theorem descriptors_disconnect_sublist (caster : NtripCaster) (fd : Fd) :
    (descriptors (disconnect caster fd).1.mountPointInfos).Sublist
      (descriptors caster.mountPointInfos) := by
  rcases exists_mentionSplit caster.mountPointInfos fd with absent | ⟨before, info, after, found⟩
  · rw [disconnect_of_notMem absent]
  · by_cases serves : info.serverFd = fd
    · rw [disconnect_of_server found serves, found.split]
      simp only [descriptors, List.flatMap_append, List.flatMap_cons]
      exact List.Sublist.append (List.Sublist.refl _) (List.sublist_append_right _ _)
    · rw [disconnect_of_client found serves, found.split]
      simp only [descriptors, List.flatMap_append, List.flatMap_cons,
        MountPointInformation.descriptors]
      exact List.Sublist.append (List.Sublist.refl _)
        (List.Sublist.append (List.Sublist.cons_cons _ List.erase_sublist) (List.Sublist.refl _))

/-! ## Pairwise distinct descriptors -/

theorem descriptors_split_perm (before after : List MountPointInformation)
    (info : MountPointInformation) :
    (descriptors (before ++ info :: after)).Perm
      (info.descriptors ++ descriptors (before ++ after)) := by
  simp only [descriptors_append, descriptors_cons]
  rw [← List.append_assoc, ← List.append_assoc]
  exact (List.perm_append_comm).append_right _

/-- The only record that mentions a descriptor is the first to do so. -/
theorem mentionSplit_of_nodup {infos before after : List MountPointInformation}
    {info : MountPointInformation} {fd : Fd} (distinct : (descriptors infos).Nodup)
    (split : infos = before ++ info :: after) (mentioned : fd ∈ info.descriptors) :
    MentionSplit infos fd before info after := by
  refine ⟨split, ?_, mentioned⟩
  intro record member inRecord
  rw [split, descriptors_append, descriptors_cons] at distinct
  have apart := (List.nodup_append.mp distinct).2.2
  exact apart fd (mem_descriptors.mpr ⟨record, member, inRecord⟩) fd
    (List.mem_append_left _ mentioned) rfl

theorem server_notMem_clients {info : MountPointInformation} {rest : List Fd}
    (distinct : (info.descriptors ++ rest).Nodup) : info.serverFd ∉ info.clientSocketList :=
  (List.nodup_cons.mp (List.nodup_append.mp distinct).1).1

theorem disconnect_exact_server {caster : NtripCaster}
    {before after : List MountPointInformation} {info : MountPointInformation}
    (distinct : (descriptors caster.mountPointInfos).Nodup)
    (split : caster.mountPointInfos = before ++ info :: after) :
    (disconnect caster info.serverFd).1.mountPointInfos = before ++ after ∧
      (disconnect caster info.serverFd).2 = info.clientSocketList ++ [info.serverFd] ∧
      (disconnect caster info.serverFd).2.Nodup := by
  have found := mentionSplit_of_nodup distinct split
    ((info.mem_descriptors info.serverFd).mpr (Or.inl rfl))
  have here : (info.descriptors ++ descriptors (before ++ after)).Nodup := by
    rw [← (descriptors_split_perm before after info).nodup_iff, ← split]
    exact distinct
  rw [disconnect_of_server found rfl]
  refine ⟨rfl, rfl, ?_⟩
  exact (List.perm_append_singleton _ _).nodup_iff.mpr (List.nodup_append.mp here).1

theorem disconnect_exact_client {caster : NtripCaster}
    {before after : List MountPointInformation} {info : MountPointInformation} {fd : Fd}
    {front back : List Fd} (distinct : (descriptors caster.mountPointInfos).Nodup)
    (split : caster.mountPointInfos = before ++ info :: after)
    (listed : info.clientSocketList = front ++ fd :: back) :
    disconnect caster fd =
      ({ caster with
          mountPointInfos := before ++ { info with clientSocketList := front ++ back } :: after },
        [fd]) := by
  have member : fd ∈ info.clientSocketList := by
    rw [listed]
    exact List.mem_append_right front List.mem_cons_self
  have found := mentionSplit_of_nodup distinct split
    ((info.mem_descriptors fd).mpr (Or.inr member))
  have here : (info.descriptors ++ descriptors (before ++ after)).Nodup := by
    rw [← (descriptors_split_perm before after info).nodup_iff, ← split]
    exact distinct
  have other : info.serverFd ≠ fd := by
    intro same
    exact server_notMem_clients here (same ▸ member)
  have fresh : fd ∉ front := by
    have clients := (List.nodup_cons.mp (List.nodup_append.mp here).1).2
    rw [listed] at clients
    intro inFront
    exact (List.nodup_append.mp clients).2.2 fd inFront fd List.mem_cons_self rfl
  have shorter : info.clientSocketList.erase fd = front ++ back := by
    rw [listed, List.erase_append_right _ fresh, List.erase_cons_head]
  rw [disconnect_of_client found other, MountPointInformation.eraseClient, shorter]

/-- Afterwards a descriptor that occurred once occurs nowhere. -/
theorem notMem_descriptors_disconnect {caster : NtripCaster}
    (distinct : (descriptors caster.mountPointInfos).Nodup) (fd : Fd) :
    fd ∉ descriptors (disconnect caster fd).1.mountPointInfos := by
  rcases exists_mentionSplit caster.mountPointInfos fd with absent | ⟨before, info, after, found⟩
  · rw [disconnect_of_notMem absent]
    exact absent
  · have here := distinct
    rw [found.split, (descriptors_split_perm before after info).nodup_iff] at here
    have elsewhere : fd ∉ descriptors (before ++ after) := by
      intro inRest
      exact (List.nodup_append.mp here).2.2 fd found.mentioned fd inRest rfl
    by_cases serves : info.serverFd = fd
    · rw [disconnect_of_server found serves]
      exact elsewhere
    · rw [disconnect_of_client found serves]
      intro remains
      have parts := (descriptors_split_perm before after (info.eraseClient fd)).mem_iff.mp remains
      rcases List.mem_append.mp parts with inRecord | inRest
      · rcases ((info.eraseClient fd).mem_descriptors fd).mp inRecord with same | listed
        · exact serves same.symm
        · have clients := (List.nodup_cons.mp (List.nodup_append.mp here).1).2
          exact clients.not_mem_erase listed
      · exact elsewhere inRest

/-- With pairwise distinct descriptors a server takes its record and its
clients with it, a client loses its entry, and any other descriptor is only
closed; afterwards the descriptor is gone and the others are still distinct. -/
theorem disconnect_exact (caster : NtripCaster)
    (distinct : (descriptors caster.mountPointInfos).Nodup) (fd : Fd) :
    (∀ before info after, caster.mountPointInfos = before ++ info :: after →
        info.serverFd = fd →
        (disconnect caster fd).1.mountPointInfos = before ++ after ∧
          (disconnect caster fd).2 = info.clientSocketList ++ [fd] ∧
          (disconnect caster fd).2.Nodup) ∧
      (∀ before info after front back, caster.mountPointInfos = before ++ info :: after →
        info.clientSocketList = front ++ fd :: back →
        disconnect caster fd =
          ({ caster with
              mountPointInfos :=
                before ++ { info with clientSocketList := front ++ back } :: after }, [fd])) ∧
      (fd ∉ descriptors caster.mountPointInfos → disconnect caster fd = (caster, [fd])) ∧
      fd ∉ descriptors (disconnect caster fd).1.mountPointInfos ∧
      (descriptors (disconnect caster fd).1.mountPointInfos).Nodup := by
  refine ⟨?_, ?_, disconnect_of_notMem, notMem_descriptors_disconnect distinct fd, ?_⟩
  · intro before info after split serves
    subst serves
    exact disconnect_exact_server distinct split
  · intro before info after front back split listed
    exact disconnect_exact_client distinct split listed
  · exact distinct.sublist (descriptors_disconnect_sublist caster fd)

/-- Two mount points with three clients between them. -/
def servedByFiveAndEight : NtripCaster where
  mountPointInfos :=
    [⟨5, ascii "A", ascii "u", ascii "p", [6, 7]⟩, ⟨8, ascii "B", ascii "u", ascii "p", [9]⟩]
  ntripStrList := [[], []]

theorem disconnect_exact_servedByFiveAndEight :
    disconnect servedByFiveAndEight 7 =
        (⟨[⟨5, ascii "A", ascii "u", ascii "p", [6]⟩, ⟨8, ascii "B", ascii "u", ascii "p", [9]⟩],
          [[], []]⟩, [7]) ∧
      (disconnect servedByFiveAndEight 5).2 = [6, 7, 5] := by
  have distinct : (descriptors servedByFiveAndEight.mountPointInfos).Nodup := by decide
  have client := (disconnect_exact servedByFiveAndEight distinct 7).2.1
  have server := (disconnect_exact servedByFiveAndEight distinct 5).1
  exact ⟨client [] _ _ [6] [] rfl rfl, (server [] _ _ rfl rfl).2.1⟩

end Ntrip
