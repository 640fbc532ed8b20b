import Ntrip.Foundation.Parallel
import Ntrip.Caster.TableInvariants

namespace Ntrip

/-!
# The source table beside the mount table

A registration pushes one record and one source-table string; nothing links
the two afterwards.  A departing server's string is searched for by a mark
that any other string may contain, and the text of a string is checked only
when it has more than four sections.  Both results below say exactly when
that is harmless.
-/

open Sequence

/-- The text that `Disconnect` looks for. -/
def sourceMark (mountpoint : Bytes) : Bytes :=
  ascii "STR;" ++ mountpoint ++ [semicolon]

/-- The string has the form `STR;m;m;...` for the mount point `m`. -/
def Describes (mountpoint str : Bytes) : Prop :=
  sourceMark mountpoint ++ (mountpoint ++ [semicolon]) <+: str

instance (mountpoint str : Bytes) : Decidable (Describes mountpoint str) :=
  inferInstanceAs (Decidable (_ <+: _))

/-- Position by position, every string describes its record. -/
def Aligned (caster : NtripCaster) : Prop :=
  List.Forall₂ (fun info str => Describes info.mountpoint str) caster.mountPointInfos
    caster.ntripStrList

instance (caster : NtripCaster) : Decidable (Aligned caster) :=
  inferInstanceAs (Decidable (List.Forall₂ _ _ _))

/-- The string at this position contains the mark of the mount point. -/
def markedAt (strs : List Bytes) (mountpoint : Bytes) (position : Nat) : Bool :=
  strs[position]?.any fun str => contains str (sourceMark mountpoint)

theorem markedAt_iff {strs : List Bytes} {mountpoint : Bytes} {position : Nat} :
    markedAt strs mountpoint position = true ↔
      ∃ str, strs[position]? = some str ∧ sourceMark mountpoint <:+: str := by
  rw [markedAt, Option.any_eq_true]
  simp only [contains_iff]

theorem Describes.marked {mountpoint str : Bytes} (describes : Describes mountpoint str) :
    sourceMark mountpoint <:+: str :=
  (List.prefix_append _ _).isInfix.trans describes.isInfix

/-! ## The erased string -/

/-- The erased string is the first marked one. -/
theorem eraseSourceLine_eq {mountpoint : Bytes} {strs : List Bytes} {own : Nat}
    (marked : markedAt strs mountpoint own = true) :
    ∃ first ≤ own, markedAt strs mountpoint first = true ∧
      (∀ position < first, markedAt strs mountpoint position = false) ∧
      eraseSourceLine mountpoint strs = strs.eraseIdx first := by
  rcases markedAt_iff.mp marked with ⟨str, atOwn, occurs⟩
  rcases List.getElem?_eq_some_iff.mp atOwn with ⟨bound, same⟩
  have hit : contains strs[own] (sourceMark mountpoint) = true := by
    rw [same]
    exact (contains_iff _ _).mpr occurs
  cases search : strs.findIdx? fun str => contains str (sourceMark mountpoint) with
  | none =>
      have none_marked := List.findIdx?_eq_none_iff.mp search strs[own] (List.getElem_mem bound)
      rw [hit] at none_marked
      cases none_marked
  | some first =>
      rcases List.findIdx?_eq_some_iff_getElem.mp search with ⟨inside, found, earlier⟩
      refine ⟨first, ?_, ?_, ?_, ?_⟩
      · apply Nat.le_of_not_lt
        intro late
        exact earlier own late hit
      · rw [markedAt, List.getElem?_eq_getElem inside]
        exact found
      · intro position before
        rw [markedAt, List.getElem?_eq_getElem (Nat.lt_trans before inside)]
        exact Bool.eq_false_iff.mpr (earlier position before)
      · change strs.eraseP (fun str => contains str (sourceMark mountpoint)) = strs.eraseIdx first
        rw [List.eraseP_eq_eraseIdx, search]

/-- What holds from the first marked position on holds from every marked
position on. -/
theorem forall_from_first_iff {strs : List Bytes} {mountpoint : Bytes} {first : Nat}
    (marked : markedAt strs mountpoint first = true)
    (earlier : ∀ position < first, markedAt strs mountpoint position = false)
    (own : Nat) (holds : Nat → Prop) :
    (∀ position, first ≤ position → position < own → holds position) ↔
      ∀ hit position, hit ≤ position → position < own → markedAt strs mountpoint hit = true →
        holds position := by
  constructor
  · intro fromFirst hit position lower upper markedHit
    have behind : first ≤ hit := by
      apply Nat.le_of_not_lt
      intro before
      rw [earlier hit before] at markedHit
      cases markedHit
    exact fromFirst position (Nat.le_trans behind lower) upper
  · intro everywhere position lower upper
    exact everywhere first position lower upper marked

/-- In aligned tables a record's own string carries its mark. -/
theorem markedAt_of_aligned {caster : NtripCaster} (aligned : Aligned caster) {own : Nat}
    {info : MountPointInformation} (atOwn : caster.mountPointInfos[own]? = some info) :
    markedAt caster.ntripStrList info.mountpoint own = true := by
  rcases forall₂_iff_getElem?.mp aligned with ⟨lengths, pairs⟩
  have bound : own < caster.ntripStrList.length := by
    rw [← lengths]
    exact (List.getElem?_eq_some_iff.mp atOwn).1
  have atString := List.getElem?_eq_getElem bound
  exact markedAt_iff.mpr ⟨_, atString, (pairs own info _ atOwn atString).marked⟩

/-- Which string goes with a departing server whose record is the first to
mention it. -/
theorem disconnect_aligned_server {caster : NtripCaster} (aligned : Aligned caster) {fd : Fd}
    {before after : List MountPointInformation} {info : MountPointInformation}
    (found : MentionSplit caster.mountPointInfos fd before info after)
    (serves : info.serverFd = fd) :
    ∃ first ≤ before.length, markedAt caster.ntripStrList info.mountpoint first = true ∧
      (∀ position < first, markedAt caster.ntripStrList info.mountpoint position = false) ∧
      (disconnect caster fd).1 =
        ⟨caster.mountPointInfos.eraseIdx before.length,
          caster.ntripStrList.eraseIdx first⟩ := by
  have atOwn : caster.mountPointInfos[before.length]? = some info := by
    rw [found.split, List.getElem?_append_right (Nat.le_refl _), Nat.sub_self]
    rfl
  rcases eraseSourceLine_eq (markedAt_of_aligned aligned atOwn) with
    ⟨first, order, marked, earlier, erased⟩
  have rest : caster.mountPointInfos.eraseIdx before.length = before ++ after := by
    rw [found.split, List.eraseIdx_append_of_length_le (Nat.le_refl _), Nat.sub_self]
    rfl
  refine ⟨first, order, marked, earlier, ?_⟩
  rw [disconnect_of_server found serves, erased, rest]

/-- A departing server takes exactly its own string with it if and only if,
behind every earlier string that contains its mark, the strings up to its own
are all equal. -/
theorem departed_string_iff (caster : NtripCaster)
    (distinct : (descriptors caster.mountPointInfos).Nodup) (aligned : Aligned caster)
    (own : Nat) (info : MountPointInformation)
    (atOwn : caster.mountPointInfos[own]? = some info) :
    (disconnect caster info.serverFd).1.ntripStrList = caster.ntripStrList.eraseIdx own ↔
      ∀ hit position, hit ≤ position → position < own →
        markedAt caster.ntripStrList info.mountpoint hit = true →
          caster.ntripStrList[position + 1]? = caster.ntripStrList[position]? := by
  rcases List.getElem?_eq_some_iff.mp atOwn with ⟨bound, rfl⟩
  have split : caster.mountPointInfos = caster.mountPointInfos.take own ++
      caster.mountPointInfos[own] :: caster.mountPointInfos.drop (own + 1) := by
    rw [← List.drop_eq_getElem_cons bound, List.take_append_drop]
  have found := mentionSplit_of_nodup distinct split
    ((caster.mountPointInfos[own].mem_descriptors _).mpr (Or.inl rfl))
  have position : (caster.mountPointInfos.take own).length = own :=
    List.length_take_of_le (Nat.le_of_lt bound)
  rcases disconnect_aligned_server aligned found rfl with
    ⟨first, order, marked, earlier, tables⟩
  rw [position] at order
  have inside : own < caster.ntripStrList.length := by
    rw [← aligned.length_eq]
    exact bound
  rw [tables]
  exact (eraseIdx_eq_eraseIdx_iff order inside).trans
    (forall_from_first_iff marked earlier own fun position =>
      caster.ntripStrList[position + 1]? = caster.ntripStrList[position]?)

/-- Two stations whose strings name only themselves. -/
def stationsAB : NtripCaster where
  mountPointInfos :=
    [⟨5, ascii "A", ascii "u", ascii "p", []⟩, ⟨6, ascii "B", ascii "u", ascii "p", []⟩]
  ntripStrList := [ascii "STR;A;A;RTCM;", ascii "STR;B;B;RTCM;"]

theorem departed_string_stationsAB :
    (disconnect stationsAB 6).1.ntripStrList = [ascii "STR;A;A;RTCM;"] := by
  apply (departed_string_iff stationsAB (by decide) (by decide) 1 _ rfl).mpr
  intro hit position lower upper marked
  obtain rfl : position = 0 := Nat.lt_one_iff.mp upper
  obtain rfl : hit = 0 := Nat.le_zero.mp lower
  revert marked
  decide

/-- The first station's text mentions the second station. -/
def intrudingStation : NtripCaster where
  mountPointInfos := stationsAB.mountPointInfos
  ntripStrList := [ascii "STR;A;A;STR;B;", ascii "STR;B;B;RTCM;"]

theorem departed_string_fails :
    ¬ ∀ caster : NtripCaster, (descriptors caster.mountPointInfos).Nodup →
      (caster.mountPointInfos.map (·.mountpoint)).Nodup → Aligned caster →
      ∀ own info, caster.mountPointInfos[own]? = some info →
        (disconnect caster info.serverFd).1.ntripStrList = caster.ntripStrList.eraseIdx own := by
  intro always
  have erased := always intrudingStation (by decide) (by decide) (by decide) 1 _ rfl
  revert erased
  decide

/-! ## Whole runs -/

/-- A string that is registered describes its mount point; and behind every
string that contains the mark of a departing server and stands before its own,
each string up to its own describes the record one place before it. -/
def KeepsAligned (sys : System) : Event → Prop
  | .accept _ => True
  | .received _ buffer outcomes =>
      outcomes 0 = true → ∀ fields ntripStr,
        PostReads sys.caster.mountPointInfos buffer fields ntripStr →
          Describes fields.mountPoint ntripStr
  | .disconnected fd =>
      ∀ before info after, MentionSplit sys.caster.mountPointInfos fd before info after →
        info.serverFd = fd → ∀ hit position, hit ≤ position → position < before.length →
          markedAt sys.caster.ntripStrList info.mountpoint hit = true →
            ∀ neighbour str, sys.caster.mountPointInfos[position]? = some neighbour →
              sys.caster.ntripStrList[position + 1]? = some str →
                Describes neighbour.mountpoint str

/-- A new client does not disturb the strings. -/
theorem aligned_withInfos_addClient {caster : NtripCaster}
    {before after : List MountPointInformation} {info grown : MountPointInformation}
    (aligned : Aligned caster) (split : caster.mountPointInfos = before ++ info :: after)
    (same : grown.mountpoint = info.mountpoint) :
    Aligned (caster.withInfos (before ++ grown :: after)) := by
  unfold Aligned at aligned ⊢
  have names : ∀ (infos : List MountPointInformation) (strs : List Bytes),
      List.Forall₂ (fun info str => Describes info.mountpoint str) infos strs ↔
        List.Forall₂ Describes (infos.map (·.mountpoint)) strs := by
    intro infos strs
    exact List.forall₂_map_left_iff.symm
  rw [names, split] at aligned
  rw [names]
  simpa [NtripCaster.withInfos, same] using aligned

theorem aligned_parseData_iff {caster : NtripCaster} (aligned : Aligned caster)
    (outcomes : SendOutcomes) (fd : Fd) (buffer : Bytes) :
    Aligned (parseData caster outcomes fd buffer).caster ↔
      (outcomes 0 = true → ∀ fields ntripStr,
        PostReads caster.mountPointInfos buffer fields ntripStr →
          Describes fields.mountPoint ntripStr) := by
  have outcome := parseData_outcome caster outcomes fd buffer
  generalize parseData caster outcomes fd buffer = response at outcome
  have unregistered : ¬ Registers caster outcomes buffer → outcomes 0 = true →
      ∀ fields ntripStr, PostReads caster.mountPointInfos buffer fields ntripStr →
        Describes fields.mountPoint ntripStr := by
    intro refused taken fields ntripStr reads
    exact absurd ⟨⟨fields, ntripStr, reads⟩, taken⟩ refused
  cases outcome with
  | registered reads taken =>
      rename_i fields ntripStr
      refine (forall₂_append_singleton_iff aligned _ _).trans ?_
      constructor
      · intro describes _ other otherStr otherReads
        rcases reads.unique otherReads with ⟨rfl, rfl⟩
        exact describes
      · intro condition
        exact condition taken fields ntripStr reads
  | admitted reads split good tried failed accepted =>
      refine iff_of_true (aligned_withInfos_addClient aligned split rfl) ?_
      intro _ fields ntripStr posted
      exact absurd (posted.1.symm.trans reads.1) (by simp)
  | forwarded kind served =>
      exact iff_of_true aligned (unregistered fun registers =>
        not_granted_of_data kind (Or.inl registers))
  | reported kind served gga =>
      exact iff_of_true aligned (unregistered fun registers =>
        not_granted_of_data kind (Or.inl registers))
  | refused refusal harmless =>
      exact iff_of_true aligned (unregistered fun registers =>
        not_granted_of_refused refusal (Or.inl registers))

theorem aligned_disconnect_iff {sys : System} (aligned : Aligned sys.caster) (fd : Fd) :
    Aligned (disconnect sys.caster fd).1 ↔ KeepsAligned sys (.disconnected fd) := by
  unfold KeepsAligned
  rcases exists_mentionSplit sys.caster.mountPointInfos fd with
    absent | ⟨before, info, after, found⟩
  · rw [disconnect_of_notMem absent]
    refine iff_of_true aligned ?_
    intro before info after found
    exact absurd found.mem_descriptors absent
  · by_cases serves : info.serverFd = fd
    · rcases disconnect_aligned_server aligned found serves with
        ⟨first, order, marked, earlier, tables⟩
      have bound : before.length < sys.caster.mountPointInfos.length := by
        rw [found.split, List.length_append, List.length_cons]
        omega
      rw [tables]
      refine (forall₂_eraseIdx_iff aligned order bound).trans ?_
      have everywhere := forall_from_first_iff marked earlier before.length
        fun position => ∀ neighbour str, sys.caster.mountPointInfos[position]? = some neighbour →
          sys.caster.ntripStrList[position + 1]? = some str → Describes neighbour.mountpoint str
      refine everywhere.trans ?_
      constructor
      · intro condition before' info' after' found' _
        rcases found.unique found' with ⟨rfl, rfl, rfl⟩
        exact condition
      · intro condition
        exact condition before info after found serves
    · rw [disconnect_of_client found serves]
      refine iff_of_true (aligned_withInfos_addClient aligned found.split rfl) ?_
      intro before' info' after' found' serves'
      rcases found.unique found' with ⟨rfl, rfl, rfl⟩
      exact absurd serves' serves

theorem step_aligned_iff (sys : System) (event : Event) (aligned : Aligned sys.caster) :
    Aligned (sys.step event).caster ↔ KeepsAligned sys event := by
  cases event with
  | accept fd => exact iff_of_true aligned trivial
  | received fd buffer outcomes => exact aligned_parseData_iff aligned outcomes fd buffer
  | disconnected fd => exact aligned_disconnect_iff aligned fd

/-- The source table matches the mount table in every state of a run exactly
when every step of the run meets the condition. -/
theorem source_table_iff (events : List Event) :
    Execution.Always System.step (fun sys => Aligned sys.caster) System.init events ↔
      Execution.EachStep System.step KeepsAligned System.init events :=
  Execution.always_iff_eachStep (fun sys event aligned _ => step_aligned_iff sys event aligned)
    List.Forall₂.nil (Execution.eachStep_of_forall (fun _ _ => trivial) _ events)

/-- A server registers without a source-table string. -/
def untitledPost : List Event :=
  [.accept 5,
    .received 5 (ascii "POST /A HTTP/1.1\r\nAuthorization: Basic dTpw\r\n") (fun _ => true)]

theorem source_table_fails :
    ¬ ∀ events, System.ValidRun events → Execution.Always System.step OneRole System.init events →
      Execution.Always System.step (fun sys => Aligned sys.caster) System.init events := by
  intro always
  have run : System.ValidRun untitledPost ∧
      Execution.Always System.step OneRole System.init untitledPost ∧
      ¬ Execution.Always System.step (fun sys => Aligned sys.caster) System.init untitledPost := by
    decide +kernel
  exact run.2.2 (always untitledPost run.1 run.2.1)

end Ntrip
