import Ntrip.Caster.Forwarding

namespace Ntrip

/-!
# Requests that arrive in pieces

Every non-empty `recv` is handed to `ParseData` on its own; no bytes are kept
between two calls.  A request that arrives in pieces therefore has the effect
of the whole only when its first piece already says the same and every later
piece is taken for data that its sender may send.
-/

open Sequence

/-- A non-empty result of `recv`, and what becomes of the messages that it
makes the caster send. -/
structure Delivery where
  buffer : Bytes
  outcomes : SendOutcomes

/-- Deliveries on one descriptor handled one by one; those that come after the
connection is closed are lost. -/
def System.receiveAll (sys : System) (fd : Fd) : List Delivery → System
  | [] => sys
  | piece :: rest =>
      if (sys.owner fd).isSome then
        System.receiveAll (sys.step (.received fd piece.buffer piece.outcomes)) fd rest
      else sys

/-- The deliveries leave the tables that the others leave, and the connection
open. -/
def System.SameEffect (sys : System) (fd : Fd) (pieces others : List Delivery) : Prop :=
  (sys.receiveAll fd pieces).caster = (sys.receiveAll fd others).caster ∧
    ((sys.receiveAll fd pieces).owner fd).isSome = true

/-- The piece is data that `ParseData` takes from its sender. -/
def Passes (caster : NtripCaster) (fd : Fd) (piece : Bytes) : Prop :=
  ¬ LooksLikeRequest piece ∧
    ((servedRecord caster.mountPointInfos fd).isSome = true ∨ mentionsGga piece = true)

/-- The first piece is read to the same registration or the same login as the
whole text. -/
def ReadsAlike (infos : List MountPointInformation) (text piece : Bytes) : Prop :=
  (∃ fields ntripStr, PostReads infos text fields ntripStr ∧ PostReads infos piece fields ntripStr) ∨
    ∃ whole part, GetReads text whole ∧ GetReads piece part ∧
      part.toRequestFields = whole.toRequestFields

/-- A later piece of a request is data that the sender may send by then: any
data when it has become a server, a position report when it is a client. -/
def LaterPasses (text piece : Bytes) : Prop :=
  ¬ LooksLikeRequest piece ∧ (dispatch text = .get → mentionsGga piece = true)

/-! ## Table entries only grow -/

/-- The number of descriptors in the tables. -/
def NtripCaster.entries (caster : NtripCaster) : Nat :=
  (descriptors caster.mountPointInfos).length

theorem entries_parseData (caster : NtripCaster) (outcomes : SendOutcomes) (fd : Fd)
    (buffer : Bytes) :
    (parseData caster outcomes fd buffer).caster = caster ∨
      (parseData caster outcomes fd buffer).caster.entries = caster.entries + 1 := by
  rcases parseData_granted_or caster outcomes fd buffer with ⟨_, perm⟩ | ⟨_, same⟩
  · exact Or.inr perm.length_eq
  · exact Or.inl same

theorem entries_receiveAll (sys : System) (fd : Fd) (pieces : List Delivery) :
    (sys.receiveAll fd pieces).caster = sys.caster ∨
      sys.caster.entries < (sys.receiveAll fd pieces).caster.entries := by
  induction pieces generalizing sys with
  | nil => exact Or.inl rfl
  | cons piece rest inductionHypothesis =>
      rw [System.receiveAll]
      split_ifs with isOpen
      · have here := entries_parseData sys.caster piece.outcomes fd piece.buffer
        have next := inductionHypothesis (sys.step (.received fd piece.buffer piece.outcomes))
        change (sys.step (.received fd piece.buffer piece.outcomes)).caster = sys.caster ∨
          (sys.step (.received fd piece.buffer piece.outcomes)).caster.entries =
            sys.caster.entries + 1 at here
        rcases here with same | grown
        · rw [same] at next
          exact next
        · refine Or.inr ?_
          rcases next with same | more
          · rw [same]
            omega
          · omega
      · exact Or.inl rfl

/-! ## Pieces that are data -/

/-- The piece leaves the tables and the connection alone exactly when it
passes. -/
theorem passes_iff (caster : NtripCaster) (outcomes : SendOutcomes) (fd : Fd) (piece : Bytes) :
    (parseData caster outcomes fd piece).caster = caster ∧
        (parseData caster outcomes fd piece).ret = 0 ↔
      Passes caster fd piece := by
  by_cases request : LooksLikeRequest piece
  · refine iff_of_false ?_ (fun passes => passes.1 request)
    rintro ⟨same, zero⟩
    rcases parseData_of_request caster outcomes fd request with refused | changed
    · exact refused zero
    · exact changed same
  · have kind := (dispatch_eq_data_iff piece).mpr request
    cases served : servedRecord caster.mountPointInfos fd with
    | some info =>
        rw [parseData_of_served request served]
        exact iff_of_true ⟨rfl, rfl⟩ ⟨request, Or.inl (by rw [served]; rfl)⟩
    | none =>
        cases gga : mentionsGga piece with
        | true =>
            refine iff_of_true ?_ ⟨request, Or.inr gga⟩
            simp [parseData, kind, tryToForwardServerData, served, gga]
        | false =>
            refine iff_of_false ?_ ?_
            · simp [parseData, kind, tryToForwardServerData, served, gga]
            · rintro ⟨_, served' | gga'⟩
              · rw [served] at served'
                cases served'
              · rw [gga] at gga'
                cases gga'

theorem owner_step_received (sys : System) (outcomes : SendOutcomes) (fd : Fd) (piece : Bytes) :
    (sys.step (.received fd piece outcomes)).owner fd =
      if (parseData sys.caster outcomes fd piece).ret = 0 then sys.owner fd else none := by
  have negative : (parseData sys.caster outcomes fd piece).ret < 0 ↔
      ¬ (parseData sys.caster outcomes fd piece).ret = 0 := by
    rw [parseData_ret_eq_zero_iff, parseData_ret_neg_iff, not_not]
  by_cases zero : (parseData sys.caster outcomes fd piece).ret = 0
  · rw [if_pos zero]
    simp [System.step, System.owner, zero]
  · rw [if_neg zero]
    simp [System.step, System.owner, negative.mpr zero, System.lookup_closeAll]

theorem receiveAll_of_closed {sys : System} {fd : Fd} (closed : sys.owner fd = none)
    (pieces : List Delivery) : sys.receiveAll fd pieces = sys := by
  cases pieces with
  | nil => rfl
  | cons piece rest => simp [System.receiveAll, closed]

theorem receiveAll_of_open {sys : System} {fd : Fd} (isOpen : (sys.owner fd).isSome = true)
    (piece : Delivery) (rest : List Delivery) :
    sys.receiveAll fd (piece :: rest) =
      (sys.step (.received fd piece.buffer piece.outcomes)).receiveAll fd rest := by
  rw [System.receiveAll, if_pos isOpen]

/-- Pieces leave the tables and the connection alone exactly when each of them
passes. -/
theorem receiveAll_same_iff {sys : System} {fd : Fd} (isOpen : (sys.owner fd).isSome = true)
    (pieces : List Delivery) :
    ((sys.receiveAll fd pieces).caster = sys.caster ∧
        ((sys.receiveAll fd pieces).owner fd).isSome = true) ↔
      ∀ piece ∈ pieces, Passes sys.caster fd piece.buffer := by
  induction pieces generalizing sys with
  | nil => exact iff_of_true ⟨rfl, isOpen⟩ (fun _ member => absurd member List.not_mem_nil)
  | cons piece rest inductionHypothesis =>
      rw [receiveAll_of_open isOpen, List.forall_mem_cons, 
        ← passes_iff sys.caster piece.outcomes]
      have owner := owner_step_received sys piece.outcomes fd piece.buffer
      have tables : (sys.step (.received fd piece.buffer piece.outcomes)).caster =
          (parseData sys.caster piece.outcomes fd piece.buffer).caster := rfl
      generalize sys.step (.received fd piece.buffer piece.outcomes) = next at owner tables
      by_cases zero : (parseData sys.caster piece.outcomes fd piece.buffer).ret = 0
      · rw [if_pos zero] at owner
        by_cases same : next.caster = sys.caster
        · have nextOpen : (next.owner fd).isSome = true := by
            rw [owner]
            exact isOpen
          have later := inductionHypothesis nextOpen
          rw [same] at later
          rw [later]
          exact ⟨fun passes => ⟨⟨tables.symm.trans same, zero⟩, passes⟩, fun parts => parts.2⟩
        · refine iff_of_false ?_ (fun parts => same (tables.trans parts.1.1))
          rintro ⟨final, _⟩
          have grown := entries_parseData sys.caster piece.outcomes fd piece.buffer
          rw [← tables] at grown
          have more := entries_receiveAll next fd rest
          rw [final] at more
          rcases grown with equal | larger
          · exact same equal
          · rcases more with equal | larger'
            · exact same equal.symm
            · omega
      · rw [if_neg zero] at owner
        refine iff_of_false ?_ (fun parts => zero parts.1.2)
        rintro ⟨_, stillOpen⟩
        rw [receiveAll_of_closed owner, owner] at stillOpen
        cases stillOpen

/-! ## First pieces -/

theorem dispatch_of_accepted {caster : NtripCaster} {outcomes : SendOutcomes} {fd : Fd}
    {buffer : Bytes} (request : LooksLikeRequest buffer)
    (accepted : (parseData caster outcomes fd buffer).ret = 0) :
    dispatch buffer = .post ∨ dispatch buffer = .get := by
  cases kind : dispatch buffer with
  | post => exact Or.inl rfl
  | get => exact Or.inr rfl
  | unknownVersion =>
      rw [parseData_ret_eq_zero_iff, Refused, kind] at accepted
      exact absurd trivial accepted
  | data => exact absurd request ((dispatch_eq_data_iff buffer).mp kind)

theorem length_infos_of_post {caster : NtripCaster} {outcomes : SendOutcomes} {fd : Fd}
    {buffer : Bytes} (post : dispatch buffer = .post)
    (accepted : (parseData caster outcomes fd buffer).ret = 0) :
    (parseData caster outcomes fd buffer).caster.mountPointInfos.length =
      caster.mountPointInfos.length + 1 := by
  rcases parseData_of_post post accepted with ⟨_, _, _, result⟩
  simp [result]

theorem length_infos_of_get {caster : NtripCaster} {outcomes : SendOutcomes} {fd : Fd}
    {buffer : Bytes} (get : dispatch buffer = .get)
    (accepted : (parseData caster outcomes fd buffer).ret = 0) :
    (parseData caster outcomes fd buffer).caster.mountPointInfos.length =
      caster.mountPointInfos.length := by
  rcases parseData_of_get get accepted with ⟨_, _, _, _, _, split, _, _, _, result⟩
  simp [result, split]

/-- A registration and an admission never leave the same tables. -/
theorem post_ne_get {caster : NtripCaster} {outcomes : SendOutcomes} {fd : Fd}
    {left right : Bytes} (post : dispatch left = .post) (get : dispatch right = .get)
    (leftAccepted : (parseData caster outcomes fd left).ret = 0)
    (rightAccepted : (parseData caster outcomes fd right).ret = 0) :
    (parseData caster outcomes fd left).caster ≠ (parseData caster outcomes fd right).caster := by
  intro same
  have leftLength := length_infos_of_post post leftAccepted
  have rightLength := length_infos_of_get get rightAccepted
  rw [same] at leftLength
  omega

theorem same_registration_iff {caster : NtripCaster} {outcomes : SendOutcomes} {fd : Fd} {text piece : Bytes}
    (textPost : dispatch text = .post) (piecePost : dispatch piece = .post)
    (textAccepted : (parseData caster outcomes fd text).ret = 0)
    (pieceAccepted : (parseData caster outcomes fd piece).ret = 0) :
    (parseData caster outcomes fd piece).caster = (parseData caster outcomes fd text).caster ↔
      ∃ fields ntripStr, PostReads caster.mountPointInfos text fields ntripStr ∧
        PostReads caster.mountPointInfos piece fields ntripStr := by
  rcases parseData_of_post textPost textAccepted with ⟨fields, ntripStr, reads, result⟩
  rcases parseData_of_post piecePost pieceAccepted with ⟨fields', ntripStr', reads', result'⟩
  rw [result, result']
  constructor
  · intro same
    have infos := congrArg NtripCaster.mountPointInfos same
    have strs := congrArg NtripCaster.ntripStrList same
    simp only [NtripCaster.register_mountPointInfos, NtripCaster.register_ntripStrList] at infos strs
    have record := (List.cons.inj (List.append_cancel_left infos)).1
    have string := (List.cons.inj (List.append_cancel_left strs)).1
    have alike : fields' = fields := by
      have own : fields'.Matches (fields'.toRecord fd) := ⟨rfl, rfl, rfl⟩
      rw [record] at own
      exact fields_of_matches own ⟨rfl, rfl, rfl⟩
    exact ⟨fields, ntripStr, reads, alike ▸ string ▸ reads'⟩
  · rintro ⟨common, string, textReads, pieceReads⟩
    rcases reads.unique textReads with ⟨rfl, rfl⟩
    rcases reads'.unique pieceReads with ⟨rfl, rfl⟩
    rfl

theorem same_admission_iff {caster : NtripCaster} {outcomes : SendOutcomes} {fd : Fd} {text piece : Bytes}
    (textGet : dispatch text = .get) (pieceGet : dispatch piece = .get)
    (textAccepted : (parseData caster outcomes fd text).ret = 0)
    (pieceAccepted : (parseData caster outcomes fd piece).ret = 0) :
    (parseData caster outcomes fd piece).caster = (parseData caster outcomes fd text).caster ↔
      ∃ whole part, GetReads text whole ∧ GetReads piece part ∧
        part.toRequestFields = whole.toRequestFields := by
  rcases parseData_of_get textGet textAccepted with
    ⟨fields, before, info, after, reads, split, good, failed, taken, result⟩
  rcases parseData_of_get pieceGet pieceAccepted with
    ⟨fields', before', info', after', reads', split', good', failed', taken', result'⟩
  rw [result, result']
  constructor
  · intro same
    have infos := congrArg NtripCaster.mountPointInfos same
    simp only [NtripCaster.withInfos_mountPointInfos] at infos
    have record := addClient_split_unique (split.symm.trans split') infos.symm
    rw [record] at good'
    exact ⟨fields, fields', reads, reads', fields_of_matches good' good⟩
  · rintro ⟨whole, part, textReads, pieceReads, alike⟩
    rw [reads.unique textReads, reads'.unique pieceReads] at alike
    rw [alike] at failed' taken' good'
    -- Both admissions are for the first reply that was taken.
    have turn : (matchingRecords before' fields.toRequestFields).length =
        (matchingRecords before fields.toRequestFields).length := by
      rcases Nat.lt_trichotomy (matchingRecords before' fields.toRequestFields).length
        (matchingRecords before fields.toRequestFields).length with less | equal | more
      · exact absurd ((failed _ less).symm.trans taken') (by decide)
      · exact equal
      · exact absurd ((failed' _ more).symm.trans taken) (by decide)
    rw [matchingRecords, matchingRecords, ← List.countP_eq_length_filter,
      ← List.countP_eq_length_filter] at turn
    rcases nth_split_unique _ (split.symm.trans split') turn (decide_eq_true good)
      (decide_eq_true good') with ⟨rfl, rfl, rfl⟩
    rfl

/-- Two accepted requests of one sender leave the same tables exactly when
they are read alike. -/
theorem same_tables_iff {caster : NtripCaster} {outcomes : SendOutcomes} {fd : Fd} {text piece : Bytes}
    (textRequest : LooksLikeRequest text) (pieceRequest : LooksLikeRequest piece)
    (textAccepted : (parseData caster outcomes fd text).ret = 0)
    (pieceAccepted : (parseData caster outcomes fd piece).ret = 0) :
    (parseData caster outcomes fd piece).caster = (parseData caster outcomes fd text).caster ↔
      ReadsAlike caster.mountPointInfos text piece := by
  rcases dispatch_of_accepted textRequest textAccepted with textPost | textGet
  · have noLogin : ¬ ∃ whole part, GetReads text whole ∧ GetReads piece part ∧
        part.toRequestFields = whole.toRequestFields := by
      rintro ⟨_, _, reads, _⟩
      exact absurd (textPost.symm.trans reads.1) (by simp)
    rw [ReadsAlike, or_iff_left noLogin]
    rcases dispatch_of_accepted pieceRequest pieceAccepted with piecePost | pieceGet
    · exact same_registration_iff textPost piecePost textAccepted pieceAccepted
    · refine iff_of_false ?_ ?_
      · exact (post_ne_get textPost pieceGet textAccepted pieceAccepted).symm
      · rintro ⟨_, _, _, reads⟩
        exact absurd (pieceGet.symm.trans reads.1) (by simp)
  · have noRegistration : ¬ ∃ fields ntripStr, PostReads caster.mountPointInfos text fields ntripStr ∧
        PostReads caster.mountPointInfos piece fields ntripStr := by
      rintro ⟨_, _, reads, _⟩
      exact absurd (textGet.symm.trans reads.1) (by simp)
    rw [ReadsAlike, or_iff_right noRegistration]
    rcases dispatch_of_accepted pieceRequest pieceAccepted with piecePost | pieceGet
    · refine iff_of_false (post_ne_get piecePost textGet pieceAccepted textAccepted) ?_
      rintro ⟨_, _, _, reads, _⟩
      exact absurd (piecePost.symm.trans reads.1) (by simp)
    · exact same_admission_iff textGet pieceGet textAccepted pieceAccepted

/-! ## Whole requests -/

/-- The part of a request that does not look like one is too short for the
marker of a position report. -/
theorem not_gga_of_prefix {text piece : Bytes} (begins : ascii "GET /" <+: text ∨ ascii "POST /" <+: text)
    (part : piece <+: text) (plain : ¬ LooksLikeRequest piece) : mentionsGga piece = false := by
  have short : ∀ start : Bytes, ¬ ascii "$GPGGA," <:+: start → ¬ ascii "$GNGGA," <:+: start →
      piece <+: start → mentionsGga piece = false := by
    intro start noGps noGnss inStart
    have gps : mentions piece "$GPGGA," = false :=
      (mentions_eq_false_iff _ _).mpr (fun occurs => noGps (occurs.trans inStart.isInfix))
    have gnss : mentions piece "$GNGGA," = false :=
      (mentions_eq_false_iff _ _).mpr (fun occurs => noGnss (occurs.trans inStart.isInfix))
    rw [mentionsGga, gps, gnss]
    rfl
  rcases begins with get | post
  · rcases List.prefix_or_prefix_of_prefix part get with inMethod | whole
    · exact short _ (by decide) (by decide) inMethod
    · exact absurd (Or.inl whole.isInfix) plain
  · rcases List.prefix_or_prefix_of_prefix part post with inMethod | whole
    · exact short _ (by decide) (by decide) inMethod
    · exact absurd (Or.inr whole.isInfix) plain

theorem servedRecord_eq_none {infos : List MountPointInformation} {fd : Fd}
    (fresh : fd ∉ descriptors infos) : servedRecord infos fd = none := by
  rw [servedRecord, List.find?_eq_none]
  intro info member serves
  apply fresh
  refine mem_descriptors.mpr ⟨info, member, ?_⟩
  rw [info.mem_descriptors]
  exact Or.inl (decide_eq_true_iff.mp serves).symm

/-- A connection without a role gets through with the first piece of a request
only when the piece is a request itself. -/
theorem request_of_accepted_prefix {caster : NtripCaster} {outcomes : SendOutcomes} {fd : Fd}
    {text piece : Bytes}
    (fresh : fd ∉ descriptors caster.mountPointInfos)
    (begins : ascii "GET /" <+: text ∨ ascii "POST /" <+: text) (part : piece <+: text)
    (accepted : (parseData caster outcomes fd piece).ret = 0) : LooksLikeRequest piece := by
  by_contra plain
  rw [parseData_ret_eq_zero_iff, Refused, (dispatch_eq_data_iff piece).mpr plain] at accepted
  exact accepted ⟨servedRecord_eq_none fresh, not_gga_of_prefix begins part plain⟩

/-- After an accepted request its sender is a server if it posted, and none if
it logged in. -/
theorem served_of_accepted {caster : NtripCaster} {outcomes : SendOutcomes} {fd : Fd} {text : Bytes}
    (fresh : fd ∉ descriptors caster.mountPointInfos) (request : LooksLikeRequest text)
    (accepted : (parseData caster outcomes fd text).ret = 0) :
    (servedRecord (parseData caster outcomes fd text).caster.mountPointInfos fd).isSome = true ↔
      dispatch text ≠ .get := by
  rcases dispatch_of_accepted request accepted with post | get
  · rcases parseData_of_post post accepted with ⟨fields, ntripStr, _, result⟩
    refine iff_of_true ?_ (by rw [post]; simp)
    rw [result, servedRecord, List.find?_isSome]
    exact ⟨fields.toRecord fd, List.mem_append_right _ List.mem_cons_self, decide_eq_true rfl⟩
  · rcases parseData_of_get get accepted with ⟨fields, before, info, after, _, split, _, _, _, result⟩
    refine iff_of_false ?_ (fun other => other get)
    rw [result, servedRecord, List.find?_isSome]
    rintro ⟨record, member, serves⟩
    have serverFd : record.serverFd = fd := decide_eq_true_iff.mp serves
    apply fresh
    rw [split]
    rcases List.mem_append.mp member with left | right
    · exact mem_descriptors.mpr ⟨record, List.mem_append_left _ left,
        (record.mem_descriptors fd).mpr (Or.inl serverFd.symm)⟩
    · rcases List.mem_cons.mp right with same | later
      · rw [same] at serverFd
        exact mem_descriptors.mpr ⟨info, List.mem_append_right _ List.mem_cons_self,
          (info.mem_descriptors fd).mpr (Or.inl serverFd.symm)⟩
      · exact mem_descriptors.mpr ⟨record,
          List.mem_append_right _ (List.mem_cons_of_mem info later),
          (record.mem_descriptors fd).mpr (Or.inl serverFd.symm)⟩

theorem entries_of_request {caster : NtripCaster} {outcomes : SendOutcomes} {fd : Fd}
    {buffer : Bytes} (request : LooksLikeRequest buffer)
    (accepted : (parseData caster outcomes fd buffer).ret = 0) :
    (parseData caster outcomes fd buffer).caster.entries = caster.entries + 1 := by
  rcases parseData_of_request caster outcomes fd request with refused | changed
  · exact absurd accepted refused
  · exact (entries_parseData caster outcomes fd buffer).resolve_left changed

theorem passes_after_request_iff {caster : NtripCaster} {outcomes : SendOutcomes} {fd : Fd} {text : Bytes}
    (fresh : fd ∉ descriptors caster.mountPointInfos) (request : LooksLikeRequest text)
    (accepted : (parseData caster outcomes fd text).ret = 0) (piece : Bytes) :
    Passes (parseData caster outcomes fd text).caster fd piece ↔ LaterPasses text piece := by
  rw [Passes, LaterPasses, served_of_accepted fresh request accepted]
  refine and_congr_right fun _ => ?_
  by_cases get : dispatch text = .get
  · simp [get]
  · simp [get]

/-- A request that is read like an accepted one is accepted. -/
theorem accepted_of_readsAlike {caster : NtripCaster} {outcomes : SendOutcomes} {fd : Fd}
    {text piece : Bytes} (accepted : (parseData caster outcomes fd text).ret = 0)
    (alike : ReadsAlike caster.mountPointInfos text piece) :
    (parseData caster outcomes fd piece).ret = 0 := by
  rw [parseData_ret_eq_zero_iff, Refused] at accepted ⊢
  rcases alike with ⟨fields, ntripStr, textReads, pieceReads⟩ |
    ⟨whole, part, textReads, pieceReads, same⟩
  · rw [textReads.1] at accepted
    rw [pieceReads.1]
    have registers : Registers caster outcomes text := not_not.mp accepted
    exact not_not.mpr ⟨⟨fields, ntripStr, pieceReads⟩, registers.2⟩
  · rw [textReads.1] at accepted
    rw [pieceReads.1]
    rcases not_not.mp accepted with ⟨fields, reads, index, bound, taken⟩
    rw [textReads.unique reads, ← same] at bound
    exact not_not.mpr ⟨part, pieceReads, index, bound, taken⟩

/-- An accepted text in one piece leaves its connection open. -/
theorem sameEffect_self {sys : System} {fd : Fd} {text : Bytes} {outcomes : SendOutcomes}
    (isOpen : (sys.owner fd).isSome = true)
    (accepted : (parseData sys.caster outcomes fd text).ret = 0) :
    sys.SameEffect fd [⟨text, outcomes⟩] [⟨text, outcomes⟩] := by
  refine ⟨rfl, ?_⟩
  rw [receiveAll_of_open isOpen, System.receiveAll, owner_step_received, if_pos accepted]
  exact isOpen

/-- A request that a connection without a role sends in pieces has the effect
of the whole exactly when the first piece is read like the whole and every
later piece is data that passes. -/
theorem sameEffect_request_iff {sys : System} {fd : Fd}
    (isOpen : (sys.owner fd).isSome = true) (fresh : fd ∉ descriptors sys.caster.mountPointInfos)
    {text first : Bytes} {outcomes : SendOutcomes} {rest : List Delivery}
    (begins : ascii "GET /" <+: text ∨ ascii "POST /" <+: text) (part : first <+: text)
    (accepted : (parseData sys.caster outcomes fd text).ret = 0) :
    sys.SameEffect fd (⟨first, outcomes⟩ :: rest) [⟨text, outcomes⟩] ↔
      ReadsAlike sys.caster.mountPointInfos text first ∧
        ∀ later ∈ rest, LaterPasses text later.buffer := by
  have request : LooksLikeRequest text :=
    begins.imp (fun get => get.isInfix) (fun post => post.isInfix)
  rw [System.SameEffect, receiveAll_of_open isOpen, receiveAll_of_open isOpen]
  change _ = (parseData sys.caster outcomes fd text).caster ∧ _ ↔ _
  have owner := owner_step_received sys outcomes fd first
  have tables : (sys.step (.received fd first outcomes)).caster =
      (parseData sys.caster outcomes fd first).caster := rfl
  generalize sys.step (.received fd first outcomes) = next at owner tables
  by_cases zero : (parseData sys.caster outcomes fd first).ret = 0
  · rw [if_pos zero] at owner
    have firstRequest := request_of_accepted_prefix fresh begins part zero
    have nextOpen : (next.owner fd).isSome = true := by
      rw [owner]
      exact isOpen
    have alike := same_tables_iff request firstRequest accepted zero
    have later := receiveAll_same_iff nextOpen rest
    rw [← alike]
    by_cases same : next.caster = (parseData sys.caster outcomes fd text).caster
    · rw [same] at later
      rw [later, ← tables, and_iff_right same]
      simp only [passes_after_request_iff fresh request accepted]
    · refine iff_of_false ?_ (fun parts => same (tables.trans parts.1))
      rintro ⟨final, _⟩
      have wholeGrown := entries_of_request request accepted
      have firstGrown := entries_of_request firstRequest zero
      rw [← tables] at firstGrown
      rcases entries_receiveAll next fd rest with equal | more
      · exact same (equal.symm.trans final)
      · rw [final] at more
        omega
  · rw [if_neg zero] at owner
    refine iff_of_false ?_ (fun parts => zero (accepted_of_readsAlike accepted parts.1))
    rintro ⟨_, stillOpen⟩
    rw [receiveAll_of_closed owner, owner] at stillOpen
    cases stillOpen

end Ntrip
