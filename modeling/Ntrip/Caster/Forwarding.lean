import Ntrip.Util.Gga
import Ntrip.Caster.ThreadHandler

namespace Ntrip

/-!
# Passing a stream on

A server's payload is arbitrary bytes, and `ParseData` searches it before it
asks who sent it.  A payload therefore reaches the clients only when none of
its bytes look like a request line; and it reaches the clients of the first
record that the sender serves, whichever record was meant.
-/

/-- The payload is one that `ParseData` takes for a request. -/
def LooksLikeRequest (buffer : Bytes) : Prop :=
  ascii "GET /" <:+: buffer ∨ ascii "POST /" <:+: buffer

instance (buffer : Bytes) : Decidable (LooksLikeRequest buffer) :=
  inferInstanceAs (Decidable (_ ∨ _))

/-- The buffer goes to every client of the record in list order and to nobody
else, and nothing else happens. -/
def Transparent (caster : NtripCaster) (info : MountPointInformation) (buffer : Bytes) : Prop :=
  parseData caster (fun _ => true) info.serverFd buffer =
    ⟨0, caster, info.clientSocketList.map fun fd => ⟨.tryToForwardServerData, fd, buffer, true⟩⟩

instance (caster : NtripCaster) (info : MountPointInformation) (buffer : Bytes) :
    Decidable (Transparent caster info buffer) :=
  inferInstanceAs (Decidable (_ = _))

theorem dispatch_eq_data_iff (buffer : Bytes) :
    dispatch buffer = .data ↔ ¬ LooksLikeRequest buffer := by
  have searches : (mentions buffer "GET /" || mentions buffer "POST /") = true ↔
      LooksLikeRequest buffer := by
    rw [Bool.or_eq_true, mentions_iff, mentions_iff, LooksLikeRequest]
  rw [← searches]
  unfold dispatch
  split_ifs <;> simp_all

theorem mentions_of_dispatch_get {buffer : Bytes} (get : dispatch buffer = .get) :
    mentions buffer "GET /" = true := by
  cases searched : mentions buffer "GET /" with
  | true => rfl
  | false =>
      simp only [dispatch, searched, Bool.false_and, Bool.false_eq_true, if_false] at get
      split_ifs at get

theorem forwardTo_taken (buffer : Bytes) (clients : List Fd) :
    forwardTo (fun _ => true) buffer clients =
      clients.map fun fd => ⟨.tryToForwardServerData, fd, buffer, true⟩ := by
  apply List.ext_getElem
  · simp [forwardTo]
  · intro index _ _
    simp [forwardTo]

/-- Each entry of the list receives the buffer once. -/
theorem forwardTo_messages (outcomes : SendOutcomes) (buffer : Bytes) (clients : List Fd)
    (client : Fd) :
    ((forwardTo outcomes buffer clients).filter fun call => call.fd = client).map
        SendCall.message = List.replicate (clients.count client) buffer := by
  have receivers : (forwardTo outcomes buffer clients).map SendCall.fd = clients := by
    apply List.ext_getElem
    · simp [forwardTo]
    · intro index _ _
      simp [forwardTo]
  have messages : ∀ message ∈ ((forwardTo outcomes buffer clients).filter
      fun call => call.fd = client).map SendCall.message, message = buffer := by
    intro message member
    rcases List.mem_map.mp member with ⟨call, kept, rfl⟩
    rcases List.mem_mapIdx.mp (List.mem_filter.mp kept).1 with ⟨index, bound, rfl⟩
    rfl
  refine List.eq_replicate_iff.mpr ⟨?_, messages⟩
  rw [List.length_map]
  conv_rhs => rw [← receivers]
  rw [List.count, List.countP_map, List.countP_eq_length_filter]
  rfl

/-- Bytes that do not look like a request are passed on to the clients of the
first record that the sender serves. -/
theorem parseData_of_served {caster : NtripCaster} {outcomes : SendOutcomes} {fd : Fd}
    {buffer : Bytes} {info : MountPointInformation} (data : ¬ LooksLikeRequest buffer)
    (served : servedRecord caster.mountPointInfos fd = some info) :
    parseData caster outcomes fd buffer =
      ⟨0, caster, forwardTo outcomes buffer info.clientSocketList⟩ := by
  have kind := (dispatch_eq_data_iff buffer).mpr data
  simp [parseData, kind, tryToForwardServerData, served]

/-- A request is refused or it changes the tables. -/
theorem parseData_of_request (caster : NtripCaster) (outcomes : SendOutcomes) (fd : Fd)
    {buffer : Bytes} (request : LooksLikeRequest buffer) :
    (parseData caster outcomes fd buffer).ret ≠ 0 ∨
      (parseData caster outcomes fd buffer).caster ≠ caster := by
  rcases parseData_granted_or caster outcomes fd buffer with ⟨_, perm⟩ | ⟨ungranted, _⟩
  · refine Or.inr fun same => ?_
    rw [same] at perm
    exact absurd perm.length_eq (Nat.ne_of_lt (Nat.lt_succ_self _))
  · refine Or.inl ?_
    rw [Ne, parseData_ret_eq_zero_iff, not_not]
    exact refused_of_request fd (fun data => (dispatch_eq_data_iff buffer).mp data request) ungranted

theorem exists_servedRecord {infos : List MountPointInformation} {info : MountPointInformation}
    (member : info ∈ infos) : ∃ first, servedRecord infos info.serverFd = some first := by
  apply Option.isSome_iff_exists.mp
  rw [servedRecord, List.find?_isSome]
  exact ⟨info, member, by simp⟩

/-- A stream passes unchanged exactly when the payload does not look like a
request and the first record of the sender lists the same clients. -/
theorem transparent_iff (caster : NtripCaster) (info : MountPointInformation)
    (member : info ∈ caster.mountPointInfos) (buffer : Bytes) :
    Transparent caster info buffer ↔
      ¬ LooksLikeRequest buffer ∧
        ∀ first, servedRecord caster.mountPointInfos info.serverFd = some first →
          first.clientSocketList = info.clientSocketList := by
  unfold Transparent
  by_cases request : LooksLikeRequest buffer
  · refine iff_of_false ?_ (fun parts => parts.1 request)
    intro passed
    rcases parseData_of_request caster (fun _ => true) info.serverFd request with
      refused | changed
    · rw [passed] at refused
      exact refused rfl
    · rw [passed] at changed
      exact changed rfl
  · rcases exists_servedRecord member with ⟨first, served⟩
    rw [parseData_of_served request served, forwardTo_taken]
    constructor
    · intro passed
      refine ⟨request, ?_⟩
      intro other servedOther
      rw [Option.some.inj (servedOther.symm.trans served)]
      have sends := congrArg Response.sends passed
      have receivers := congrArg (List.map SendCall.fd) sends
      simpa [Function.comp_def] using receivers
    · rintro ⟨_, same⟩
      rw [same first served]

/-- The tables after connection 5 registers a mount point and connection 6
becomes its client. -/
def servedByFive : NtripCaster where
  mountPointInfos := [⟨5, ascii "A", ascii "u", ascii "p", [6]⟩]
  ntripStrList := [[]]

theorem transparent_frame :
    Transparent servedByFive ⟨5, ascii "A", ascii "u", ascii "p", [6]⟩ [0xD3, 0, 0] :=
  (transparent_iff servedByFive _ List.mem_cons_self [0xD3, 0, 0]).mpr (by
    refine ⟨by decide, ?_⟩
    intro first served
    rw [Option.some.inj served.symm])

theorem transparent_fails :
    ¬ ∀ caster, System.Reachable caster → ∀ info ∈ caster.mountPointInfos, ∀ buffer : Bytes,
      buffer ≠ [] → buffer.length ≤ kBufferSize → Transparent caster info buffer := by
  intro always
  have reachable : System.Reachable servedByFive := by
    refine ⟨[.accept 5, .accept 6,
      .received 5 (ascii "POST /A HTTP/1.1\r\nAuthorization: Basic dTpw\r\n") (fun _ => true),
      .received 6 (ascii "GET /A HTTP/1.1\r\nAuthorization: Basic dTpw\r\n") (fun _ => true)], ?_⟩
    decide +kernel
  have passed := always servedByFive reachable _ List.mem_cons_self (ascii "GET /")
    (by decide) (by decide)
  revert passed
  decide +kernel

/-! ## Position reports -/

/-- `ParseData` hands the buffer to `BccCheckSumCompareForGGA`. -/
def ChecksGga (caster : NtripCaster) (socketFd : Fd) (buffer : Bytes) : Prop :=
  dispatch buffer = .data ∧ servedRecord caster.mountPointInfos socketFd = none ∧
    mentionsGga buffer = true

instance (caster : NtripCaster) (socketFd : Fd) (buffer : Bytes) :
    Decidable (ChecksGga caster socketFd buffer) :=
  inferInstanceAs (Decidable (_ ∧ _ ∧ _))

/-- Nothing that `ParseData` asks before the call keeps the loop inside. -/
theorem scan_inside_fails :
    ¬ ∀ (kind : CharKind) (caster : NtripCaster) (socketFd : Fd) (buffer : Bytes),
      buffer ≠ [] → buffer.length ≤ kBufferSize → ChecksGga caster socketFd buffer →
        ScanInside kind buffer := by
  intro always
  have inside := always .signed .empty 5 (ascii "$GPGGA,") (by decide) (by decide) (by decide)
  rcases inside with ⟨sum, stop, stops, _⟩
  have runs : checkSumScan .signed (ascii "$GPGGA,") = none := by decide
  rw [runs] at stops
  cases stops

end Ntrip
