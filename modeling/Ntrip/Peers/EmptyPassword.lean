import Ntrip.Caster.ThreadHandler
import Ntrip.Peers.Recognition
import Ntrip.Util.Base64Standard

namespace Ntrip

/-!
# Empty passwords

Both handlers refuse a request whose password is empty, and test the decoded
one.  The decoder puts a zero byte behind a text that is not made of whole
groups of three bytes, so the password of such a token is not empty.
-/

open Sequence

/-! ## The account of a request -/

/-- A line from which a loop reads the account. -/
def IsAuthorization (method : String) (line : Bytes) : Prop :=
  mentions line method = false ∧ mentions line "Authorization: Basic" = true

instance (method : String) (line : Bytes) : Decidable (IsAuthorization method line) :=
  inferInstanceAs (Decidable (_ ∧ _))

/-- Every line that names an account has this token. -/
def CarriesToken (method : String) (lines : List Bytes) (token : Bytes) : Prop :=
  ∀ line ∈ lines, IsAuthorization method line → headerToken line = some token

instance (method : String) (lines : List Bytes) (token : Bytes) :
    Decidable (CarriesToken method lines token) :=
  inferInstanceAs (Decidable (∀ line ∈ lines, _))

/-- The account of a token, as both handlers read it. -/
def tokenAccount (token : Bytes) : Option Credentials :=
  (base64Decode token).bind splitCredentials

theorem readCredentials_of_token {line token : Bytes} (read : headerToken line = some token) :
    readCredentials line = tokenAccount token := by
  rw [readCredentials, read, Option.bind_eq_bind, Option.bind_some, tokenAccount]

def RequestFields.account (fields : RequestFields) : Credentials :=
  ⟨fields.user, fields.passwd⟩

/-- After a loop the account is the one from before it or that of the token. -/
def AccountFrom (token : Bytes) (before after : Credentials) : Prop :=
  after = before ∨ tokenAccount token = some after

theorem AccountFrom.trans {token : Bytes} {first second third : Credentials}
    (here : AccountFrom token first second) (later : AccountFrom token second third) :
    AccountFrom token first third := by
  rcases later with same | read
  · rw [same]
    exact here
  · exact Or.inr read

theorem serverLine_account {infos : List MountPointInformation} {fields next : RequestFields}
    {line token : Bytes} (carries : IsAuthorization "POST" line → headerToken line = some token)
    (read : serverLine infos fields line = .ok next) :
    AccountFrom token fields.account next.account := by
  unfold serverLine at read
  by_cases post : mentions line "POST" = true
  · rw [if_pos post] at read
    left
    cases path : requestPath line with
    | none =>
        rw [path] at read
        cases read
    | some mountPoint =>
        rw [path] at read
        dsimp only at read
        split at read
        · cases read
        · rw [← Except.ok.inj read]
          rfl
  · rw [if_neg post] at read
    by_cases authorization : mentions line "Authorization: Basic" = true
    · rw [if_pos authorization,
        readCredentials_of_token (carries ⟨Bool.eq_false_iff.mpr post, authorization⟩)] at read
      cases account : tokenAccount token with
      | none =>
          rw [account] at read
          cases read
      | some account' =>
          rw [account] at read
          rw [← Except.ok.inj read]
          exact Or.inr account
    · rw [if_neg authorization] at read
      rw [← Except.ok.inj read]
      exact Or.inl rfl

theorem readServerLines_account {infos : List MountPointInformation} {token : Bytes}
    {lines : List Bytes} {fields result : RequestFields} (carries : CarriesToken "POST" lines token)
    (read : readServerLines infos fields lines = .ok result) :
    AccountFrom token fields.account result.account := by
  induction lines generalizing fields with
  | nil =>
      rw [← Except.ok.inj read]
      exact Or.inl rfl
  | cons line rest inductionHypothesis =>
      have parts := List.forall_mem_cons.mp carries
      rw [readServerLines] at read
      cases here : serverLine infos fields line with
      | error refusal =>
          rw [here] at read
          cases read
      | ok next =>
          rw [here] at read
          exact (serverLine_account parts.1 here).trans (inductionHypothesis parts.2 read)

theorem clientLine_account (fields : ClientFields) {line token : Bytes}
    (carries : IsAuthorization "GET" line → headerToken line = some token) :
    AccountFrom token fields.account (clientLine fields line).1.account := by
  unfold clientLine
  by_cases get : mentions line "GET" = true
  · rw [if_pos get]
    left
    dsimp only
    split
    · split
      · rfl
      · rfl
    · split
      · rfl
      · rfl
  · rw [if_neg get]
    by_cases authorization : mentions line "Authorization: Basic" = true
    · rw [if_pos authorization,
        readCredentials_of_token (carries ⟨Bool.eq_false_iff.mpr get, authorization⟩)]
      cases account : tokenAccount token with
      | none => exact Or.inl rfl
      | some account' => exact Or.inr account
    · rw [if_neg authorization]
      exact Or.inl rfl

theorem readClientLines_account {token : Bytes} {lines : List Bytes} (fields : ClientFields)
    (carries : CarriesToken "GET" lines token) :
    AccountFrom token fields.account (readClientLines fields lines).account := by
  induction lines generalizing fields with
  | nil => exact Or.inl rfl
  | cons line rest inductionHypothesis =>
      have parts := List.forall_mem_cons.mp carries
      have here := clientLine_account fields parts.1
      rw [readClientLines]
      split
      · rename_i next goesOn
        rw [goesOn] at here
        exact here.trans (inductionHypothesis next parts.2)
      · rename_i next stops
        rw [stops] at here
        exact here

/-! ## The account of a token for an empty password -/

/-- The token of a user with an empty password. -/
def emptyPasswordToken (kind : CharKind) (user : Bytes) : Bytes :=
  (base64Encode kind (user ++ [colon]) []).2

/-- The account read from a token that fits into a buffer.  A user too long
for the counter of the encoder has no token with a colon. -/
theorem account_of_emptyPasswordToken {kind : CharKind} {user : Bytes} {account : Credentials}
    (noColon : colon ∉ user) (short : (emptyPasswordToken kind user).length ≤ kBufferSize)
    (read : tokenAccount (emptyPasswordToken kind user) = some account) :
    account = ⟨user, strayByte (user.length + 1)⟩ := by
  have length : (user ++ [colon]).length = user.length + 1 := List.length_append
  have count := le_base64Encode_length kind (user ++ [colon])
  have counted := length_counted (user ++ [colon])
  have atMost := toNat_toInt_le (user ++ [colon]).length
  unfold emptyPasswordToken at short read
  rw [base64Encode_counted] at read
  generalize (toInt (user ++ [colon]).length).toNat = size at count counted atMost read
  have small : size ≤ 65536 := Nat.le_trans count short
  rcases Option.bind_eq_some_iff.mp read with ⟨userPasswd, decoded, split⟩
  have parts := splitCredentials_eq_some split
  by_cases nothing : (user ++ [colon]).take size = []
  · rw [nothing] at decoded
    have accepted := (base64Decode_accepts_iff _).mp (Option.isSome_iff_exists.mpr ⟨_, decoded⟩)
    have empty := base64Encode_length kind [] (by decide)
    rw [empty] at accepted
    exact absurd rfl accepted.2
  · rw [base64Decode_base64Encode kind _ nothing (by omega), counted, Option.some.injEq] at decoded
    by_cases whole : size = user.length + 1
    · rw [whole, ← length, List.take_length, List.append_assoc, List.singleton_append,
        length] at decoded
      rw [← decoded, splitCredentials_append _ noColon] at split
      exact (Option.some.inj split).symm
    · have front : (user ++ [colon]).take size = user.take size := by
        apply List.take_append_of_le_length
        omega
      have absent : colon ∉ userPasswd := by
        rw [← decoded, front, List.mem_append, not_or]
        refine ⟨fun member => noColon (List.mem_of_mem_take member), ?_⟩
        unfold strayByte
        split
        · exact List.not_mem_nil
        · decide
      rw [parts.1] at absent
      exact absurd (List.mem_append_right _ List.mem_cons_self) absent

/-! ## What becomes of the requests -/

/-- A server's request passes every test of `ServerConnectRequest` but the one
on the password. -/
def OtherwiseAcceptedPost (caster : NtripCaster) (outcomes : SendOutcomes) (lines : List Bytes) :
    Prop :=
  ∃ fields ntripStr, readServerLines caster.mountPointInfos {} lines = .ok fields ∧
    readStrLines fields.mountPoint [] lines = some ntripStr ∧ fields.mountPoint ≠ [] ∧
    fields.user ≠ [] ∧ outcomes 0 = true

/-- A client's request names a mount point and a user. -/
def OtherwiseAcceptedGet (lines : List Bytes) (mountPoint : Bytes) : Prop :=
  (readClientLines {} lines).mountPoint = mountPoint ∧ mountPoint ≠ [] ∧
    (readClientLines {} lines).user ≠ []

instance (lines : List Bytes) (mountPoint : Bytes) :
    Decidable (OtherwiseAcceptedGet lines mountPoint) :=
  inferInstanceAs (Decidable (_ ∧ _ ∧ _))

/-- The request is refused and leaves both tables alone. -/
def LeftOut (caster : NtripCaster) (response : Response) : Prop :=
  response.ret = -1 ∧ response.caster = caster

theorem strayByte_ne_nil_iff (count : Nat) : strayByte count ≠ [] ↔ ¬ count % 3 = 0 := by
  unfold strayByte
  split
  · rename_i whole
    exact iff_of_false (not_not_intro rfl) (not_not_intro whole)
  · rename_i rest
    exact iff_of_true (List.cons_ne_nil _ _) rest

theorem serverConnectRequest_leftOut_iff {caster : NtripCaster} {outcomes : SendOutcomes}
    {lines : List Bytes} {fields : RequestFields} {ntripStr : Bytes}
    (read : readServerLines caster.mountPointInfos {} lines = .ok fields)
    (str : readStrLines fields.mountPoint [] lines = some ntripStr) (taken : outcomes 0 = true)
    (socketFd : Fd) :
    LeftOut caster (serverConnectRequest caster outcomes lines socketFd) ↔ ¬ fields.Complete := by
  unfold serverConnectRequest
  rw [read]
  simp only [str, taken, if_true]
  by_cases complete : fields.Complete
  · rw [if_pos complete]
    refine iff_of_false ?_ (not_not_intro complete)
    intro out
    exact absurd out.1 (show (0 : Int) ≠ -1 by decide)
  · rw [if_neg complete]
    exact iff_of_true ⟨rfl, rfl⟩ complete

theorem clientConnectRequest_leftOut_iff (caster : NtripCaster) (outcomes : SendOutcomes)
    (lines : List Bytes) (socketFd : Fd) :
    LeftOut caster (clientConnectRequest caster outcomes lines socketFd) ↔
      ¬ (readClientLines {} lines).Complete ∨
        ∀ index < (matchingRecords caster.mountPointInfos
          (readClientLines {} lines).toRequestFields).length, outcomes index = false := by
  unfold clientConnectRequest
  generalize readClientLines {} lines = fields
  by_cases complete : fields.Complete
  · rcases admitClient_spec outcomes fields socketFd caster.mountPointInfos 0 with
      ⟨before, info, after, failures, split, good, tried, failed, accepted, walk⟩ | ⟨failed, walk⟩
    · simp only [if_pos complete, walk]
      refine iff_of_false (fun out => absurd out.1 (show (0 : Int) ≠ -1 by decide)) ?_
      rintro (incomplete | refused)
      · exact incomplete complete
      · have bound : failures <
            (matchingRecords caster.mountPointInfos fields.toRequestFields).length := by
          rw [split, ← tried]
          exact length_matchingRecords_lt good
        have refusal := refused failures bound
        rw [Nat.zero_add] at accepted
        rw [accepted] at refusal
        cases refusal
    · simp only [Nat.zero_add] at failed
      simp only [if_pos complete, walk]
      exact iff_of_true ⟨rfl, rfl⟩ (Or.inr failed)
  · simp only [if_neg complete]
    exact iff_of_true ⟨rfl, rfl⟩ (Or.inl complete)

/-- A request whose token has an empty password is refused when the user and
the colon are whole groups of three bytes.  Otherwise a server's request is
granted, and a client's when a record has the password that the decoder makes
of the empty one. -/
theorem empty_password_iff (kind : CharKind) (user : Bytes) (noColon : colon ∉ user)
    (short : (emptyPasswordToken kind user).length ≤ kBufferSize) (lines : List Bytes)
    (caster : NtripCaster) (outcomes : SendOutcomes) (socketFd : Fd) :
    (OtherwiseAcceptedPost caster outcomes lines →
      CarriesToken "POST" lines (emptyPasswordToken kind user) →
      (LeftOut caster (serverConnectRequest caster outcomes lines socketFd) ↔
        (user.length + 1) % 3 = 0)) ∧
    ∀ mountPoint, OtherwiseAcceptedGet lines mountPoint →
      CarriesToken "GET" lines (emptyPasswordToken kind user) →
      (LeftOut caster (clientConnectRequest caster outcomes lines socketFd) ↔
        (user.length + 1) % 3 = 0 ∨
          ∀ index < (matchingRecords caster.mountPointInfos ⟨mountPoint, user, [0]⟩).length,
            outcomes index = false) := by
  have found : ∀ fields : RequestFields, fields.user ≠ [] →
      AccountFrom (emptyPasswordToken kind user) ⟨[], []⟩ fields.account →
      fields.account = ⟨user, strayByte (user.length + 1)⟩ := by
    intro fields named source
    rcases source with initial | read
    · exact absurd (congrArg Credentials.user initial) named
    · exact account_of_emptyPasswordToken noColon short read
  constructor
  · rintro ⟨fields, ntripStr, read, str, mounted, named, taken⟩ carries
    have account := found fields named (readServerLines_account carries read)
    have passwd : fields.passwd = strayByte (user.length + 1) :=
      congrArg Credentials.passwd account
    rw [serverConnectRequest_leftOut_iff read str taken socketFd, RequestFields.Complete, passwd,
      and_iff_right mounted, and_iff_right named, strayByte_ne_nil_iff, not_not]
  · rintro mountPoint ⟨mounted, mountNonempty, named⟩ carries
    have account := found _ named (readClientLines_account {} carries)
    have userRead : (readClientLines {} lines).user = user := congrArg Credentials.user account
    have passwd : (readClientLines {} lines).passwd = strayByte (user.length + 1) :=
      congrArg Credentials.passwd account
    rw [clientConnectRequest_leftOut_iff, RequestFields.Complete, passwd, mounted,
      and_iff_right mountNonempty, and_iff_right named, strayByte_ne_nil_iff, not_not]
    by_cases whole : (user.length + 1) % 3 = 0
    · exact iff_of_true (Or.inl whole) (Or.inl whole)
    · have fields : (readClientLines {} lines).toRequestFields = ⟨mountPoint, user, [0]⟩ := by
        have stray : strayByte (user.length + 1) = [0] := if_neg whole
        rw [stray] at passwd
        rw [← mounted, ← userRead, ← passwd]
      rw [fields]

/-- The lines of a request for the mount point A with the token of a user and
an empty password. -/
def emptyPasswordLines (method : String) (user : Bytes) : List Bytes :=
  [methodLine method (ascii "A"), headerLine authorizationName (emptyPasswordToken .signed user)]

/-- The request of a user of two letters. -/
theorem empty_password_twoLetters :
    LeftOut NtripCaster.empty (serverConnectRequest NtripCaster.empty (fun _ => true)
      (emptyPasswordLines "POST" (ascii "me")) 5) ∧
    LeftOut NtripCaster.empty (clientConnectRequest NtripCaster.empty (fun _ => true)
      (emptyPasswordLines "GET" (ascii "me")) 5) := by
  have noColon : colon ∉ ascii "me" := by decide
  have short : (emptyPasswordToken .signed (ascii "me")).length ≤ kBufferSize := by decide
  have post : OtherwiseAcceptedPost NtripCaster.empty (fun _ => true)
      (emptyPasswordLines "POST" (ascii "me")) :=
    ⟨⟨ascii "A", ascii "me", []⟩, [], by decide +kernel, by decide, by decide, by decide, rfl⟩
  have get : OtherwiseAcceptedGet (emptyPasswordLines "GET" (ascii "me")) (ascii "A") := by
    decide +kernel
  constructor
  · exact ((empty_password_iff .signed (ascii "me") noColon short _ NtripCaster.empty
      (fun _ => true) 5).1 post (by decide)).mpr rfl
  · exact ((empty_password_iff .signed (ascii "me") noColon short _ NtripCaster.empty
      (fun _ => true) 5).2 (ascii "A") get (by decide)).mpr (Or.inl rfl)

/-- The token of a user of one letter decodes to a password of one zero byte,
and the server is registered with it. -/
theorem empty_password_fails :
    ¬ ∀ (kind : CharKind) (user : Bytes) (lines : List Bytes) (caster : NtripCaster)
      (outcomes : SendOutcomes) (socketFd : Fd), user ≠ [] → colon ∉ user → 0 ∉ user →
      OtherwiseAcceptedPost caster outcomes lines →
      CarriesToken "POST" lines (emptyPasswordToken kind user) →
      LeftOut caster (serverConnectRequest caster outcomes lines socketFd) := by
  intro always
  have post : OtherwiseAcceptedPost NtripCaster.empty (fun _ => true)
      (emptyPasswordLines "POST" (ascii "u")) :=
    ⟨⟨ascii "A", ascii "u", [0]⟩, [], by decide +kernel, by decide, by decide, by decide, rfl⟩
  have out := always .signed (ascii "u") _ NtripCaster.empty (fun _ => true) 5 (by decide)
    (by decide) (by decide) post (by decide)
  have registered : (serverConnectRequest NtripCaster.empty (fun _ => true)
      (emptyPasswordLines "POST" (ascii "u")) 5).ret = 0 := by
    decide +kernel
  exact absurd (registered.symm.trans out.1) (by decide)

end Ntrip
