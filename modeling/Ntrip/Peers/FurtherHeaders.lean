import Ntrip.Peers.Reading

namespace Ntrip

/-!
# Headers that a request does not need

The loop of `ClientConnectRequest` takes a line for the request line when
"GET" is anywhere in it, and for the credentials when "Authorization: Basic"
is.  A header of another name can be mistaken for either, and then another
mount point or account is read, or the loop is left before the credentials.
What decides is whether the header stands before the credentials or behind
them.
-/

open Sequence

/-! ## A request and a further header -/

/-- The line of the credentials, as `StringSplit` hands it on. -/
def tokenLine (token : Bytes) : Bytes :=
  headerLine authorizationName token

/-- The lines of a client's request, with any number of empty lines at its
end. -/
def getLines (mountPoint token : Bytes) (blanks : Nat) : List Bytes :=
  (ascii "GET /" ++ mountPoint ++ ascii " HTTP/1.1") ::
    (ascii "Authorization: Basic " ++ token) :: List.replicate blanks []

/-- A header without its line end. -/
def furtherHeader (name value : Bytes) : Bytes :=
  name ++ ascii ": " ++ value

/-- A header as `StringSplit` hands it on. -/
def furtherLine (name value : Bytes) : Bytes :=
  headerLine (name ++ [colon]) value

/-- The letters that the name of a header is made of. -/
def headerNameLetters : Bytes :=
  ascii "ABCDEFGHIJKLMNOPQRSTUVWXYZabcdefghijklmnopqrstuvwxyz-"

/-- Where a header stands in a request. -/
inductive Place
  | beforeToken
  | behindToken
deriving DecidableEq, Repr

/-- The place of a header at a position behind the request line. -/
def placeOf (position : Nat) : Place :=
  if position ≤ 1 then .beforeToken else .behindToken

/-- The request's lines with the header in its place. -/
def linesWith (mountPoint token line : Bytes) : Place → List Bytes
  | .beforeToken => [methodLine "GET" mountPoint, line, tokenLine token]
  | .behindToken => [methodLine "GET" mountPoint, tokenLine token, line]

/-! ## What the credentials amount to -/

/-- The account that the loop takes from the line of the credentials; without
one it leaves the loop there. -/
def lineAccount (token : Bytes) : Option Credentials :=
  if mentions (tokenLine token) "GET" then none else readCredentials (tokenLine token)

/-- An account with which a request is looked up in the records. -/
def Usable (account : Option Credentials) : Prop :=
  ∃ credentials, account = some credentials ∧ credentials.user ≠ [] ∧ credentials.passwd ≠ []

instance (account : Option Credentials) : Decidable (Usable account) :=
  match account with
  | none => isFalse fun ⟨_, found, _⟩ => Option.some_ne_none _ found.symm
  | some credentials =>
      decidable_of_iff (credentials.user ≠ [] ∧ credentials.passwd ≠ []) (by simp [Usable])

/-- The variables with an account, if there is one. -/
def ClientFields.withAccount (fields : ClientFields) : Option Credentials → ClientFields
  | none => fields
  | some account => { fields with user := account.user, passwd := account.passwd }

/-! ## Harmless headers -/

/-- What a line that is taken for a request line must not change. -/
def KeepsRequest (mountPoint line : Bytes) : Place → Prop
  | .beforeToken =>
      requestPath line = some mountPoint ∧
        (mentions line "HTTP/1.0" = true →
          mentions (methodLine "GET" mountPoint) "HTTP/1.0" = true)
  | .behindToken =>
      (∀ path, requestPath line = some path → path = mountPoint) ∧
        (mentions line "HTTP/1.0" = true →
          mentions (methodLine "GET" mountPoint) "HTTP/1.0" = true)

/-- What a line that is taken for credentials must not change. -/
def KeepsAccount (account : Option Credentials) (line : Bytes) : Place → Prop
  | .beforeToken =>
      (Usable account → (readCredentials line).isSome = true) ∧
        (account = none → ¬ Usable (readCredentials line))
  | .behindToken =>
      (Usable account → ∀ other, readCredentials line = some other → account = some other) ∧
        (account ≠ none → ¬ Usable account → ¬ Usable (readCredentials line))

/-- The line changes nothing of what a request amounts to. -/
def Harmless (mountPoint token line : Bytes) (place : Place) : Prop :=
  (mentions line "GET" = true → Usable (lineAccount token) → KeepsRequest mountPoint line place) ∧
    (mentions line "GET" = false → mentions line "Authorization: Basic" = true →
      KeepsAccount (lineAccount token) line place)

theorem harmless_of_get {mountPoint token line : Bytes} {place : Place}
    (get : mentions line "GET" = true) :
    Harmless mountPoint token line place ↔
      (Usable (lineAccount token) → KeepsRequest mountPoint line place) := by
  unfold Harmless
  rw [get]
  simp

theorem harmless_of_authorization {mountPoint token line : Bytes} {place : Place}
    (get : mentions line "GET" = false)
    (authorization : mentions line "Authorization: Basic" = true) :
    Harmless mountPoint token line place ↔ KeepsAccount (lineAccount token) line place := by
  unfold Harmless
  rw [get, authorization]
  simp

theorem harmless_of_neither {mountPoint token line : Bytes} {place : Place}
    (get : mentions line "GET" = false)
    (authorization : mentions line "Authorization: Basic" = false) :
    Harmless mountPoint token line place := by
  unfold Harmless
  rw [get, authorization]
  simp

/-! ## Answers to clients -/

/-- Variables that are the same, or that both ask for nothing. -/
def Alike (fields other : ClientFields) : Prop :=
  fields = other ∨ (¬ fields.Complete ∧ ¬ other.Complete)

theorem alike_of_complete {fields : ClientFields} (complete : fields.Complete)
    (other : ClientFields) : Alike fields other ↔ fields = other :=
  or_iff_left fun none => none.1 complete

theorem alike_of_incomplete {fields : ClientFields} (incomplete : ¬ fields.Complete)
    (other : ClientFields) : Alike fields other ↔ ¬ other.Complete := by
  constructor
  · rintro (same | none)
    · rw [← same]
      exact incomplete
    · exact none.2
  · exact fun incomplete' => Or.inr ⟨incomplete, incomplete'⟩

/-- A caster with the one record that the variables ask for. -/
def ClientFields.caster (fields : ClientFields) : NtripCaster where
  mountPointInfos := [fields.toRecord 0]
  ntripStrList := []

theorem clientReply_injective {fields other : ClientFields}
    (same : clientReply fields = clientReply other) :
    fields.ntripVersion1 = other.ntripVersion1 := by
  have different : icyLine ≠ okLine := by decide
  unfold clientReply at same
  cases first : fields.ntripVersion1 <;> cases second : other.ntripVersion1 <;>
    simp [first, second, different, different.symm] at same ⊢

/-- Only a request for the one record is answered by it, and the answer tells
the version asked for. -/
theorem fields_of_same_answer {lines lines' : List Bytes} {socketFd : Fd}
    (complete : (readClientLines {} lines).Complete)
    (same : clientConnectRequest (readClientLines {} lines).caster (fun _ => true) lines socketFd =
      clientConnectRequest (readClientLines {} lines).caster (fun _ => true) lines' socketFd) :
    readClientLines {} lines = readClientLines {} lines' := by
  unfold clientConnectRequest at same
  generalize readClientLines {} lines = fields at complete same ⊢
  generalize readClientLines {} lines' = fields' at same ⊢
  have own : fields.toRequestFields.Matches (fields.toRecord 0) := ⟨rfl, rfl, rfl⟩
  dsimp only at same
  rw [if_pos complete] at same
  simp only [ClientFields.caster, admitClient, if_pos own, if_true] at same
  by_cases other : fields'.Complete ∧ fields'.toRequestFields.Matches (fields.toRecord 0)
  · rw [if_pos other.1, if_pos other.2] at same
    have sends := congrArg Response.sends same
    have reply : clientReply fields = clientReply fields' :=
      congrArg SendCall.message (List.cons.inj sends).1
    have version := clientReply_injective reply
    have request := fields_of_matches own other.2
    cases fields
    cases fields'
    cases request
    cases version
    rfl
  · have refused : (0 : Int) = -1 := by
      by_cases complete' : fields'.Complete
      · have unmatched : ¬ fields'.toRequestFields.Matches (fields.toRecord 0) :=
          fun good => other ⟨complete', good⟩
        rw [if_pos complete', if_neg unmatched] at same
        exact congrArg Response.ret same
      · rw [if_neg complete'] at same
        exact congrArg Response.ret same
    exact absurd refused (by decide)

theorem clientConnectRequest_of_incomplete {lines : List Bytes}
    (incomplete : ¬ (readClientLines {} lines).Complete) (caster : NtripCaster)
    (outcomes : SendOutcomes) (socketFd : Fd) :
    clientConnectRequest caster outcomes lines socketFd =
      ⟨-1, caster, [⟨.clientConnectRequest, socketFd, unauthorizedLine, outcomes 0⟩]⟩ := by
  unfold clientConnectRequest
  dsimp only
  rw [if_neg incomplete]
  rfl

/-- Requests whose lines amount to the same, or to nothing that is looked up,
are the ones that every caster answers alike. -/
theorem answers_alike_iff (lines lines' : List Bytes) :
    (∀ caster outcomes socketFd, clientConnectRequest caster outcomes lines socketFd =
        clientConnectRequest caster outcomes lines' socketFd) ↔
      Alike (readClientLines {} lines) (readClientLines {} lines') := by
  constructor
  · intro same
    by_cases complete : (readClientLines {} lines).Complete
    · exact Or.inl (fields_of_same_answer complete (same _ _ 0))
    · by_cases complete' : (readClientLines {} lines').Complete
      · exact Or.inl (fields_of_same_answer complete' (same _ _ 0).symm).symm
      · exact Or.inr ⟨complete, complete'⟩
  · rintro (read | ⟨incomplete, incomplete'⟩) caster outcomes socketFd
    · unfold clientConnectRequest
      rw [read]
    · rw [clientConnectRequest_of_incomplete incomplete,
        clientConnectRequest_of_incomplete incomplete']

/-! ## The lines in turn -/

/-- The variables behind the request line. -/
def requestFields (mountPoint : Bytes) : ClientFields where
  mountPoint := mountPoint
  ntripVersion1 := mentions (methodLine "GET" mountPoint) "HTTP/1.0"

theorem clientLine_getLine {mountPoint : Bytes} (noSpace : space ∉ mountPoint) :
    clientLine {} (methodLine "GET" mountPoint) = (requestFields mountPoint, true) := by
  have path : requestPath (methodLine "GET" mountPoint) = some mountPoint :=
    requestPath_methodLine (by decide) noSpace
  rw [clientLine, mentions_methodLine, if_pos rfl, path, requestFields]
  cases version : mentions (methodLine "GET" mountPoint) "HTTP/1.0" with
  | true => rfl
  | false => rfl

theorem notMem_token {kind : CharKind} {raw token : Bytes}
    (encoded : token = (base64Encode kind raw []).2) {letter : UInt8}
    (outside : letter ∉ tokenAlphabet) : letter ∉ token := by
  intro member
  rw [encoded] at member
  rcases base64Encode_letters kind raw letter member with code | padding
  · exact outside (List.mem_append_left [paddingSign] code)
  · exact outside (List.mem_append_right kBase64CodeTable (List.mem_singleton.mpr padding))

/-- The line of the credentials: it leaves its account behind, or the loop. -/
theorem clientLine_tokenLine {kind : CharKind} {raw token : Bytes}
    (encoded : token = (base64Encode kind raw []).2) (fields : ClientFields) :
    clientLine fields (tokenLine token) =
      (fields.withAccount (lineAccount token), (lineAccount token).isSome) := by
  have noSpace : space ∉ token := notMem_token encoded (by decide)
  have noDot : (46 : UInt8) ∉ tokenLine token := by
    simp only [tokenLine, headerLine, List.mem_append, List.mem_cons, not_or]
    exact ⟨by decide, by decide, notMem_token encoded (by decide), by decide⟩
  have version : mentions (tokenLine token) "HTTP/1.0" = false :=
    (mentions_eq_false_iff _ _).mpr (not_infix_of_notMem (by decide) noDot)
  have path : requestPath (tokenLine token) = none := by
    have line : tokenLine token =
        (authorizationName ++ [space]) ++ (token ++ carriageReturn :: [lineFeed]) := by
      simp [tokenLine, headerLine]
    have fresh : space ∉ token ++ carriageReturn :: [lineFeed] := by
      rw [List.mem_append, not_or]
      exact ⟨noSpace, by decide⟩
    rw [line, requestPath_lastWord (by decide) fresh]
  have authorization : mentions (tokenLine token) "Authorization: Basic" = true :=
    (mentions_iff _ _).mpr (List.infix_append' [] authorizationName _)
  unfold clientLine lineAccount
  rw [version, path, authorization]
  by_cases get : mentions (tokenLine token) "GET" = true
  · rw [if_pos get, if_pos get]
    rfl
  · rw [if_neg get, if_neg get]
    cases readCredentials (tokenLine token) with
    | none => rfl
    | some account => rfl

/-- The variables with what a line that is taken for a request line says. -/
def ClientFields.withRequest (fields : ClientFields) (line : Bytes) : ClientFields :=
  { fields with
    mountPoint := (requestPath line).getD fields.mountPoint
    ntripVersion1 := fields.ntripVersion1 || mentions line "HTTP/1.0" }

theorem clientLine_of_get {line : Bytes} (get : mentions line "GET" = true)
    (fields : ClientFields) :
    clientLine fields line = (fields.withRequest line, (requestPath line).isSome) := by
  rcases fields with ⟨request, version⟩
  unfold clientLine ClientFields.withRequest
  rw [if_pos get]
  cases mentions line "HTTP/1.0" <;> cases requestPath line <;> simp

theorem clientLine_of_authorization {line : Bytes} (get : mentions line "GET" = false)
    (authorization : mentions line "Authorization: Basic" = true) (fields : ClientFields) :
    clientLine fields line =
      (fields.withAccount (readCredentials line), (readCredentials line).isSome) := by
  unfold clientLine
  rw [get, authorization]
  cases readCredentials line with
  | none => rfl
  | some account => rfl

theorem clientLine_of_neither {line : Bytes} (get : mentions line "GET" = false)
    (authorization : mentions line "Authorization: Basic" = false) (fields : ClientFields) :
    clientLine fields line = (fields, true) := by
  unfold clientLine
  rw [get, authorization]
  rfl

/-- An account makes the variables complete when it can be looked up. -/
theorem withAccount_complete_iff {fields : ClientFields} (unnamed : fields.user = [])
    (account : Option Credentials) :
    (fields.withAccount account).Complete ↔ fields.mountPoint ≠ [] ∧ Usable account := by
  cases account with
  | none =>
      refine iff_of_false (fun complete => complete.2.1 unnamed) ?_
      rintro ⟨_, _, found, _⟩
      cases found
  | some credentials =>
      constructor
      · exact fun complete => ⟨complete.1, credentials, rfl, complete.2⟩
      · rintro ⟨named, _, found, usable⟩
        cases found
        exact ⟨named, usable⟩

/-- A line that is taken for a request line and says nothing new. -/
theorem eq_withRequest_iff (fields : ClientFields) (line : Bytes) :
    fields = fields.withRequest line ↔
      (∀ path, requestPath line = some path → path = fields.mountPoint) ∧
        (mentions line "HTTP/1.0" = true → fields.ntripVersion1 = true) := by
  constructor
  · intro same
    have mount : fields.mountPoint = (requestPath line).getD fields.mountPoint :=
      congrArg (fun fields => fields.mountPoint) same
    have version : fields.ntripVersion1 = (fields.ntripVersion1 || mentions line "HTTP/1.0") :=
      congrArg (fun fields => fields.ntripVersion1) same
    constructor
    · intro path read
      rw [read] at mount
      exact mount.symm
    · intro old
      rw [version, old]
      exact Bool.or_true _
  · rintro ⟨paths, versions⟩
    have mount : (requestPath line).getD fields.mountPoint = fields.mountPoint := by
      cases read : requestPath line with
      | none => rfl
      | some path => exact paths path read
    have version : (fields.ntripVersion1 || mentions line "HTTP/1.0") = fields.ntripVersion1 := by
      cases old : mentions line "HTTP/1.0" with
      | true => exact (versions old).symm ▸ rfl
      | false => exact Bool.or_false _
    rw [ClientFields.withRequest, mount, version]

theorem not_usable_none : ¬ Usable none := by
  rintro ⟨_, found, _⟩
  cases found

/-! ## What the header changes -/

/-- The variables behind a request without further headers. -/
def plainFields (mountPoint token : Bytes) : ClientFields :=
  (requestFields mountPoint).withAccount (lineAccount token)

section Request

variable {kind : CharKind} {raw mountPoint token : Bytes}

theorem plainFields_complete_iff (nonempty : mountPoint ≠ []) :
    (plainFields mountPoint token).Complete ↔ Usable (lineAccount token) := by
  rw [plainFields, withAccount_complete_iff rfl]
  exact and_iff_right nonempty

theorem readClientLines_plain (noSpace : space ∉ mountPoint)
    (encoded : token = (base64Encode kind raw []).2) :
    readClientLines {} [methodLine "GET" mountPoint, tokenLine token] =
      plainFields mountPoint token := by
  rw [readClientLines_continue _ (clientLine_getLine noSpace), readClientLines_single,
    clientLine_tokenLine encoded]
  rfl

/-- The header before the credentials: they are read if it lets the loop go on. -/
theorem readClientLines_before (noSpace : space ∉ mountPoint)
    (encoded : token = (base64Encode kind raw []).2) {line : Bytes} {next : ClientFields}
    {goesOn : Bool} (read : clientLine (requestFields mountPoint) line = (next, goesOn)) :
    readClientLines {} (linesWith mountPoint token line .beforeToken) =
      if goesOn then next.withAccount (lineAccount token) else next := by
  rw [linesWith, readClientLines_continue _ (clientLine_getLine noSpace)]
  cases goesOn with
  | true =>
      rw [readClientLines_continue _ read, readClientLines_single, clientLine_tokenLine encoded]
      rfl
  | false => exact readClientLines_break _ read

/-- The header behind the credentials: it is read if they let the loop go on. -/
theorem readClientLines_behind (noSpace : space ∉ mountPoint)
    (encoded : token = (base64Encode kind raw []).2) (line : Bytes) :
    readClientLines {} (linesWith mountPoint token line .behindToken) =
      if (lineAccount token).isSome then (clientLine (plainFields mountPoint token) line).1
      else plainFields mountPoint token := by
  have credentials := clientLine_tokenLine encoded (requestFields mountPoint)
  rw [linesWith, readClientLines_continue _ (clientLine_getLine noSpace)]
  cases found : (lineAccount token).isSome with
  | true =>
      rw [found] at credentials
      rw [readClientLines_continue _ credentials, readClientLines_single]
      rfl
  | false =>
      rw [found] at credentials
      exact readClientLines_break _ credentials

/-- A header that is read as the request line. -/
theorem alike_before_of_get (nonempty : mountPoint ≠ []) (noSpace : space ∉ mountPoint)
    (encoded : token = (base64Encode kind raw []).2) {line : Bytes}
    (get : mentions line "GET" = true) :
    Alike (plainFields mountPoint token)
        (readClientLines {} (linesWith mountPoint token line .beforeToken)) ↔
      Harmless mountPoint token line .beforeToken := by
  have complete : (plainFields mountPoint token).Complete ↔ Usable (lineAccount token) :=
    plainFields_complete_iff nonempty
  rw [readClientLines_before noSpace encoded (clientLine_of_get get _), harmless_of_get get]
  by_cases usable : Usable (lineAccount token)
  · rw [alike_of_complete (complete.mpr usable), KeepsRequest, imp_iff_right usable, plainFields]
    rcases usable with ⟨account, found, named, _⟩
    rw [found]
    cases path : requestPath line with
    | none =>
        refine iff_of_false ?_ ?_
        · intro same
          exact named (congrArg (fun fields => fields.user) same)
        · intro keeps
          cases keeps.1
    | some other =>
        have new := eq_withRequest_iff
          ((requestFields mountPoint).withAccount (some account)) line
        rw [path] at new
        refine new.trans (and_congr_left fun _ => ?_)
        constructor
        · exact fun same => congrArg some (same other rfl)
        · intro same path' read
          exact Option.some.inj (read.symm.trans same)
  · rw [alike_of_incomplete (mt complete.mp usable)]
    refine iff_of_true ?_ (fun usable' => absurd usable' usable)
    cases path : requestPath line with
    | none => exact fun complete' => complete'.2.1 rfl
    | some other => exact fun complete' => usable ((withAccount_complete_iff rfl _).mp complete').2

/-- A header that is read as the line of the credentials. -/
theorem alike_before_of_authorization (nonempty : mountPoint ≠ []) (noSpace : space ∉ mountPoint)
    (encoded : token = (base64Encode kind raw []).2) {line : Bytes}
    (get : mentions line "GET" = false)
    (authorization : mentions line "Authorization: Basic" = true) :
    Alike (plainFields mountPoint token)
        (readClientLines {} (linesWith mountPoint token line .beforeToken)) ↔
      Harmless mountPoint token line .beforeToken := by
  have complete : (plainFields mountPoint token).Complete ↔ Usable (lineAccount token) :=
    plainFields_complete_iff nonempty
  rw [readClientLines_before noSpace encoded (clientLine_of_authorization get authorization _),
    harmless_of_authorization get authorization, KeepsAccount]
  by_cases usable : Usable (lineAccount token)
  · rw [alike_of_complete (complete.mpr usable), plainFields, imp_iff_right usable]
    rcases usable with ⟨account, found, named, _⟩
    rw [found]
    cases readCredentials line with
    | none =>
        refine iff_of_false ?_ (fun keeps => absurd keeps.1 Bool.false_ne_true)
        intro same
        exact named (congrArg (fun fields => fields.user) same)
    | some other => exact iff_of_true rfl ⟨rfl, fun missing => absurd missing (by simp)⟩
  · rw [alike_of_incomplete (mt complete.mp usable), and_iff_right (absurd · usable)]
    cases found : readCredentials line with
    | none => exact iff_of_true (fun complete' => complete'.2.1 rfl) fun _ => not_usable_none
    | some other =>
        cases account : lineAccount token with
        | none =>
            have named : ((requestFields mountPoint).withAccount (some other)).Complete ↔
                Usable (some other) :=
              (withAccount_complete_iff rfl _).trans (and_iff_right nonempty)
            exact (not_congr named).trans (imp_iff_right rfl).symm
        | some credentials =>
            rw [account] at usable
            refine iff_of_true ?_ (fun missing => absurd missing (by simp))
            exact fun complete' => usable ⟨credentials, rfl, complete'.2⟩

/-- The header before the credentials changes nothing that is looked up
exactly when it is harmless there. -/
theorem alike_before_iff (nonempty : mountPoint ≠ []) (noSpace : space ∉ mountPoint)
    (encoded : token = (base64Encode kind raw []).2) (line : Bytes) :
    Alike (plainFields mountPoint token)
        (readClientLines {} (linesWith mountPoint token line .beforeToken)) ↔
      Harmless mountPoint token line .beforeToken := by
  cases get : mentions line "GET" with
  | true => exact alike_before_of_get nonempty noSpace encoded get
  | false =>
      cases authorization : mentions line "Authorization: Basic" with
      | true => exact alike_before_of_authorization nonempty noSpace encoded get authorization
      | false =>
          rw [readClientLines_before noSpace encoded (clientLine_of_neither get authorization _)]
          exact iff_of_true (Or.inl rfl) (harmless_of_neither get authorization)

theorem plainFields_of_account (mountPoint : Bytes) {token : Bytes} {credentials : Credentials}
    (account : lineAccount token = some credentials) :
    plainFields mountPoint token = (requestFields mountPoint).withAccount (some credentials) := by
  rw [plainFields, account]

/-- The same two kinds of header behind the credentials. -/
theorem alike_behind_of_get (nonempty : mountPoint ≠ []) (noSpace : space ∉ mountPoint)
    (encoded : token = (base64Encode kind raw []).2) {line : Bytes}
    {credentials : Credentials} (account : lineAccount token = some credentials)
    (get : mentions line "GET" = true) :
    Alike (plainFields mountPoint token)
        (readClientLines {} (linesWith mountPoint token line .behindToken)) ↔
      Harmless mountPoint token line .behindToken := by
  have complete : (plainFields mountPoint token).Complete ↔ Usable (some credentials) :=
    account ▸ plainFields_complete_iff nonempty
  have plain := plainFields_of_account mountPoint account
  rw [readClientLines_behind noSpace encoded, account, Option.isSome_some, if_pos rfl]
  rw [clientLine_of_get get, harmless_of_get get, account]
  by_cases usable : Usable (some credentials)
  · rw [alike_of_complete (complete.mpr usable), imp_iff_right usable, plain]
    exact eq_withRequest_iff _ line
  · rw [alike_of_incomplete (mt complete.mp usable), plain]
    refine iff_of_true ?_ (fun usable' => absurd usable' usable)
    exact fun complete' => usable ⟨credentials, rfl, complete'.2⟩

theorem alike_behind_of_authorization (nonempty : mountPoint ≠ []) (noSpace : space ∉ mountPoint)
    (encoded : token = (base64Encode kind raw []).2) {line : Bytes}
    {credentials : Credentials} (account : lineAccount token = some credentials)
    (get : mentions line "GET" = false)
    (authorization : mentions line "Authorization: Basic" = true) :
    Alike (plainFields mountPoint token)
        (readClientLines {} (linesWith mountPoint token line .behindToken)) ↔
      Harmless mountPoint token line .behindToken := by
  have complete : (plainFields mountPoint token).Complete ↔ Usable (some credentials) :=
    account ▸ plainFields_complete_iff nonempty
  have plain := plainFields_of_account mountPoint account
  rw [readClientLines_behind noSpace encoded, account, Option.isSome_some, if_pos rfl]
  rw [clientLine_of_authorization get authorization,
    harmless_of_authorization get authorization, account, KeepsAccount]
  by_cases usable : Usable (some credentials)
  · rw [alike_of_complete (complete.mpr usable), imp_iff_right usable, plain,
      and_iff_left (fun _ unusable => absurd usable unusable)]
    cases readCredentials line with
    | none => exact iff_of_true rfl fun other found => absurd found (by simp)
    | some other =>
        constructor
        · intro same _ found
          rw [← found]
          exact congrArg
            (fun fields => some (Credentials.mk fields.user fields.passwd)) same
        · intro same
          rw [same other rfl]
          rfl
  · rw [alike_of_incomplete (mt complete.mp usable), plain,
      and_iff_right (absurd · usable), imp_iff_right (by simp), imp_iff_right usable]
    cases readCredentials line with
    | none =>
        refine iff_of_true ?_ not_usable_none
        exact fun complete' => usable ⟨credentials, rfl, complete'.2⟩
    | some other =>
        have named : ((requestFields mountPoint).withAccount (some other)).Complete ↔
            Usable (some other) :=
          (withAccount_complete_iff rfl _).trans (and_iff_right nonempty)
        exact not_congr named

/-- The header behind the credentials changes nothing that is looked up
exactly when it is harmless there. -/
theorem alike_behind_iff (nonempty : mountPoint ≠ []) (noSpace : space ∉ mountPoint)
    (encoded : token = (base64Encode kind raw []).2) (line : Bytes) :
    Alike (plainFields mountPoint token)
        (readClientLines {} (linesWith mountPoint token line .behindToken)) ↔
      Harmless mountPoint token line .behindToken := by
  cases account : lineAccount token with
  | none =>
      rw [readClientLines_behind noSpace encoded, account]
      refine iff_of_true (Or.inl rfl) ⟨?_, ?_⟩
      · intro _ usable
        rw [account] at usable
        exact absurd usable not_usable_none
      · intro _ _
        rw [account]
        exact ⟨fun usable => absurd usable not_usable_none, fun missing => absurd rfl missing⟩
  | some credentials =>
      cases get : mentions line "GET" with
      | true => exact alike_behind_of_get nonempty noSpace encoded account get
      | false =>
          cases authorization : mentions line "Authorization: Basic" with
          | true =>
              exact alike_behind_of_authorization nonempty noSpace encoded account get authorization
          | false =>
              rw [readClientLines_behind noSpace encoded, account, Option.isSome_some, if_pos rfl]
              rw [clientLine_of_neither get authorization]
              exact iff_of_true (Or.inl rfl) (harmless_of_neither get authorization)

end Request

/-! ## The text of the request -/

section Text

variable {kind : CharKind} {raw mountPoint token name value : Bytes}

theorem carriageReturn_notMem_getLines (blanks : Nat) (noReturn : carriageReturn ∉ mountPoint)
    (encoded : token = (base64Encode kind raw []).2) :
    ∀ line ∈ getLines mountPoint token blanks, carriageReturn ∉ line := by
  have request : carriageReturn ∉ ascii "GET /" ++ mountPoint ++ ascii " HTTP/1.1" := by
    simp only [List.mem_append, not_or]
    exact ⟨⟨by decide, noReturn⟩, by decide⟩
  have credentials : carriageReturn ∉ ascii "Authorization: Basic " ++ token := by
    rw [List.mem_append, not_or]
    exact ⟨by decide, notMem_token encoded (by decide)⟩
  refine List.forall_mem_cons.mpr ⟨request, List.forall_mem_cons.mpr ⟨credentials, ?_⟩⟩
  intro line blank
  rw [List.eq_of_mem_replicate blank]
  exact List.not_mem_nil

theorem carriageReturn_notMem_furtherHeader (letters : name ⊆ headerNameLetters)
    (oneLine : carriageReturn ∉ value) : carriageReturn ∉ furtherHeader name value := by
  simp only [furtherHeader, List.mem_append, not_or]
  exact ⟨⟨fun member => absurd (letters member) (by decide), by decide⟩, oneLine⟩

theorem furtherHeader_crlf (name value : Bytes) :
    furtherHeader name value ++ crlf = furtherLine name value := by
  apply headerLine_eq
  have separator : ascii ": " = [colon, space] := by decide
  simp [separator]

theorem filter_filled {line : Bytes} (nonempty : line ≠ []) (rest : List Bytes) :
    (line :: rest).filter (· ≠ []) = line :: rest.filter (· ≠ []) :=
  List.filter_cons_of_pos (decide_eq_true nonempty)

theorem filter_replicate_nil (blanks : Nat) :
    (List.replicate blanks ([] : Bytes)).filter (· ≠ []) = [] := by
  rw [List.filter_replicate_of_neg (by simp)]

/-- Empty lines around the header are passed over. -/
theorem filter_insertIdx_blanks {line : Bytes} (nonempty : line ≠ []) {blanks position : Nat}
    (inside : position ≤ blanks) :
    ((List.replicate blanks []).insertIdx position line).filter (· ≠ []) = [line] := by
  induction blanks generalizing position with
  | zero =>
      rw [Nat.le_zero.mp inside, List.replicate_zero, List.insertIdx_zero]
      exact filter_filled nonempty []
  | succ blanks inductionHypothesis =>
      cases position with
      | zero =>
          rw [List.insertIdx_zero, filter_filled nonempty,
            filter_replicate_nil]
      | succ position =>
          rw [List.replicate_succ, List.insertIdx_succ_cons, List.filter_cons_of_neg (by simp)]
          exact inductionHypothesis (by omega)

theorem getLine_nonempty (mountPoint : Bytes) :
    ascii "GET /" ++ mountPoint ++ ascii " HTTP/1.1" ≠ [] := by
  simp [ascii]

theorem tokenLine_nonempty (token : Bytes) : ascii "Authorization: Basic " ++ token ≠ [] := by
  simp [ascii]

/-- The lines of the request, as `StringSplit` hands them on. -/
theorem requestLines_getLines (blanks : Nat) (noReturn : carriageReturn ∉ mountPoint)
    (encoded : token = (base64Encode kind raw []).2) :
    requestLines (joinLines crlf (getLines mountPoint token blanks)) =
      [methodLine "GET" mountPoint, tokenLine token] := by
  rw [requestLines_joinLines _ (carriageReturn_notMem_getLines blanks noReturn encoded), getLines,
    filter_filled (getLine_nonempty mountPoint),
    filter_filled (tokenLine_nonempty token), filter_replicate_nil,
    ← methodLine_eq (ascii "GET /") mountPoint (by decide), tokenLine,
    ← headerLine_eq (ascii "Authorization: Basic ") token (by decide)]
  rfl

/-- The position of the header decides only whether it comes before or behind
the credentials. -/
theorem requestLines_insertIdx (blanks : Nat) (noReturn : carriageReturn ∉ mountPoint)
    (encoded : token = (base64Encode kind raw []).2) (letters : name ⊆ headerNameLetters)
    (oneLine : carriageReturn ∉ value) {position : Nat} (behind : 1 ≤ position)
    (inside : position ≤ blanks + 2) :
    requestLines (joinLines crlf
        ((getLines mountPoint token blanks).insertIdx position (furtherHeader name value))) =
      linesWith mountPoint token (furtherLine name value) (placeOf position) := by
  have nonempty : furtherHeader name value ≠ [] := by simp [furtherHeader, ascii]
  have fresh : ∀ line ∈ (getLines mountPoint token blanks).insertIdx position
      (furtherHeader name value), carriageReturn ∉ line := by
    intro line member
    have bound : position ≤ (getLines mountPoint token blanks).length := by
      simpa [getLines] using inside
    rcases (List.mem_insertIdx bound).mp member with same | old
    · rw [same]
      exact carriageReturn_notMem_furtherHeader letters oneLine
    · exact carriageReturn_notMem_getLines blanks noReturn encoded line old
  rw [requestLines_joinLines _ fresh, getLines]
  rcases position with _ | _ | position
  · omega
  · rw [List.insertIdx_succ_cons, List.insertIdx_zero,
      filter_filled (getLine_nonempty mountPoint),
      filter_filled nonempty,
      filter_filled (tokenLine_nonempty token), filter_replicate_nil,
      ← furtherHeader_crlf, placeOf, if_pos (by omega), linesWith,
      ← methodLine_eq (ascii "GET /") mountPoint (by decide), tokenLine,
      ← headerLine_eq (ascii "Authorization: Basic ") token (by decide)]
    rfl
  · rw [List.insertIdx_succ_cons, List.insertIdx_succ_cons,
      filter_filled (getLine_nonempty mountPoint),
      filter_filled (tokenLine_nonempty token),
      filter_insertIdx_blanks nonempty (by omega), ← furtherHeader_crlf, placeOf,
      if_neg (by omega), linesWith, ← methodLine_eq (ascii "GET /") mountPoint (by decide),
      tokenLine, ← headerLine_eq (ascii "Authorization: Basic ") token (by decide)]
    rfl

theorem post_not_infix_furtherHeader (letters : name ⊆ headerNameLetters)
    (noPost : ¬ ascii "POST /" <:+: value) : ¬ ascii "POST /" <:+: furtherHeader name value := by
  have shape : furtherHeader name value = (name ++ [colon]) ++ space :: value := by
    have separator : ascii ": " = [colon, space] := by decide
    simp [furtherHeader, separator]
  have noSpace : space ∉ name ++ [colon] := by
    rw [List.mem_append, not_or]
    exact ⟨fun member => absurd (letters member) (by decide), by decide⟩
  rw [post_eq] at noPost ⊢
  rw [shape, infix_aligned_iff (by decide) (by decide)]
  rintro (inName | inValue | ⟨ends, _⟩)
  · exact not_infix_of_notMem (by decide) noSpace inName
  · exact noPost inValue
  · rcases ends with ⟨front, same⟩
    have last := congrArg List.getLast? same
    have method : (ascii "POST").getLast? = some 84 := by decide
    have mark : [colon].getLast? = some 58 := rfl
    rw [List.getLast?_append, List.getLast?_append, method, mark] at last
    exact absurd (Option.some.inj last) (by decide)

/-- With the header or without it, the text is taken for a `GET`. -/
theorem dispatch_insertIdx (blanks : Nat) (noSpace : space ∉ mountPoint)
    (encoded : token = (base64Encode kind raw []).2) (letters : name ⊆ headerNameLetters)
    (noPost : ¬ ascii "POST /" <:+: value) {position : Nat} (inside : position ≤ blanks + 2) :
    dispatch (joinLines crlf (getLines mountPoint token blanks)) = .get ∧
      dispatch (joinLines crlf
        ((getLines mountPoint token blanks).insertIdx position (furtherHeader name value))) =
          .get := by
  have bound : position ≤ (getLines mountPoint token blanks).length := by
    simpa [getLines] using inside
  have plain : ∀ line ∈ getLines mountPoint token blanks, ¬ ascii "POST /" <:+: line := by
    refine List.forall_mem_cons.mpr ⟨post_not_infix_getLine noSpace, List.forall_mem_cons.mpr
      ⟨post_not_infix_tokenLine (notMem_token encoded (by decide)), ?_⟩⟩
    intro line blank
    rw [List.eq_of_mem_replicate blank]
    decide
  constructor
  · exact dispatch_of_getLine List.mem_cons_self plain
  · apply dispatch_of_getLine ((List.mem_insertIdx bound).mpr (Or.inr List.mem_cons_self))
    intro line member
    rcases (List.mem_insertIdx bound).mp member with same | old
    · rw [same]
      exact post_not_infix_furtherHeader letters noPost
    · exact plain line old

end Text

/-- A further header in a request is without effect on every caster exactly
when it is harmless where it stands. -/
theorem further_header_iff (kind : CharKind) (raw mountPoint name value : Bytes)
    (blanks position : Nat) (nonempty : mountPoint ≠ []) (noSpace : space ∉ mountPoint)
    (noReturn : carriageReturn ∉ mountPoint) (letters : name ⊆ headerNameLetters)
    (oneLine : carriageReturn ∉ value) (noPost : ¬ ascii "POST /" <:+: value)
    (behind : 1 ≤ position) (inside : position ≤ blanks + 2) :
    (∀ caster outcomes socketFd,
      parseData caster outcomes socketFd (joinLines crlf
          ((getLines mountPoint (base64Encode kind raw []).2 blanks).insertIdx position
            (furtherHeader name value))) =
        parseData caster outcomes socketFd (joinLines crlf
          (getLines mountPoint (base64Encode kind raw []).2 blanks))) ↔
      Harmless mountPoint (base64Encode kind raw []).2 (furtherLine name value)
        (placeOf position) := by
  generalize encoded : (base64Encode kind raw []).2 = token
  have gets := dispatch_insertIdx blanks noSpace encoded.symm letters noPost inside
  have lines := requestLines_getLines blanks noReturn encoded.symm
  have inserted := requestLines_insertIdx blanks noReturn encoded.symm letters oneLine behind
    inside
  have alike : Alike (plainFields mountPoint token)
      (readClientLines {} (linesWith mountPoint token (furtherLine name value)
        (placeOf position))) ↔
      Harmless mountPoint token (furtherLine name value) (placeOf position) := by
    cases placeOf position with
    | beforeToken => exact alike_before_iff nonempty noSpace encoded.symm _
    | behindToken => exact alike_behind_iff nonempty noSpace encoded.symm _
  have answered : ∀ (caster : NtripCaster) outcomes socketFd buffer, dispatch buffer = .get →
      parseData caster outcomes socketFd buffer =
        clientConnectRequest caster outcomes (requestLines buffer) socketFd := by
    intro caster outcomes socketFd buffer get
    rw [parseData, get]
  rw [← alike, ← readClientLines_plain noSpace encoded.symm, ← answers_alike_iff]
  refine forall_congr' fun caster => forall_congr' fun outcomes => forall_congr' fun socketFd => ?_
  rw [answered _ _ _ _ gets.1, answered _ _ _ _ gets.2, lines, inserted]
  exact eq_comm

/-- A header that nothing is read from. -/
theorem further_header_userAgent :
    Harmless (ascii "A") (base64Encode .signed (ascii "u:p") []).2
        (furtherLine (ascii "User-Agent") (ascii "NTRIP")) (placeOf 1) ∧
      ∀ caster outcomes socketFd,
        parseData caster outcomes socketFd (joinLines crlf
            ((getLines (ascii "A") (base64Encode .signed (ascii "u:p") []).2 1).insertIdx 1
              (furtherHeader (ascii "User-Agent") (ascii "NTRIP")))) =
          parseData caster outcomes socketFd (joinLines crlf
            (getLines (ascii "A") (base64Encode .signed (ascii "u:p") []).2 1)) := by
  have harmless : Harmless (ascii "A") (base64Encode .signed (ascii "u:p") []).2
      (furtherLine (ascii "User-Agent") (ascii "NTRIP")) (placeOf 1) :=
    harmless_of_neither (by decide) (by decide)
  refine ⟨harmless, ?_⟩
  exact (further_header_iff .signed (ascii "u:p") (ascii "A") (ascii "User-Agent")
    (ascii "NTRIP") 1 1 (by decide) (by decide) (by decide) (by decide) (by decide) (by decide)
    (by decide) (by decide)).mpr harmless

/-- The record of the server on descriptor 3, and the account of the request
below. -/
def stationA : NtripCaster where
  mountPointInfos := [⟨3, ascii "A", ascii "u", ascii "p", []⟩]
  ntripStrList := [[]]

/-- "WIDGET" contains the name of the method and no mount point follows. -/
theorem further_header_fails :
    ¬ ∀ (kind : CharKind) (raw mountPoint name value : Bytes) (blanks position : Nat),
      mountPoint ≠ [] → space ∉ mountPoint → carriageReturn ∉ mountPoint →
      lineFeed ∉ mountPoint → name ⊆ headerNameLetters → name ≠ ascii "GET" →
      name ≠ ascii "Authorization" → carriageReturn ∉ value → lineFeed ∉ value →
      ¬ ascii "Authorization: Basic" <:+: value → ¬ ascii "GET /" <:+: value →
      ¬ ascii "POST /" <:+: value → 1 ≤ position → position ≤ blanks + 2 →
      ∀ caster outcomes socketFd,
        parseData caster outcomes socketFd (joinLines crlf
            ((getLines mountPoint (base64Encode kind raw []).2 blanks).insertIdx position
              (furtherHeader name value))) =
          parseData caster outcomes socketFd (joinLines crlf
            (getLines mountPoint (base64Encode kind raw []).2 blanks)) := by
  intro always
  have same := always .signed (ascii "u:p") (ascii "A") (ascii "User-Agent") (ascii "WIDGET") 1 1
    (by decide) (by decide) (by decide) (by decide) (by decide) (by decide) (by decide)
    (by decide) (by decide) (by decide) (by decide) (by decide) (by decide) (by decide)
    stationA (fun _ => true) 5
  have admitted : (parseData stationA (fun _ => true) 5 (joinLines crlf
      (getLines (ascii "A") (base64Encode .signed (ascii "u:p") []).2 1))).ret = 0 := by
    decide +kernel
  have refused : (parseData stationA (fun _ => true) 5 (joinLines crlf
      ((getLines (ascii "A") (base64Encode .signed (ascii "u:p") []).2 1).insertIdx 1
        (furtherHeader (ascii "User-Agent") (ascii "WIDGET"))))).ret = -1 := by
    decide +kernel
  have contradiction := (refused.symm.trans (congrArg Response.ret same)).trans admitted
  exact absurd contradiction (by decide)

end Ntrip
