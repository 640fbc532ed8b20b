import Ntrip.Peers.ServerReading

namespace Ntrip

/-!
# Logging in across the three programs

A server and a client meet in the caster when both requests are read to the
same mount point and account.  Soundness says that nothing else brings them
together.  Completeness fails for configurations whose text contains a word
that the header loops look for; `Unambiguous` names all of them.
-/

open Sequence

/-! ## Stored passwords -/

theorem cStr_storedPasswd (account : Account) : cStr account.storedPasswd = account.passwd := by
  have whole : ∀ letter ∈ account.passwd, (letter ≠ 0 : Bool) = true := by
    intro letter member
    exact decide_eq_true (fun zero => account.passwd_no_nul (zero ▸ member))
  rw [cStr, Account.storedPasswd, List.takeWhile_append_of_pos whole, strayByte]
  split_ifs
  · simp
  · simp

/-- Accounts that are stored alike are equal. -/
theorem account_of_fields {name other : MountName} {account login : Account}
    (same : name.fields account = other.fields login) :
    name.bytes = other.bytes ∧ account.user = login.user ∧ account.passwd = login.passwd := by
  refine ⟨congrArg RequestFields.mountPoint same, congrArg RequestFields.user same, ?_⟩
  rw [← cStr_storedPasswd account, ← cStr_storedPasswd login]
  exact congrArg cStr (congrArg RequestFields.passwd same)

section Requests

variable (name : MountName) (account : Account) (str : SourceLine name)

/-! ## The source-table line in the first loop -/

theorem mentions_strLine_method :
    mentions (headerLine strName str.bytes) "POST" = true ↔ ascii "POST" <:+: str.bytes := by
  have notName : ¬ ascii "POST" <:+: strName := by decide
  rw [mentions_iff, infix_headerLine_iff _ _ (by decide) (by decide) (by decide)]
  simp only [notName, false_or]

theorem mentions_strLine_authorization :
    mentions (headerLine strName str.bytes) "Authorization: Basic" = true ↔
      ascii "Authorization: Basic" <:+: str.bytes := by
  have pattern : ascii "Authorization: Basic" =
      ascii "Authorization:" ++ space :: ascii "Basic" := by decide
  have noReturn : carriageReturn ∉ ascii "Authorization: Basic" := by decide
  have notName : ¬ ascii "Authorization: Basic" <:+: strName := by decide
  have notEnd : ¬ ascii "Authorization: Basic" <:+: [lineFeed] := by decide
  have notAligned : ¬ ascii "Authorization:" <:+ strName := by decide
  rw [pattern] at noReturn notName notEnd ⊢
  rw [mentions_iff, pattern, headerLine, infix_aligned_iff (by decide) (by decide),
    infix_letter_iff noReturn]
  simp only [notName, notEnd, notAligned, false_or, or_false, false_and]

/-- A source-table string with the method's name in it is read as a second
request line. -/
theorem serverLine_str_of_method {infos : List MountPointInformation}
    (unused : name.bytes ∉ mountNames infos) (occurs : ascii "POST" <:+: str.bytes)
    (fields : RequestFields) :
    (serverLine infos (name.fields account) (headerLine strName str.bytes) = .ok fields ∧
        fields.mountPoint = name.bytes) ↔
      (∃ front rest, str.bytes = front ++ slash :: (name.bytes ++ space :: rest) ∧
          slash ∉ front) ∧ fields = name.fields account := by
  have method := (mentions_strLine_method name str).mpr occurs
  have slashFree : slash ∉ strName := by decide
  rw [serverLine, method, if_pos rfl]
  constructor
  · rintro ⟨read, same⟩
    cases path : requestPath (headerLine strName str.bytes) with
    | none =>
        rw [path] at read
        cases read
    | some mountPoint =>
        rw [path] at read
        by_cases used : infos.any (fun info => mountPoint = info.mountpoint) = true
        · simp only [if_pos used] at read
          cases read
        · simp only [if_neg used] at read
          rw [← Except.ok.inj read] at same
          have named : mountPoint = name.bytes := same
          rw [named] at path
          rcases (requestPath_headerLine_iff slashFree).mp path with ⟨front, rest, shape, fresh, _⟩
          refine ⟨⟨front, rest, shape, fresh⟩, ?_⟩
          rw [← Except.ok.inj read, named]
          rfl
  · rintro ⟨⟨front, rest, shape, fresh⟩, rfl⟩
    have path : requestPath (headerLine strName str.bytes) = some name.bytes :=
      (requestPath_headerLine_iff slashFree).mpr ⟨front, rest, shape, fresh, name.no_space⟩
    rw [← any_mountpoint_iff] at unused
    refine ⟨?_, rfl⟩
    rw [path]
    simp only [if_neg unused]
    rfl

/-- Without it, a string with the header's name in it is read as a second
account. -/
theorem serverLine_str_of_authorization {infos : List MountPointInformation}
    (clean : ¬ ascii "POST" <:+: str.bytes) (occurs : ascii "Authorization: Basic" <:+: str.bytes)
    (fields : RequestFields) :
    serverLine infos (name.fields account) (headerLine strName str.bytes) = .ok fields ↔
      ∃ read, readCredentials (headerLine strName str.bytes) = some read ∧
        fields = ⟨name.bytes, read.user, read.passwd⟩ := by
  have method : mentions (headerLine strName str.bytes) "POST" = false := by
    rw [← Bool.not_eq_true, mentions_strLine_method]
    exact clean
  have authorization := (mentions_strLine_authorization name str).mpr occurs
  rw [serverLine, method, authorization]
  cases account : readCredentials (headerLine strName str.bytes) with
  | none => simp
  | some read =>
      constructor
      · intro result
        exact ⟨read, rfl, (Except.ok.inj result).symm⟩
      · rintro ⟨other, same, rfl⟩
        rw [← Option.some.inj same]
        rfl

/-- Without either it is passed over. -/
theorem serverLine_str {infos : List MountPointInformation}
    (noMethod : ¬ ascii "POST" <:+: str.bytes)
    (noAuthorization : ¬ ascii "Authorization: Basic" <:+: str.bytes) :
    serverLine infos (name.fields account) (headerLine strName str.bytes) =
      .ok (name.fields account) := by
  have method : mentions (headerLine strName str.bytes) "POST" = false := by
    rw [← Bool.not_eq_true, mentions_strLine_method]
    exact noMethod
  have authorization :
      mentions (headerLine strName str.bytes) "Authorization: Basic" = false := by
    rw [← Bool.not_eq_true, mentions_strLine_authorization]
    exact noAuthorization
  rw [serverLine, method, authorization]
  rfl

end Requests

/-! ## A configuration to try -/

/-- An ordinary build, address and account. -/
def release : Build where
  charKind := .signed
  versionMajor := 1
  versionMinor := 2
  versionPatch := 0
  gitHash := ascii "0a1b2c3"
  gitHash_hex := by decide

def localhost : DottedDecimal where
  bytes := ascii "127.0.0.1"
  letters := by decide

def userPass : Account where
  user := ascii "u"
  passwd := ascii "p"
  user_nonempty := by decide
  user_no_colon := by decide
  user_no_nul := by decide
  passwd_nonempty := by decide
  passwd_no_nul := by decide
  short := by decide

def mountA : MountName where
  bytes := ascii "A"
  nonempty := by decide
  no_space := by decide
  no_semicolon := by decide
  no_carriageReturn := by decide
  no_lineFeed := by decide
  no_nul := by decide

def strA : SourceLine mountA where
  bytes := ascii "STR;A;A;RTCM 3.2;GPS"
  begins := by decide
  fields := by decide +kernel
  no_carriageReturn := by decide
  no_lineFeed := by decide
  no_nul := by decide

/-- The tables after the server registers on descriptor 5. -/
def registeredA : NtripCaster where
  mountPointInfos := [(mountA.fields userPass).toRecord 5]
  ntripStrList := [strA.bytes ++ crlf]

theorem strA_plain : ¬ ascii "Authorization: Basic" <:+: strA.bytes := by
  decide +kernel

theorem sendFormatted_postA :
    sendFormatted ((mountA.server strA userPass localhost 8090).request release) =
      some ((mountA.server strA userPass localhost 8090).request release) :=
  sendFormatted_eq_some.mpr ⟨rfl, by decide +kernel⟩

theorem sendFormatted_getA :
    sendFormatted ((mountA.client userPass).request release) =
      some ((mountA.client userPass).request release) :=
  sendFormatted_eq_some.mpr ⟨rfl, by decide +kernel⟩

theorem parseData_postA :
    parseData .empty (fun _ => true) 5
        ((mountA.server strA userPass localhost 8090).request release) =
      ⟨0, registeredA, [⟨.serverConnectRequest, 5, okLine, true⟩]⟩ := by
  decide +kernel

/-! ## Soundness -/

/-- Without the header's name in its source-table string, a server's request
registers its own mount point and account. -/
theorem fields_of_postReads_server {build : Build} {name : MountName} {account : Account}
    {str : SourceLine name} {ip : DottedDecimal} {port : Int}
    (plain : ¬ ascii "Authorization: Basic" <:+: str.bytes) {infos : List MountPointInformation}
    {fields : RequestFields} {ntripStr : Bytes}
    (reads : PostReads infos ((name.server str account ip port).request build) fields ntripStr) :
    fields = name.fields account := by
  rcases (postReads_server_iff build name account str ip port infos fields ntripStr).mp reads with
    ⟨unused, _, read, same, _, _⟩
  by_cases occurs : ascii "POST" <:+: str.bytes
  · exact ((serverLine_str_of_method name account str unused occurs fields).mp ⟨read, same⟩).2
  · rw [serverLine_str name account str occurs plain] at read
    exact (Except.ok.inj read).symm

/-- A client's request that grows a record is read to that record's account. -/
theorem matches_of_grown {build : Build} {name : MountName} {account : Account}
    {caster : NtripCaster} {outcomes : SendOutcomes} {clientFd : Fd}
    {before after : List MountPointInformation} {info : MountPointInformation}
    (present : caster.mountPointInfos = before ++ info :: after)
    (admitted : (parseData caster outcomes clientFd
      ((name.client account).request build)).caster.mountPointInfos =
        before ++ info.addClient clientFd :: after) :
    (name.fields account).Matches info := by
  have get := dispatch_client build name account
  by_cases negative : (parseData caster outcomes clientFd
      ((name.client account).request build)).ret < 0
  · rw [parseData_of_neg negative, present] at admitted
    have same := (List.cons.inj (List.append_cancel_left admitted)).1
    exact absurd same.symm (info.addClient_ne clientFd)
  · have zero : (parseData caster outcomes clientFd
        ((name.client account).request build)).ret = 0 := by
      rw [parseData_ret_eq_zero_iff, ← parseData_ret_neg_iff]
      exact negative
    rcases parseData_of_get get zero with
      ⟨read, before', info', after', reads, split, good, _, _, result⟩
    have fields := (getReads_client_iff build name account _).mp ⟨read, reads, rfl⟩
    rw [result, NtripCaster.withInfos_mountPointInfos] at admitted
    have same := addClient_split_unique (present.symm.trans split) admitted.symm
    rw [← same, ← fields.2]
    exact good

/-- A client that is appended to the record which a server's request made was
configured with that server's mount point, user and password.  The record may
have changed its clients in between, and the two programs may come from
different builds. -/
theorem credential_soundness (serverBuild clientBuild : Build) (name other : MountName)
    (account login : Account) (str : SourceLine name) (ip : DottedDecimal) (port : Int)
    (plain : ¬ ascii "Authorization: Basic" <:+: str.bytes)
    {caster : NtripCaster} {serverOutcomes : SendOutcomes} {serverFd : Fd} {post : Bytes}
    (postSent : sendFormatted ((name.server str account ip port).request serverBuild) = some post)
    (registered : (parseData caster serverOutcomes serverFd post).ret = 0)
    {record : MountPointInformation}
    (appended : (parseData caster serverOutcomes serverFd post).caster.mountPointInfos =
      caster.mountPointInfos ++ [record])
    {later : NtripCaster} {before after : List MountPointInformation}
    {info : MountPointInformation} (present : later.mountPointInfos = before ++ info :: after)
    (still : info.SameAccount record)
    {clientOutcomes : SendOutcomes} {clientFd : Fd} {get : Bytes}
    (getSent : sendFormatted ((other.client login).request clientBuild) = some get)
    (admitted : (parseData later clientOutcomes clientFd get).caster.mountPointInfos =
      before ++ info.addClient clientFd :: after) :
    other.bytes = name.bytes ∧ login.user = account.user ∧ login.passwd = account.passwd := by
  rcases sendFormatted_eq_some.mp postSent with ⟨rfl, _⟩
  rcases sendFormatted_eq_some.mp getSent with ⟨rfl, _⟩
  rcases parseData_of_post (dispatch_server serverBuild _) registered with
    ⟨fields, ntripStr, reads, result⟩
  have server : fields = name.fields account := fields_of_postReads_server plain reads
  rw [result, NtripCaster.register_mountPointInfos] at appended
  have made : record = fields.toRecord serverFd :=
    (List.cons.inj (List.append_cancel_left appended)).1.symm
  have recorded : (name.fields account).Matches info := by
    rw [made, server] at still
    exact ⟨still.1.symm, still.2.1.symm, still.2.2.symm⟩
  exact account_of_fields (fields_of_matches (matches_of_grown present admitted) recorded)

theorem credential_soundness_of_userPass :
    (parseData registeredA (fun _ => true) 6 ((mountA.client userPass).request release)).ret = 0 ∧
      mountA.bytes = mountA.bytes ∧ userPass.user = userPass.user ∧
        userPass.passwd = userPass.passwd := by
  have got : parseData registeredA (fun _ => true) 6 ((mountA.client userPass).request release) =
      ⟨0, registeredA.withInfos [((mountA.fields userPass).toRecord 5).addClient 6],
        [⟨.clientConnectRequest, 6, okLine, true⟩]⟩ := by
    decide +kernel
  refine ⟨by rw [got], ?_⟩
  have present : registeredA.mountPointInfos =
      [] ++ (mountA.fields userPass).toRecord 5 :: [] := rfl
  exact credential_soundness release release mountA mountA userPass userPass strA localhost 8090
    strA_plain sendFormatted_postA (by rw [parseData_postA]) (by rw [parseData_postA]; rfl) present
    ⟨rfl, rfl, rfl⟩ sendFormatted_getA (by rw [got]; rfl)

/-! ## Completeness -/

section Completeness

variable (serverBuild clientBuild : Build) (name : MountName) (account : Account)
  (str : SourceLine name)

/-- No line of either request says more than the program that formatted it
meant.  Neither token contains its method's name; a source-table string that
contains "POST" names the mount point between its first slash and the next
space; and one that does not but contains the header's name ends in a word
that decodes to the account. -/
structure Unambiguous : Prop where
  serverToken : ¬ ascii "POST" <:+: account.token serverBuild
  clientToken : ¬ ascii "GET" <:+: account.token clientBuild
  method : ascii "POST" <:+: str.bytes →
    ∃ front rest, str.bytes = front ++ slash :: (name.bytes ++ space :: rest) ∧ slash ∉ front
  authorization : ¬ ascii "POST" <:+: str.bytes → ascii "Authorization: Basic" <:+: str.bytes →
    ∀ front word, str.bytes = front ++ space :: word → space ∉ word →
      base64Decode word = base64Decode (account.token serverBuild)

/-- The server's request registers its mount point, and the client's request
afterwards puts the client into that record. -/
def LoginSucceeds (caster : NtripCaster) (serverFd clientFd : Fd) (post get : Bytes) : Prop :=
  let posted := parseData caster (fun _ => true) serverFd post
  let got := parseData posted.caster (fun _ => true) clientFd get
  ∃ record, posted.ret = 0 ∧ record.mountpoint = name.bytes ∧ record.serverFd = serverFd ∧
    posted.caster.mountPointInfos = caster.mountPointInfos ++ [record] ∧
    got.ret = 0 ∧
    got.caster.mountPointInfos = caster.mountPointInfos ++ [record.addClient clientFd]

/-- What the source-table line must be for the request to be read to its own
account. -/
theorem serverLine_str_iff {infos : List MountPointInformation}
    (unused : name.bytes ∉ mountNames infos) :
    serverLine infos (name.fields account) (headerLine strName str.bytes) =
        .ok (name.fields account) ↔
      (ascii "POST" <:+: str.bytes →
        ∃ front rest, str.bytes = front ++ slash :: (name.bytes ++ space :: rest) ∧
          slash ∉ front) ∧
      (¬ ascii "POST" <:+: str.bytes → ascii "Authorization: Basic" <:+: str.bytes →
        ∀ front word, str.bytes = front ++ space :: word → space ∉ word →
          base64Decode word = base64Decode (account.token serverBuild)) := by
  by_cases method : ascii "POST" <:+: str.bytes
  · have line := serverLine_str_of_method name account str unused method (name.fields account)
    have same : (name.fields account).mountPoint = name.bytes := rfl
    simp only [same, and_true] at line
    rw [line]
    exact ⟨fun parts => ⟨fun _ => parts, fun other => absurd method other⟩,
      fun parts => parts.1 method⟩
  · by_cases authorization : ascii "Authorization: Basic" <:+: str.bytes
    · rw [serverLine_str_of_authorization name account str method authorization,
        base64Decode_token]
      have reads : ∀ front word, str.bytes = front ++ space :: word → space ∉ word → ∀ read,
          readCredentials (headerLine strName str.bytes) = some read ↔
            base64Decode word = some (read.user ++ colon :: read.passwd) ∧ colon ∉ read.user := by
        intro front word shape fresh read
        refine readCredentials_headerLine_iff ⟨strName ++ space :: front, by simp [shape]⟩ fresh ?_
        intro member
        apply str.no_carriageReturn
        rw [shape]
        exact List.mem_append_right front (List.mem_cons_of_mem space member)
      have blank : space ∈ str.bytes := authorization.mem (by decide)
      rcases exists_lastWord blank with ⟨front, word, shape, fresh⟩
      constructor
      · rintro ⟨read, found, same⟩
        refine ⟨fun occurs => absurd occurs method, ?_⟩
        intro _ _ front word shape fresh
        have user : account.user = read.user := congrArg RequestFields.user same
        have passwd : account.storedPasswd = read.passwd := congrArg RequestFields.passwd same
        rw [user, passwd]
        exact ((reads front word shape fresh read).mp found).1
      · rintro ⟨_, decodes⟩
        refine ⟨⟨account.user, account.storedPasswd⟩, ?_, rfl⟩
        exact (reads front word shape fresh _).mpr
          ⟨decodes method authorization front word shape fresh, account.user_no_colon⟩
    · exact iff_of_true (serverLine_str name account str method authorization)
        ⟨fun occurs => absurd occurs method, fun _ occurs => absurd occurs authorization⟩

variable {serverBuild clientBuild name account str} {ip : DottedDecimal} {port : Int}
  {caster : NtripCaster} {serverFd clientFd : Fd}

theorem unambiguous_of_loginSucceeds (unused : name.bytes ∉ mountNames caster.mountPointInfos)
    (login : LoginSucceeds name caster serverFd clientFd
      ((name.server str account ip port).request serverBuild)
      ((name.client account).request clientBuild)) :
    Unambiguous serverBuild clientBuild name account str := by
  rcases login with ⟨record, registered, _, _, appended, accepted, admitted⟩
  rcases parseData_of_post (dispatch_server serverBuild _) registered with
    ⟨fields, ntripStr, reads, result⟩
  rcases parseData_of_get (dispatch_client clientBuild name account) accepted with
    ⟨read, _, _, _, clientReads, _⟩
  have client := (getReads_client_iff clientBuild name account _).mp ⟨read, clientReads, rfl⟩
  have recorded : (name.fields account).Matches record := matches_of_grown appended admitted
  rw [result, NtripCaster.register_mountPointInfos] at appended
  have made : record = fields.toRecord serverFd :=
    (List.cons.inj (List.append_cancel_left appended)).1.symm
  have own : fields = name.fields account :=
    fields_of_matches (made ▸ (⟨rfl, rfl, rfl⟩ : fields.Matches (fields.toRecord serverFd)))
      recorded
  rcases (postReads_server_iff serverBuild name account str ip port _ fields ntripStr).mp reads with
    ⟨_, token, line, _, _, _⟩
  rw [own] at line
  have parts := (serverLine_str_iff serverBuild name account str unused).mp line
  exact ⟨token, client.1, parts.1, parts.2⟩

theorem loginSucceeds_of_unambiguous (unused : name.bytes ∉ mountNames caster.mountPointInfos)
    (clear : Unambiguous serverBuild clientBuild name account str) :
    LoginSucceeds name caster serverFd clientFd
      ((name.server str account ip port).request serverBuild)
      ((name.client account).request clientBuild) := by
  have line := (serverLine_str_iff serverBuild name account str unused).mpr
    ⟨clear.method, clear.authorization⟩
  have reads := (postReads_server_iff serverBuild name account str ip port caster.mountPointInfos
    (name.fields account) (str.bytes ++ crlf)).mpr
      ⟨unused, clear.serverToken, line, rfl, fields_complete name account, rfl⟩
  have post := dispatch_server serverBuild (name.server str account ip port)
  have registered : (parseData caster (fun _ => true) serverFd
      ((name.server str account ip port).request serverBuild)).ret = 0 := by
    rw [parseData_ret_eq_zero_iff, Refused, post]
    exact fun refusal => refusal ⟨⟨_, _, reads⟩, rfl⟩
  rcases parseData_of_post post registered with ⟨fields, ntripStr, made, result⟩
  have own : fields = name.fields account :=
    Except.ok.inj (made.2.1.symm.trans reads.2.1)
  rw [own] at result
  have grown : (parseData caster (fun _ => true) serverFd
      ((name.server str account ip port).request serverBuild)).caster.mountPointInfos =
        caster.mountPointInfos ++ [(name.fields account).toRecord serverFd] := by
    rw [result, NtripCaster.register_mountPointInfos]
  refine ⟨(name.fields account).toRecord serverFd, registered, rfl, rfl, grown, ?_⟩
  generalize (parseData caster (fun _ => true) serverFd
    ((name.server str account ip port).request serverBuild)).caster = posted at grown
  have get := dispatch_client clientBuild name account
  rcases (getReads_client_iff clientBuild name account (name.fields account)).mpr
    ⟨clear.clientToken, rfl⟩ with ⟨read, clientReads, client⟩
  have accepted : (parseData posted (fun _ => true) clientFd
      ((name.client account).request clientBuild)).ret = 0 := by
    rw [parseData_ret_eq_zero_iff, Refused, get]
    refine fun refusal => refusal ⟨read, clientReads, 0, ?_, rfl⟩
    apply List.length_pos_of_mem
    rw [matchingRecords, List.mem_filter, grown, client]
    exact ⟨List.mem_append_right _ List.mem_cons_self,
      decide_eq_true (⟨rfl, rfl, rfl⟩ : (name.fields account).Matches _)⟩
  refine ⟨accepted, ?_⟩
  rcases parseData_of_get get accepted with
    ⟨other, before, info, after, otherReads, split, good, _, _, admitted⟩
  have same := ((getReads_client_iff clientBuild name account _).mp ⟨other, otherReads, rfl⟩).2
  rw [same] at good
  have fresh : info ∉ caster.mountPointInfos := by
    intro member
    apply unused
    rw [show name.bytes = info.mountpoint from good.1]
    exact List.mem_map_of_mem member
  rcases last_of_append_singleton (grown.symm.trans split) fresh with ⟨rfl, rfl, rfl⟩
  rw [admitted, NtripCaster.withInfos_mountPointInfos]

/-- A server and a client that are configured alike meet in the caster
exactly when nothing in their requests is ambiguous. -/
theorem login_iff (serverBuild clientBuild : Build) (name : MountName) (account : Account)
    (str : SourceLine name) (ip : DottedDecimal) (port : Int)
    (unused : name.bytes ∉ mountNames caster.mountPointInfos) {post get : Bytes}
    (postSent : sendFormatted ((name.server str account ip port).request serverBuild) = some post)
    (getSent : sendFormatted ((name.client account).request clientBuild) = some get) :
    LoginSucceeds name caster serverFd clientFd post get ↔
      Unambiguous serverBuild clientBuild name account str := by
  rcases sendFormatted_eq_some.mp postSent with ⟨rfl, _⟩
  rcases sendFormatted_eq_some.mp getSent with ⟨rfl, _⟩
  exact ⟨unambiguous_of_loginSucceeds unused, loginSucceeds_of_unambiguous unused⟩

end Completeness

theorem loginSucceeds_of_userPass :
    LoginSucceeds mountA .empty 5 6 ((mountA.server strA userPass localhost 8090).request release)
      ((mountA.client userPass).request release) := by
  refine (login_iff release release mountA userPass strA localhost 8090 (by decide)
    sendFormatted_postA sendFormatted_getA).mpr ?_
  exact ⟨by decide +kernel, by decide +kernel, fun occurs => absurd occurs (by decide +kernel),
    fun _ occurs => absurd occurs strA_plain⟩

def mountPost : MountName where
  bytes := ascii "POST1"
  nonempty := by decide
  no_space := by decide
  no_semicolon := by decide
  no_carriageReturn := by decide
  no_lineFeed := by decide
  no_nul := by decide

def strPost : SourceLine mountPost where
  bytes := ascii "STR;POST1;POST1;RTCM 3.2;GPS"
  begins := by decide
  fields := by decide +kernel
  no_carriageReturn := by decide
  no_lineFeed := by decide
  no_nul := by decide

/-- A mount point whose name contains the method's is never registered. -/
theorem login_fails :
    ¬ ∀ (serverBuild clientBuild : Build) (name : MountName) (account : Account)
      (str : SourceLine name) (ip : DottedDecimal) (port : Int) (caster : NtripCaster)
      (serverFd clientFd : Fd) (post get : Bytes), serverFd ≠ clientFd →
        name.bytes ∉ mountNames caster.mountPointInfos →
        sendFormatted ((name.server str account ip port).request serverBuild) = some post →
        sendFormatted ((name.client account).request clientBuild) = some get →
        LoginSucceeds name caster serverFd clientFd post get := by
  intro always
  rcases always release release mountPost userPass strPost localhost 8090 .empty 5 6 _ _
    (by decide) (by decide) (sendFormatted_eq_some.mpr ⟨rfl, by decide +kernel⟩)
    (sendFormatted_eq_some.mpr ⟨rfl, by decide +kernel⟩) with ⟨_, registered, _⟩
  revert registered
  decide +kernel

end Ntrip
