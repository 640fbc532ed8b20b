import Ntrip.Peers.Recognition

namespace Ntrip

/-!
# What the handlers make of the peers' requests

The lines of each request, how `ParseData` dispatches it, and the account and
mount point that the header loops end with.
-/

open Sequence

/-! ## The lines -/

/-- What `ParseData` splits a text into that ends inside a line. -/
theorem requestLines_joinLines_append (lines : List Bytes) {tail : Bytes}
    (fresh : ∀ line ∈ lines, carriageReturn ∉ line) (last : ¬ crlf <:+: tail) :
    requestLines (joinLines crlf lines ++ tail) =
      (lines.filter (· ≠ [])).map (· ++ crlf) ++ splitTail tail crlf true :=
  stringSplit_joinLines carriageReturn [lineFeed] true lines tail fresh last

theorem requestLines_joinLines (lines : List Bytes) (fresh : ∀ line ∈ lines, carriageReturn ∉ line) :
    requestLines (joinLines crlf lines) = (lines.filter (· ≠ [])).map (· ++ crlf) := by
  have split := requestLines_joinLines_append lines fresh (by decide : ¬ crlf <:+: [])
  rw [List.append_nil] at split
  exact split.trans (List.append_nil _)

theorem methodLine_eq (front : Bytes) {method : String} (mountPoint : Bytes)
    (shape : front = ascii method ++ [space, slash]) :
    front ++ mountPoint ++ ascii " HTTP/1.1" ++ crlf = methodLine method mountPoint := by
  have version : ascii " HTTP/1.1" = space :: ascii "HTTP/1.1" := by decide
  simp [methodLine, shape, version]

theorem headerLine_eq (front : Bytes) {name : Bytes} (value : Bytes) (shape : front = name ++ [space]) :
    front ++ value ++ crlf = headerLine name value := by
  have finish : crlf = carriageReturn :: [lineFeed] := by decide
  simp [headerLine, shape, finish]

/-- The letters of a request that come neither from its mount point nor from
its source-table string. -/
def plainAlphabet : Bytes := tokenAlphabet ++ ascii " :-."

theorem version_subset (build : Build) : build.version ⊆ plainAlphabet := by
  have letters : ascii "." ++ lowerHex ⊆ plainAlphabet := by decide
  exact fun _ member => letters (mem_version member)

theorem decimal_subset (number : Int) : decimal number ⊆ plainAlphabet := by
  have letters : ascii "-0123456789" ⊆ plainAlphabet := by decide
  exact fun _ member => letters (mem_decimal member)

section Requests

variable (build : Build) (name : MountName) (account : Account)

theorem carriageReturn_notMem_token : carriageReturn ∉ account.token build :=
  not_mem_token (by decide)

theorem space_notMem_token : space ∉ account.token build :=
  not_mem_token (by decide)

/-- The lines of a client's request. -/
def clientLines : List Bytes :=
  [ascii "GET /" ++ name.bytes ++ ascii " HTTP/1.1", ascii "User-Agent: " ++ kClientAgent build,
    ascii "Authorization: Basic " ++ account.token build, []]

theorem formatLines_client :
    (name.client account).formatLines build = clientLines build name account := by
  simp only [NtripClient.formatLines, MountName.client, cStr_token, cStr_of_notMem name.no_nul,
    clientLines]

theorem token_subset : account.token build ⊆ plainAlphabet :=
  fun _ member => List.mem_append_left _ (mem_token member)

theorem kClientAgent_subset : kClientAgent build ⊆ plainAlphabet :=
  List.append_subset.mpr ⟨by decide, version_subset build⟩

theorem kServerAgent_subset : kServerAgent build ⊆ plainAlphabet :=
  List.append_subset.mpr ⟨by decide, version_subset build⟩

theorem mem_clientLines {line : Bytes} (listed : line ∈ clientLines build name account)
    {letter : UInt8} (member : letter ∈ line) : letter ∈ name.bytes ∨ letter ∈ plainAlphabet := by
  have method : ascii "GET /" ⊆ plainAlphabet := by decide
  have version : ascii " HTTP/1.1" ⊆ plainAlphabet := by decide
  have agentName : ascii "User-Agent: " ⊆ plainAlphabet := by decide
  have tokenName : ascii "Authorization: Basic " ⊆ plainAlphabet := by decide
  simp only [clientLines, List.mem_cons, List.not_mem_nil, or_false] at listed
  rcases listed with rfl | rfl | rfl | rfl
  · rcases List.mem_append.mp member with front | back
    · exact (List.mem_append.mp front).symm.imp_right (fun fixed => method fixed)
    · exact Or.inr (version back)
  · exact Or.inr (List.append_subset.mpr ⟨agentName, kClientAgent_subset build⟩ member)
  · exact Or.inr (List.append_subset.mpr ⟨tokenName, token_subset build account⟩ member)
  · exact absurd member List.not_mem_nil

/-- The lines of a client's request as the caster splits them. -/
theorem requestLines_client :
    requestLines ((name.client account).request build) =
      [methodLine "GET" name.bytes, agentLine (kClientAgent build),
        headerLine authorizationName (account.token build)] := by
  rw [NtripClient.request, formatLines_client, requestLines_joinLines,
    ← methodLine_eq (ascii "GET /") name.bytes (by decide),
    ← headerLine_eq (ascii "Authorization: Basic ") (account.token build) (by decide)]
  · rfl
  · intro line listed member
    rcases mem_clientLines build name account listed member with inName | plain
    · exact name.no_carriageReturn inName
    · exact absurd plain (by decide)

variable (str : SourceLine name) (ip : DottedDecimal) (port : Int)

/-- The lines of a server's request before the source-table string. -/
def openingLines : List Bytes :=
  [ascii "POST /" ++ name.bytes ++ ascii " HTTP/1.1",
    ascii "Host: " ++ ip.bytes ++ ascii ":" ++ decimal port, ascii "Ntrip-Version: Ntrip/2.0",
    ascii "User-Agent: " ++ kServerAgent build,
    ascii "Authorization: Basic " ++ account.token build]

/-- The line with the source-table string. -/
def strLine : Bytes :=
  ascii "Ntrip-STR: " ++ str.bytes

/-- The lines behind it. -/
def closingLines : List Bytes :=
  [ascii "Connection: close", ascii "Transfer-Encoding: chunked"]

theorem formatLines_server :
    (name.server str account ip port).formatLines build =
      openingLines build name account ip port ++ strLine name str :: closingLines := by
  have address : cStr ip.bytes = ip.bytes :=
    cStr_of_notMem (fun member => absurd (ip.letters member) (by decide))
  simp only [NtripServer.formatLines, MountName.server, cStr_token, address,
    cStr_of_notMem name.no_nul, cStr_of_notMem str.no_nul]
  rfl

theorem mem_openingLines {line : Bytes} (listed : line ∈ openingLines build name account ip port)
    {letter : UInt8} (member : letter ∈ line) : letter ∈ name.bytes ∨ letter ∈ plainAlphabet := by
  have method : ascii "POST /" ⊆ plainAlphabet := by decide
  have version : ascii " HTTP/1.1" ⊆ plainAlphabet := by decide
  have host : ascii "Host: " ⊆ plainAlphabet := by decide
  have digits : ascii "0123456789." ⊆ plainAlphabet := by decide
  have separator : ascii ":" ⊆ plainAlphabet := by decide
  have versionLine : ascii "Ntrip-Version: Ntrip/2.0" ⊆ plainAlphabet := by decide
  have agentName : ascii "User-Agent: " ⊆ plainAlphabet := by decide
  have tokenName : ascii "Authorization: Basic " ⊆ plainAlphabet := by decide
  simp only [openingLines, List.mem_cons, List.not_mem_nil, or_false] at listed
  rcases listed with rfl | rfl | rfl | rfl | rfl
  · rcases List.mem_append.mp member with front | back
    · exact (List.mem_append.mp front).symm.imp_right (fun fixed => method fixed)
    · exact Or.inr (version back)
  · refine Or.inr (List.append_subset.mpr ⟨?_, decimal_subset port⟩ member)
    exact List.append_subset.mpr
      ⟨List.append_subset.mpr ⟨host, fun _ digit => digits (ip.letters digit)⟩, separator⟩
  · exact Or.inr (versionLine member)
  · exact Or.inr (List.append_subset.mpr ⟨agentName, kServerAgent_subset build⟩ member)
  · exact Or.inr (List.append_subset.mpr ⟨tokenName, token_subset build account⟩ member)

/-- A letter that the mount point and the fixed texts lack is in no opening
line. -/
theorem notMem_openingLines {letter : UInt8} (notName : letter ∉ name.bytes)
    (notPlain : letter ∉ plainAlphabet) :
    ∀ line ∈ openingLines build name account ip port, letter ∉ line := by
  intro line listed member
  rcases mem_openingLines build name account ip port listed member with inName | plain
  · exact notName inName
  · exact notPlain plain

/-- The opening lines as the caster splits them. -/
theorem map_openingLines :
    ((openingLines build name account ip port).filter (· ≠ [])).map (· ++ crlf) =
      [methodLine "POST" name.bytes, hostLine ip port, ascii "Ntrip-Version: Ntrip/2.0" ++ crlf,
        agentLine (kServerAgent build), headerLine authorizationName (account.token build)] := by
  rw [← methodLine_eq (ascii "POST /") name.bytes (by decide),
    ← headerLine_eq (ascii "Authorization: Basic ") (account.token build) (by decide)]
  rfl

theorem strLine_crlf : strLine name str ++ crlf = headerLine strName str.bytes :=
  headerLine_eq (ascii "Ntrip-STR: ") str.bytes (by decide)

theorem carriageReturn_notMem_strLine : carriageReturn ∉ strLine name str := by
  rw [strLine, List.mem_append, not_or]
  exact ⟨by decide, str.no_carriageReturn⟩

/-- The lines of a server's request as the caster splits them. -/
theorem requestLines_server :
    requestLines ((name.server str account ip port).request build) =
      [methodLine "POST" name.bytes, hostLine ip port, ascii "Ntrip-Version: Ntrip/2.0" ++ crlf,
        agentLine (kServerAgent build), headerLine authorizationName (account.token build),
        headerLine strName str.bytes, ascii "Connection: close" ++ crlf,
        ascii "Transfer-Encoding: chunked" ++ crlf] := by
  rw [NtripServer.request, formatLines_server, requestLines_joinLines, List.filter_append,
    List.map_append, map_openingLines, ← strLine_crlf]
  · rfl
  · refine List.forall_mem_append.mpr ⟨?_, ?_⟩
    · exact notMem_openingLines build name account ip port name.no_carriageReturn (by decide)
    · exact List.forall_mem_cons.mpr ⟨carriageReturn_notMem_strLine name str, by decide⟩

/-! ## Dispatch -/

/-- A literal without line ends is in a request when it is in one of its
lines. -/
theorem infix_joinLines_iff {pattern : Bytes} (lines : List Bytes) (nonempty : pattern ≠ [])
    (noReturn : carriageReturn ∉ pattern) (noFeed : lineFeed ∉ pattern) :
    pattern <:+: joinLines crlf lines ↔ ∃ line ∈ lines, pattern <:+: line := by
  induction lines with
  | nil => simpa [joinLines] using nonempty
  | cons line rest inductionHypothesis =>
      have shape : joinLines crlf (line :: rest) =
          line ++ carriageReturn :: ([] ++ lineFeed :: joinLines crlf rest) := by
        have finish : crlf = carriageReturn :: [lineFeed] := by decide
        simp [joinLines, finish]
      rw [shape, infix_letter_iff noReturn, infix_letter_iff noFeed, inductionHypothesis,
        List.exists_mem_cons_iff, List.infix_nil]
      simp only [nonempty, false_or]

theorem mentions_joinLines_iff {literal : String} (lines : List Bytes)
    (nonempty : ascii literal ≠ []) (noReturn : carriageReturn ∉ ascii literal)
    (noFeed : lineFeed ∉ ascii literal) :
    mentions (joinLines crlf lines) literal = true ↔
      ∃ line ∈ lines, ascii literal <:+: line := by
  rw [mentions_iff, infix_joinLines_iff lines nonempty noReturn noFeed]

/-- Whatever a server is configured with, its request is taken for a `POST`. -/
theorem dispatch_server (server : NtripServer) : dispatch (server.request build) = .post := by
  have first : ascii "POST /" ++ cStr server.mountpoint ++ ascii " HTTP/1.1" ∈
      server.formatLines build := List.mem_cons_self
  have post : mentions (server.request build) "POST /" = true := by
    rw [NtripServer.request, mentions_joinLines_iff _ (by decide) (by decide) (by decide)]
    exact ⟨_, first, [], cStr server.mountpoint ++ ascii " HTTP/1.1", by simp⟩
  have version : mentions (server.request build) "HTTP/1.1" = true := by
    rw [NtripServer.request, mentions_joinLines_iff _ (by decide) (by decide) (by decide)]
    exact ⟨_, first, List.infix_append_of_infix_right (by decide)⟩
  simp [dispatch, post, version]

theorem post_eq : ascii "POST /" = ascii "POST" ++ space :: [slash] := by
  decide

theorem post_not_infix_getLine {mountPoint : Bytes} (noSpace : space ∉ mountPoint) :
    ¬ ascii "POST /" <:+: ascii "GET /" ++ mountPoint ++ ascii " HTTP/1.1" := by
  have shape : ascii "GET /" ++ mountPoint ++ ascii " HTTP/1.1" =
      ascii "GET" ++ space :: ((slash :: mountPoint) ++ space :: ascii "HTTP/1.1") := by
    have method : ascii "GET /" = ascii "GET" ++ [space, slash] := by decide
    have version : ascii " HTTP/1.1" = space :: ascii "HTTP/1.1" := by decide
    simp [method, version]
  have inPath : ¬ ascii "POST" ++ space :: [slash] <:+: slash :: mountPoint :=
    not_infix_of_notMem (by decide) (space_notMem_slash_cons noSpace)
  rw [post_eq, shape, infix_aligned_iff (by decide) (by decide),
    infix_aligned_iff (by decide) (by decide)]
  rintro (inMethod | (path | version | ⟨_, starts⟩) | ⟨ends, _⟩)
  · exact absurd inMethod (by decide)
  · exact inPath path
  · exact absurd version (by decide)
  · exact absurd starts (by decide)
  · exact absurd ends (by decide)

theorem post_not_infix_tokenLine {token : Bytes} (noSpace : space ∉ token) :
    ¬ ascii "POST /" <:+: ascii "Authorization: Basic " ++ token := by
  have shape : ascii "Authorization: Basic " ++ token =
      ascii "Authorization: Basic" ++ space :: token := by
    have header : ascii "Authorization: Basic " = ascii "Authorization: Basic" ++ [space] := by decide
    simp [header]
  rw [post_eq, shape, infix_aligned_iff (by decide) (by decide)]
  rintro (inName | inToken | ⟨ends, _⟩)
  · exact absurd inName (by decide)
  · exact not_infix_of_notMem (by decide) noSpace inToken
  · exact absurd ends (by decide)

/-- A text with a client's request line and without a server's is taken for a
`GET`. -/
theorem dispatch_of_getLine {lines : List Bytes} {mountPoint : Bytes}
    (listed : ascii "GET /" ++ mountPoint ++ ascii " HTTP/1.1" ∈ lines)
    (noPost : ∀ line ∈ lines, ¬ ascii "POST /" <:+: line) :
    dispatch (joinLines crlf lines) = .get := by
  have get : mentions (joinLines crlf lines) "GET /" = true := by
    rw [mentions_joinLines_iff _ (by decide) (by decide) (by decide)]
    exact ⟨_, listed, [], mountPoint ++ ascii " HTTP/1.1", by simp⟩
  have version : mentions (joinLines crlf lines) "HTTP/1.1" = true := by
    rw [mentions_joinLines_iff _ (by decide) (by decide) (by decide)]
    exact ⟨_, listed, List.infix_append_of_infix_right (by decide)⟩
  have post : mentions (joinLines crlf lines) "POST /" = false := by
    rw [← Bool.not_eq_true, mentions_joinLines_iff _ (by decide) (by decide) (by decide)]
    rintro ⟨line, member, occurs⟩
    exact noPost line member occurs
  simp [dispatch, get, post, version]

/-- A well-formed client's request is taken for a `GET`. -/
theorem dispatch_client : dispatch ((name.client account).request build) = .get := by
  have agent : ¬ ascii "POST /" <:+: agentLine (kClientAgent build) := by
    have letter : (79 : UInt8) ∈ ascii "POST /" := by decide
    exact not_infix_of_notMem letter
      (fun member => absurd (agentLine_subset "NTRIPClient" build member) (by decide))
  rw [NtripClient.request, formatLines_client]
  apply dispatch_of_getLine List.mem_cons_self
  simp only [List.forall_mem_cons]
  refine ⟨post_not_infix_getLine name.no_space, ?_,
    post_not_infix_tokenLine (space_notMem_token build account), by decide, by simp⟩
  exact fun user => agent (List.infix_append_of_infix_left user)

/-! ## The token line -/

theorem mentions_tokenLine_method_iff {method : String} (noSpace : space ∉ ascii method)
    (noReturn : carriageReturn ∉ ascii method) (noFeed : ¬ ascii method <:+: [lineFeed])
    (notName : ¬ ascii method <:+: authorizationName) :
    mentions (headerLine authorizationName (account.token build)) method = true ↔
      ascii method <:+: account.token build := by
  rw [mentions_iff, infix_headerLine_iff _ _ noSpace noReturn noFeed]
  simp only [notName, false_or]

theorem mentions_tokenLine :
    mentions (headerLine authorizationName (account.token build)) "Authorization: Basic" = true :=
  (mentions_iff _ _).mpr (List.infix_append' [] authorizationName _)

theorem requestPath_tokenLine :
    requestPath (headerLine authorizationName (account.token build)) = none := by
  have line : headerLine authorizationName (account.token build) =
      (authorizationName ++ [space]) ++ (account.token build ++ carriageReturn :: [lineFeed]) := by
    simp [headerLine]
  have fresh : space ∉ account.token build ++ carriageReturn :: [lineFeed] := by
    rw [List.mem_append, not_or]
    exact ⟨space_notMem_token build account, by decide⟩
  rw [line, requestPath_lastWord (by decide) fresh]

theorem readCredentials_tokenLine :
    readCredentials (headerLine authorizationName (account.token build)) =
      some ⟨account.user, account.storedPasswd⟩ :=
  (readCredentials_headerLine_iff ⟨authorizationName, rfl⟩ (space_notMem_token build account)
    (carriageReturn_notMem_token build account)).mpr
      ⟨base64Decode_token build account, account.user_no_colon⟩

/-! ## A client's request -/

/-- What a well-formed request amounts to. -/
def MountName.fields : RequestFields where
  mountPoint := name.bytes
  user := account.user
  passwd := account.storedPasswd

theorem fields_complete : (name.fields account).Complete :=
  ⟨name.nonempty, account.user_nonempty, storedPasswd_nonempty account⟩

theorem clientLine_of_inert {line : Bytes} (inert : Inert "GET" line) (fields : ClientFields) :
    clientLine fields line = (fields, true) := by
  simp [clientLine, inert.method, inert.authorization]

/-- The first line leaves its mount point behind. -/
theorem clientLine_request :
    ∃ version, clientLine {} (methodLine "GET" name.bytes) =
      ({ mountPoint := name.bytes, ntripVersion1 := version }, true) := by
  have path : requestPath (methodLine "GET" name.bytes) = some name.bytes :=
    requestPath_methodLine (by decide) name.no_space
  cases version : mentions (methodLine "GET" name.bytes) "HTTP/1.0" with
  | true => exact ⟨true, by simp [clientLine, mentions_methodLine, path, version]⟩
  | false => exact ⟨false, by simp [clientLine, mentions_methodLine, path, version]⟩

theorem readClientLines_continue {fields next : ClientFields} {line : Bytes} (rest : List Bytes)
    (round : clientLine fields line = (next, true)) :
    readClientLines fields (line :: rest) = readClientLines next rest := by
  rw [readClientLines, round]

theorem readClientLines_break {fields next : ClientFields} {line : Bytes} (rest : List Bytes)
    (round : clientLine fields line = (next, false)) :
    readClientLines fields (line :: rest) = next := by
  rw [readClientLines, round]

theorem readClientLines_single (fields : ClientFields) (line : Bytes) :
    readClientLines fields [line] = (clientLine fields line).1 := by
  rw [readClientLines]
  rcases clientLine fields line with ⟨next, goesOn⟩
  cases goesOn <;> rfl

/-- A token that contains the method's name ends the loop. -/
theorem clientLine_token_of_method (occurs : ascii "GET" <:+: account.token build)
    (fields : ClientFields) :
    ∃ version, clientLine fields (headerLine authorizationName (account.token build)) =
      ({ fields with ntripVersion1 := version }, false) := by
  have method : mentions (headerLine authorizationName (account.token build)) "GET" = true :=
    (mentions_tokenLine_method_iff build account (by decide) (by decide) (by decide)
      (by decide)).mpr occurs
  have path := requestPath_tokenLine build account
  cases version : mentions (headerLine authorizationName (account.token build)) "HTTP/1.0" with
  | true => exact ⟨true, by simp [clientLine, method, path, version]⟩
  | false => exact ⟨fields.ntripVersion1, by simp [clientLine, method, path, version]⟩

/-- Any other token leaves its account behind. -/
theorem clientLine_token (clean : ¬ ascii "GET" <:+: account.token build) (fields : ClientFields) :
    clientLine fields (headerLine authorizationName (account.token build)) =
      ({ fields with user := account.user, passwd := account.storedPasswd }, true) := by
  have method : mentions (headerLine authorizationName (account.token build)) "GET" = false := by
    rw [← Bool.not_eq_true, mentions_tokenLine_method_iff build account (by decide) (by decide)
      (by decide) (by decide)]
    exact clean
  rw [clientLine, method, mentions_tokenLine, readCredentials_tokenLine]
  rfl

/-- What a client's request leaves in the variables of the handler. -/
theorem readClientLines_client :
    ∃ version, readClientLines {} (requestLines ((name.client account).request build)) =
      { toRequestFields := if ascii "GET" <:+: account.token build then
          { mountPoint := name.bytes } else name.fields account,
        ntripVersion1 := version } := by
  rcases clientLine_request name with ⟨version, request⟩
  rw [requestLines_client, readClientLines_continue _ request,
    readClientLines_continue _ (clientLine_of_inert (clientAgentLine_inert build) _)]
  by_cases occurs : ascii "GET" <:+: account.token build
  · rcases clientLine_token_of_method build account occurs
      { mountPoint := name.bytes, ntripVersion1 := version } with ⟨last, stops⟩
    rw [readClientLines_break _ stops, if_pos occurs]
    exact ⟨last, rfl⟩
  · rw [readClientLines_continue _ (clientLine_token build account occurs _), if_neg occurs]
    exact ⟨version, rfl⟩

/-- A client's request is read as its own mount point and account unless its
token contains the name of the method. -/
theorem getReads_client_iff (fields : RequestFields) :
    (∃ read, GetReads ((name.client account).request build) read ∧
        read.toRequestFields = fields) ↔
      ¬ ascii "GET" <:+: account.token build ∧ fields = name.fields account := by
  rcases readClientLines_client build name account with ⟨version, lines⟩
  constructor
  · rintro ⟨read, ⟨_, result, complete⟩, same⟩
    rw [lines] at result
    by_cases occurs : ascii "GET" <:+: account.token build
    · rw [← result, if_pos occurs] at complete
      exact absurd rfl complete.2.1
    · rw [← result, if_neg occurs] at same
      exact ⟨occurs, same.symm⟩
  · rintro ⟨clean, same⟩
    rw [if_neg clean] at lines
    exact ⟨_, ⟨dispatch_client build name account, lines, fields_complete name account⟩, same.symm⟩

end Requests

end Ntrip
