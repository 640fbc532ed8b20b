import Ntrip.Peers.Reading

namespace Ntrip

/-!
# What the caster makes of a server's request

The source-table string is the one part of a server's request that a
configuration can fill with arbitrary words, and both loops look for their
literals in it.  Everything before it is settled by the token; what the first
loop makes of it is kept as the call of `serverLine` until the end.
-/

open Sequence

/-! ## The two loops, line by line -/

theorem readServerLines_continue {infos : List MountPointInformation} {fields next : RequestFields}
    {line : Bytes} (rest : List Bytes) (round : serverLine infos fields line = .ok next) :
    readServerLines infos fields (line :: rest) = readServerLines infos next rest := by
  rw [readServerLines, round]

theorem readServerLines_refuse {infos : List MountPointInformation} {fields : RequestFields}
    {refusal : ServerRefusal} {line : Bytes} (rest : List Bytes)
    (round : serverLine infos fields line = .error refusal) :
    readServerLines infos fields (line :: rest) = .error refusal := by
  rw [readServerLines, round]

theorem serverLine_of_inert {infos : List MountPointInformation} {line : Bytes}
    (inert : Inert "POST" line) (fields : RequestFields) :
    serverLine infos fields line = .ok fields := by
  simp [serverLine, inert.method, inert.authorization]

theorem readStrLines_of_unmentioned {line : Bytes} (absent : mentions line "Ntrip-STR: " = false)
    (mountPoint ntripStr : Bytes) (rest : List Bytes) :
    readStrLines mountPoint ntripStr (line :: rest) = readStrLines mountPoint ntripStr rest := by
  simp [readStrLines, absent]

theorem readServerLines_append_inert {infos : List MountPointInformation} {extra : List Bytes}
    (inert : ∀ line ∈ extra, Inert "POST" line) (lines : List Bytes) (fields : RequestFields) :
    readServerLines infos fields (lines ++ extra) = readServerLines infos fields lines := by
  induction lines generalizing fields with
  | nil =>
      induction extra with
      | nil => rfl
      | cons line rest inductionHypothesis =>
          have parts := List.forall_mem_cons.mp inert
          rw [List.nil_append, readServerLines_continue rest (serverLine_of_inert parts.1 fields)]
          exact inductionHypothesis parts.2
  | cons line rest inductionHypothesis =>
      cases round : serverLine infos fields line with
      | error refusal =>
          rw [List.cons_append, readServerLines_refuse _ round, readServerLines_refuse _ round]
      | ok next =>
          rw [List.cons_append, readServerLines_continue _ round, readServerLines_continue _ round]
          exact inductionHypothesis next

theorem readStrLines_append_inert {extra : List Bytes} (inert : ∀ line ∈ extra, Inert "POST" line)
    (lines : List Bytes) (mountPoint ntripStr : Bytes) :
    readStrLines mountPoint ntripStr (lines ++ extra) = readStrLines mountPoint ntripStr lines := by
  induction lines generalizing ntripStr with
  | nil =>
      induction extra with
      | nil => rfl
      | cons line rest inductionHypothesis =>
          have parts := List.forall_mem_cons.mp inert
          rw [List.nil_append, readStrLines_of_unmentioned parts.1.ntripStr]
          exact inductionHypothesis parts.2
  | cons line rest inductionHypothesis =>
      simp only [List.cons_append, readStrLines, inductionHypothesis]

/-- The second loop ends with the text of one of the lines, unless none of
them looks like the header. -/
theorem readStrLines_eq_some {mountPoint ntripStr result : Bytes} {lines : List Bytes}
    (read : readStrLines mountPoint ntripStr lines = some result) :
    result = ntripStr ∨ ∃ line ∈ lines, strText line = result := by
  induction lines generalizing ntripStr with
  | nil => exact Or.inl (Option.some.inj read).symm
  | cons line rest inductionHypothesis =>
      rw [readStrLines] at read
      split_ifs at read with mentioned agrees
      · rcases inductionHypothesis read with here | ⟨later, member, text⟩
        · exact Or.inr ⟨line, List.mem_cons_self, here.symm⟩
        · exact Or.inr ⟨later, List.mem_cons_of_mem line member, text⟩
      · rcases inductionHypothesis read with same | ⟨later, member, text⟩
        · exact Or.inl same
        · exact Or.inr ⟨later, List.mem_cons_of_mem line member, text⟩

section Requests

variable (build : Build) (name : MountName) (account : Account) (str : SourceLine name)

/-- The names in use. -/
def mountNames (infos : List MountPointInformation) : List Bytes :=
  infos.map (·.mountpoint)

theorem any_mountpoint_iff (infos : List MountPointInformation) (mountPoint : Bytes) :
    infos.any (fun info => mountPoint = info.mountpoint) = true ↔ mountPoint ∈ mountNames infos := by
  rw [List.any_eq_true, mountNames, List.mem_map]
  exact exists_congr fun info => and_congr_right fun _ => decide_eq_true_iff.trans eq_comm

theorem serverLine_request {infos : List MountPointInformation}
    (unused : name.bytes ∉ mountNames infos) :
    serverLine infos {} (methodLine "POST" name.bytes) = .ok { mountPoint := name.bytes } := by
  have path : requestPath (methodLine "POST" name.bytes) = some name.bytes :=
    requestPath_methodLine (by decide) name.no_space
  rw [← any_mountpoint_iff] at unused
  rw [serverLine, mentions_methodLine, path, if_pos rfl]
  simp only [if_neg unused]

theorem serverLine_request_used {infos : List MountPointInformation}
    (used : name.bytes ∈ mountNames infos) :
    serverLine infos {} (methodLine "POST" name.bytes) = .error .mountPointUsed := by
  have path : requestPath (methodLine "POST" name.bytes) = some name.bytes :=
    requestPath_methodLine (by decide) name.no_space
  rw [← any_mountpoint_iff] at used
  rw [serverLine, mentions_methodLine, path, if_pos rfl]
  simp only [if_pos used]

theorem serverLine_token_of_method {infos : List MountPointInformation}
    (occurs : ascii "POST" <:+: account.token build) (fields : RequestFields) :
    serverLine infos fields (headerLine authorizationName (account.token build)) =
      .error .malformed := by
  have method : mentions (headerLine authorizationName (account.token build)) "POST" = true :=
    (mentions_tokenLine_method_iff build account (by decide) (by decide) (by decide)
      (by decide)).mpr occurs
  rw [serverLine, method, requestPath_tokenLine]
  rfl

theorem serverLine_token {infos : List MountPointInformation}
    (clean : ¬ ascii "POST" <:+: account.token build) (fields : RequestFields) :
    serverLine infos fields (headerLine authorizationName (account.token build)) =
      .ok { fields with user := account.user, passwd := account.storedPasswd } := by
  have method : mentions (headerLine authorizationName (account.token build)) "POST" = false := by
    rw [← Bool.not_eq_true, mentions_tokenLine_method_iff build account (by decide) (by decide)
      (by decide) (by decide)]
    exact clean
  rw [serverLine, method, mentions_tokenLine, readCredentials_tokenLine]
  rfl

variable (ip : DottedDecimal) (port : Int)

/-- The first loop comes to its end exactly when the name is free, the token
does not contain the method's name and the source-table line is read. -/
theorem readServerLines_server_iff (infos : List MountPointInformation) (fields : RequestFields) :
    readServerLines infos {}
        (requestLines ((name.server str account ip port).request build)) = .ok fields ↔
      name.bytes ∉ mountNames infos ∧ ¬ ascii "POST" <:+: account.token build ∧
        serverLine infos (name.fields account) (headerLine strName str.bytes) = .ok fields := by
  rw [requestLines_server]
  by_cases used : name.bytes ∈ mountNames infos
  · rw [readServerLines_refuse _ (serverLine_request_used name used)]
    exact iff_of_false (by simp) (fun parts => parts.1 used)
  · rw [readServerLines_continue _ (serverLine_request name used),
      readServerLines_continue _ (serverLine_of_inert (hostLine_inert ip port) _),
      readServerLines_continue _ (serverLine_of_inert versionLine_inert _),
      readServerLines_continue _ (serverLine_of_inert (serverAgentLine_inert build) _)]
    by_cases occurs : ascii "POST" <:+: account.token build
    · rw [readServerLines_refuse _ (serverLine_token_of_method build account occurs _)]
      exact iff_of_false (by simp) (fun parts => parts.2.1 occurs)
    · rw [readServerLines_continue _ (serverLine_token build account occurs _)]
      have lastLines : ∀ next, readServerLines infos next
          [ascii "Connection: close" ++ crlf, ascii "Transfer-Encoding: chunked" ++ crlf] =
            .ok next :=
        readServerLines_append_inert (List.forall_mem_cons.mpr ⟨closeLine_inert,
          List.forall_mem_singleton.mpr chunkedLine_inert⟩) []
      change readServerLines infos (name.fields account) _ = _ ↔ _
      cases round : serverLine infos (name.fields account) (headerLine strName str.bytes) with
      | error refusal =>
          rw [readServerLines_refuse _ round]
          exact iff_of_false (by simp) (fun parts => by cases parts.2.2)
      | ok next =>
          rw [readServerLines_continue _ round, lastLines]
          exact ⟨fun same => ⟨used, occurs, same⟩, fun parts => parts.2.2⟩

/-! ## The source-table string -/

/-- More than four fields, the first of them "STR" and the next two the name. -/
theorem sections_str : ∃ more, 4 < more.length + 3 ∧
    stringSplit (str.bytes ++ crlf) [semicolon] false =
      ascii "STR" :: name.bytes :: name.bytes :: more := by
  rcases str.begins with ⟨rest, shape⟩
  have text : str.bytes ++ crlf = ascii "STR" ++ semicolon ::
      (name.bytes ++ semicolon :: (name.bytes ++ semicolon :: (rest ++ crlf))) := by
    have start : ascii "STR;" = ascii "STR" ++ [semicolon] := by decide
    simp [← shape, start]
  have sections : stringSplit (str.bytes ++ crlf) [semicolon] false =
      ascii "STR" :: name.bytes :: name.bytes ::
        ((rest ++ crlf).splitOn semicolon).filter (· ≠ []) := by
    have first : semicolon ∉ ascii "STR" := by decide
    rw [stringSplit_letter, text, List.splitOn_append_cons_self_of_not_mem first,
      List.splitOn_append_cons_self_of_not_mem name.no_semicolon,
      List.splitOn_append_cons_self_of_not_mem name.no_semicolon,
      List.filter_cons_of_pos (by decide), List.filter_cons_of_pos (by simpa using name.nonempty),
      List.filter_cons_of_pos (by simpa using name.nonempty)]
  have longer := length_fields_le_append semicolon str.bytes
    (show semicolon ∉ crlf by decide)
  rw [← stringSplit_letter, ← stringSplit_letter, sections] at longer
  have count := str.fields
  rw [← stringSplit_letter] at count
  refine ⟨_, ?_, sections⟩
  simp only [List.length_cons] at longer
  omega

theorem strAgrees_str (mountPoint : Bytes) :
    strAgrees mountPoint (str.bytes ++ crlf) = decide (mountPoint = name.bytes) := by
  rcases sections_str name str with ⟨more, count, sections⟩
  have enough : (ascii "STR" :: name.bytes :: name.bytes :: more).length > 4 := count
  have second : (ascii "STR" :: name.bytes :: name.bytes :: more).getD 1 [] = name.bytes := rfl
  have third : (ascii "STR" :: name.bytes :: name.bytes :: more).getD 2 [] = name.bytes := rfl
  simp only [strAgrees, sections, enough, second, third, decide_true, Bool.true_and, ne_eq,
    not_true_eq_false, decide_false, Bool.false_or]
  by_cases same : mountPoint = name.bytes
  · simp [same]
  · simp [same, Ne.symm same]

/-- The request line passes the second loop even when its name looks like the
header, because it has no second field. -/
theorem readStrLines_request (mountPoint ntripStr : Bytes) (rest : List Bytes) :
    ∃ next, readStrLines mountPoint ntripStr (methodLine "POST" name.bytes :: rest) =
      readStrLines mountPoint next rest := by
  cases mentioned : mentions (methodLine "POST" name.bytes) "Ntrip-STR: " with
  | false => exact ⟨ntripStr, readStrLines_of_unmentioned mentioned mountPoint ntripStr rest⟩
  | true =>
      have text : strText (methodLine "POST" name.bytes) =
          slash :: (name.bytes ++ space :: (ascii "HTTP/1.1" ++ crlf)) :=
        strText_append _ (by decide)
      have single : semicolon ∉ slash :: (name.bytes ++ space :: (ascii "HTTP/1.1" ++ crlf)) := by
        simp only [List.mem_cons, List.mem_append, not_or]
        exact ⟨by decide, name.no_semicolon, by decide, by decide, by decide⟩
      have agrees : strAgrees mountPoint (strText (methodLine "POST" name.bytes)) = true := by
        rw [text, strAgrees, stringSplit_letter, List.splitOn_eq_singleton single]
        rfl
      exact ⟨strText (methodLine "POST" name.bytes), by simp [readStrLines, mentioned, agrees]⟩

theorem tokenLine_unmentioned :
    mentions (headerLine authorizationName (account.token build)) "Ntrip-STR: " = false := by
  have letter : (45 : UInt8) ∈ ascii "Ntrip-STR: " := by decide
  apply (mentions_eq_false_iff _ _).mpr
  apply not_infix_of_notMem letter
  simp only [headerLine, List.mem_append, List.mem_cons, not_or]
  exact ⟨by decide, by decide, not_mem_token (by decide), by decide, by decide⟩

/-- The second loop keeps the configured string, provided that the mount point
read before is the one that the string names. -/
theorem readStrLines_server (mountPoint : Bytes) :
    readStrLines mountPoint [] (requestLines ((name.server str account ip port).request build)) =
      if mountPoint = name.bytes then some (str.bytes ++ crlf) else none := by
  rw [requestLines_server]
  rcases readStrLines_request name mountPoint []
    [hostLine ip port, ascii "Ntrip-Version: Ntrip/2.0" ++ crlf,
      agentLine (kServerAgent build), headerLine authorizationName (account.token build),
      headerLine strName str.bytes, ascii "Connection: close" ++ crlf,
      ascii "Transfer-Encoding: chunked" ++ crlf] with ⟨next, request⟩
  have mentioned : mentions (headerLine strName str.bytes) "Ntrip-STR: " = true := by
    rw [mentions_iff]
    exact ⟨[], str.bytes ++ crlf, rfl⟩
  have text : strText (headerLine strName str.bytes) = str.bytes ++ crlf :=
    strText_append _ (by decide)
  rw [request, readStrLines_of_unmentioned (hostLine_inert ip port).ntripStr,
    readStrLines_of_unmentioned versionLine_inert.ntripStr,
    readStrLines_of_unmentioned (serverAgentLine_inert build).ntripStr,
    readStrLines_of_unmentioned (tokenLine_unmentioned build account), readStrLines, mentioned,
    if_pos rfl, text, strAgrees_str,
    readStrLines_of_unmentioned closeLine_inert.ntripStr,
    readStrLines_of_unmentioned chunkedLine_inert.ntripStr]
  simp [readStrLines]

/-- What it takes for a server's request to be read. -/
theorem postReads_server_iff (infos : List MountPointInformation) (fields : RequestFields)
    (ntripStr : Bytes) :
    PostReads infos ((name.server str account ip port).request build) fields ntripStr ↔
      name.bytes ∉ mountNames infos ∧ ¬ ascii "POST" <:+: account.token build ∧
        serverLine infos (name.fields account) (headerLine strName str.bytes) = .ok fields ∧
        fields.mountPoint = name.bytes ∧ fields.Complete ∧ ntripStr = str.bytes ++ crlf := by
  rw [PostReads, readServerLines_server_iff, readStrLines_server]
  constructor
  · rintro ⟨_, ⟨unused, clean, read⟩, stored, complete⟩
    split_ifs at stored with same
    exact ⟨unused, clean, read, same, complete, (Option.some.inj stored).symm⟩
  · rintro ⟨unused, clean, read, same, complete, stored⟩
    rw [if_pos same, stored]
    exact ⟨dispatch_server build _, ⟨unused, clean, read⟩, rfl, complete⟩

end Requests

end Ntrip
