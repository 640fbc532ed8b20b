import Ntrip.Peers.Segmentation

namespace Ntrip

/-!
# Where a well-formed request may be cut

A later piece of a client's request would have to carry the marker of a
position report, and the only place for it is the mount point; so a client's
request has no safe cut.  A server may send anything after its registration,
so its request may be cut behind the source-table string, though not inside
the line end that follows it.
-/

open Sequence

section Client

variable {build : Build} {name : MountName} {account : Account}

theorem dollar_mem_of_gga {piece : Bytes} (gga : mentionsGga piece = true) : dollar ∈ piece := by
  rw [mentionsGga, Bool.or_eq_true, mentions_iff, mentions_iff] at gga
  rcases gga with gps | gnss
  · exact gps.mem (by decide)
  · exact gnss.mem (by decide)

/-- A client's request up to its mount point, and the rest of it. -/
theorem request_client_eq :
    ∃ back, (name.client account).request build = ascii "GET /" ++ name.bytes ++ back ∧
      dollar ∉ back := by
  refine ⟨ascii " HTTP/1.1" ++ crlf ++ joinLines crlf ((clientLines build name account).tail), ?_, ?_⟩
  · rw [NtripClient.request, formatLines_client, clientLines, joinLines_cons, List.tail_cons]
    simp only [List.append_assoc]
  · have agent : dollar ∉ kClientAgent build :=
      fun member => absurd (kClientAgent_subset build member) (by decide)
    have token : dollar ∉ account.token build := not_mem_token (by decide)
    simp only [clientLines, joinLines, List.tail_cons, List.map_cons, List.map_nil,
      List.flatten_cons, List.flatten_nil, List.mem_append, not_or]
    exact ⟨⟨by decide, by decide⟩, ⟨⟨by decide, agent⟩, by decide⟩,
      ⟨⟨by decide, token⟩, by decide⟩, ⟨by decide, by decide⟩, by decide⟩

theorem clientLine_user_of_method {line : Bytes} (method : mentions line "GET" = true)
    (fields : ClientFields) : (clientLine fields line).1.user = fields.user := by
  rw [clientLine, if_pos method]
  cases requestPath line with
  | none => split_ifs <;> rfl
  | some mountPoint => split_ifs <;> rfl

/-- A request that ends inside its mount point has no account. -/
theorem not_getReads_of_prefix {first : Bytes} (part : first <+: ascii "GET /" ++ name.bytes)
    (fields : ClientFields) : ¬ GetReads first fields := by
  rintro ⟨get, read, complete⟩
  have fresh : carriageReturn ∉ first := by
    intro member
    rcases List.mem_append.mp (part.subset member) with inMethod | inName
    · exact absurd inMethod (by decide)
    · exact name.no_carriageReturn inName
  have oneLine : ¬ crlf <:+: first := not_infix_of_notMem (by decide : carriageReturn ∈ crlf) fresh
  have lines := requestLines_joinLines_append [] (by simp) oneLine
  change requestLines first = splitTail first crlf true at lines
  have method : mentions (first ++ crlf) "GET" = true := by
    have start : ascii "GET" <:+: ascii "GET /" := by decide
    rw [mentions_iff]
    exact (start.trans ((mentions_iff _ _).mp (mentions_of_dispatch_get get))).trans
      (List.prefix_append first crlf).isInfix
  have user := clientLine_user_of_method method {}
  rw [lines, splitTail] at read
  split_ifs at read with enough
  · rw [splitItem, if_pos rfl, readClientLines_single] at read
    rw [read] at user
    exact complete.2.1 user
  · rw [← read] at complete
    exact complete.2.1 rfl

/-- A client's request has the effect of the whole only as the whole. -/
theorem client_sameEffect_iff {sys : System} {fd : Fd} {outcomes : SendOutcomes}
    {first : Bytes} {rest : List Delivery} (isOpen : (sys.owner fd).isSome = true)
    (fresh : fd ∉ descriptors sys.caster.mountPointInfos)
    (accepted : (parseData sys.caster outcomes fd ((name.client account).request build)).ret = 0)
    (cut : first ++ (rest.map Delivery.buffer).flatten = (name.client account).request build) :
    sys.SameEffect fd (⟨first, outcomes⟩ :: rest)
        [⟨(name.client account).request build, outcomes⟩] ↔ rest = [] := by
  constructor
  · intro same
    have begins := Peer.request_begins build (.client (name.client account))
    rcases (sameEffect_request_iff isOpen fresh begins ⟨_, cut⟩ accepted).mp same with ⟨alike, passes⟩
    have get := dispatch_client build name account
    by_contra more
    rcases List.exists_mem_of_ne_nil rest more with ⟨later, member⟩
    have marked := dollar_mem_of_gga ((passes later member).2 get)
    have behind : dollar ∈ (rest.map Delivery.buffer).flatten :=
      List.mem_flatten.mpr ⟨later.buffer, List.mem_map_of_mem member, marked⟩
    rcases request_client_eq with ⟨back, shape, absent⟩
    have part := prefix_of_mem_rest (cut.trans shape) absent behind
    rcases alike with ⟨_, _, reads, _⟩ | ⟨_, fields, _, reads, _⟩
    · exact absurd (reads.1.symm.trans get) (by decide)
    · exact not_getReads_of_prefix part fields reads
  · rintro rfl
    rw [List.map_nil, List.flatten_nil, List.append_nil] at cut
    rw [cut]
    exact sameEffect_self isOpen accepted

end Client

section Server

variable (build : Build) (name : MountName) (account : Account) (str : SourceLine name)
  (ip : DottedDecimal) (port : Int)

/-- A server's request up to the end of its source-table string. -/
def throughStr : Bytes :=
  joinLines crlf (openingLines build name account ip port) ++ strLine name str

/-- The line end of the source-table string and the lines behind it. -/
def behindStr : Bytes :=
  crlf ++ joinLines crlf closingLines

theorem request_server_eq :
    (name.server str account ip port).request build =
      throughStr build name account str ip port ++ behindStr := by
  rw [NtripServer.request, formatLines_server, joinLines_append, joinLines_cons, throughStr,
    behindStr]
  simp only [List.append_assoc]

/-- The lines that the caster reads the account and the source-table string
from. -/
def readLines : List Bytes :=
  ((openingLines build name account ip port).filter (· ≠ [])).map (· ++ crlf) ++
    [strLine name str ++ crlf]

/-- The letters of the closing lines. -/
def closingAlphabet : Bytes := ascii "Connection: close" ++ ascii "Transfer-Encoding: chunked" ++ crlf

theorem closingLines_subset : ∀ line ∈ closingLines, line ++ crlf ⊆ closingAlphabet := by
  decide

theorem inert_of_closing {line : Bytes} (within : line ⊆ closingAlphabet) : Inert "POST" line where
  method := mentions_of_alphabet 80 within (by decide) (by decide)
  authorization := mentions_of_alphabet 65 within (by decide) (by decide)
  ntripStr := mentions_of_alphabet 78 within (by decide) (by decide)

/-- A text that ends inside a line has no separator behind the line before. -/
theorem not_crlf_infix_of_inside {line tail : Bytes} (fresh : lineFeed ∉ line)
    (inside : tail <+: line ++ crlf) (proper : tail ≠ line ++ crlf) : ¬ crlf <:+: tail := by
  have shape : line ++ crlf = (line ++ [carriageReturn]) ++ [lineFeed] := by
    rw [List.append_assoc]
    rfl
  rw [shape] at inside proper
  have shorter := (List.prefix_concat_iff.mp inside).resolve_left proper
  apply not_infix_of_notMem (by decide : lineFeed ∈ crlf)
  intro member
  rcases List.mem_append.mp (shorter.subset member) with inLine | atEnd
  · exact fresh inLine
  · exact absurd atEnd (by decide)

theorem strLine_long : crlf.length ≤ (strLine name str).length := by
  have start : (ascii "Ntrip-STR: ").length = 11 := rfl
  have finish : crlf.length = 2 := rfl
  rw [strLine, List.length_append, start, finish]
  omega

theorem carriageReturn_notMem_read :
    ∀ line ∈ openingLines build name account ip port ++ [strLine name str],
      carriageReturn ∉ line := by
  refine List.forall_mem_append.mpr ⟨?_, ?_⟩
  · exact notMem_openingLines build name account ip port name.no_carriageReturn (by decide)
  · exact List.forall_mem_singleton.mpr (carriageReturn_notMem_strLine name str)

theorem lineFeed_notMem_read :
    ∀ line ∈ openingLines build name account ip port ++ [strLine name str], lineFeed ∉ line := by
  refine List.forall_mem_append.mpr ⟨?_, List.forall_mem_singleton.mpr ?_⟩
  · exact notMem_openingLines build name account ip port name.no_lineFeed (by decide)
  · rw [strLine, List.mem_append, not_or]
    exact ⟨by decide, str.no_lineFeed⟩

theorem requestLines_throughStr :
    requestLines (throughStr build name account str ip port) =
      readLines build name account str ip port := by
  have fresh := (List.forall_mem_append.mp
    (carriageReturn_notMem_read build name account str ip port)).1
  have oneLine : ¬ crlf <:+: strLine name str :=
    not_infix_of_notMem (by decide : carriageReturn ∈ crlf) (carriageReturn_notMem_strLine name str)
  rw [throughStr, requestLines_joinLines_append _ fresh oneLine, splitTail,
    if_pos (strLine_long name str), splitItem, if_pos rfl, readLines]

theorem strLine_nonempty : strLine name str ≠ [] := by
  intro empty
  have long := strLine_long name str
  rw [empty] at long
  exact absurd long (by decide)

/-- The lines of a text that goes on behind the source-table line. -/
theorem requestLines_closing {whole : List Bytes} {tail : Bytes} (listed : whole ⊆ closingLines)
    (last : ¬ crlf <:+: tail) :
    requestLines (throughStr build name account str ip port ++ crlf ++
        (joinLines crlf whole ++ tail)) =
      readLines build name account str ip port ++
        ((whole.filter (· ≠ [])).map (· ++ crlf) ++ splitTail tail crlf true) := by
  have shape : throughStr build name account str ip port ++ crlf ++ (joinLines crlf whole ++ tail) =
      joinLines crlf (openingLines build name account ip port ++ [strLine name str] ++ whole) ++
        tail := by
    rw [throughStr, joinLines_append, joinLines_append, joinLines_cons]
    simp only [joinLines, List.map_nil, List.flatten_nil, List.append_nil, List.append_assoc]
  have freshClosing : ∀ line ∈ closingLines, carriageReturn ∉ line := by decide
  have fresh : ∀ line ∈ openingLines build name account ip port ++ [strLine name str] ++ whole,
      carriageReturn ∉ line := by
    refine List.forall_mem_append.mpr ⟨?_, fun line member => freshClosing line (listed member)⟩
    exact carriageReturn_notMem_read build name account str ip port
  rw [shape, requestLines_joinLines_append _ fresh last, List.filter_append, List.filter_append,
    List.filter_cons_of_pos (by simpa using strLine_nonempty name str), readLines]
  simp only [List.filter_nil, List.map_append, List.map_cons, List.map_nil, List.append_assoc]

theorem inert_closing {whole : List Bytes} {tail : Bytes} (listed : whole ⊆ closingLines)
    (within : tail ⊆ closingAlphabet) :
    ∀ line ∈ (whole.filter (· ≠ [])).map (· ++ crlf) ++ splitTail tail crlf true,
      Inert "POST" line := by
  intro line member
  rcases List.mem_append.mp member with inWhole | inTail
  · rcases List.mem_map.mp inWhole with ⟨text, inText, rfl⟩
    exact inert_of_closing (closingLines_subset text (listed (List.mem_of_mem_filter inText)))
  · rw [splitTail] at inTail
    split_ifs at inTail with enough
    · rw [List.mem_singleton.mp inTail, splitItem, if_pos rfl]
      exact inert_of_closing (List.append_subset.mpr ⟨within, by decide⟩)
    · exact absurd inTail List.not_mem_nil

/-- What follows the source-table line adds lines that no loop looks at,
however it is cut. -/
theorem requestLines_behind {part : Bytes} (inside : part <+: joinLines crlf closingLines) :
    ∃ extra, requestLines (throughStr build name account str ip port ++ crlf ++ part) =
        readLines build name account str ip port ++ extra ∧
      ∀ line ∈ extra, Inert "POST" line := by
  rcases prefix_joinLines inside with rfl | ⟨before, line, after, tail, split, rfl, within, proper⟩
  · have all := List.Subset.refl closingLines
    have lines := requestLines_closing build name account str ip port all
      (by decide : ¬ crlf <:+: [])
    rw [List.append_nil] at lines
    exact ⟨_, lines, inert_closing all (List.nil_subset _)⟩
  · have listed : before ⊆ closingLines := by
      rw [split]
      exact List.subset_append_left before (line :: after)
    have lineListed : line ∈ closingLines := by
      rw [split]
      exact List.mem_append_right before List.mem_cons_self
    have freshFeed : ∀ line ∈ closingLines, lineFeed ∉ line := by decide
    have last := not_crlf_infix_of_inside (freshFeed line lineListed) within proper
    exact ⟨_, requestLines_closing build name account str ip port listed last,
      inert_closing listed (List.Subset.trans within.subset (closingLines_subset line lineListed))⟩

/-- The piece ends at the end of the source-table string, or behind the line
end that follows it. -/
def ReachesStr (first : Bytes) : Prop :=
  first = throughStr build name account str ip port ∨
    throughStr build name account str ip port ++ crlf <+: first

variable {build name account str ip port} {first : Bytes}

theorem ReachesStr.prefix (reaches : ReachesStr build name account str ip port first) :
    throughStr build name account str ip port <+: first := by
  rcases reaches with rfl | longer
  · exact List.prefix_rfl
  · exact (List.prefix_append _ _).trans longer

theorem ReachesStr.requestLines (part : first <+: (name.server str account ip port).request build)
    (reaches : ReachesStr build name account str ip port first) :
    ∃ extra, requestLines first = readLines build name account str ip port ++ extra ∧
      ∀ line ∈ extra, Inert "POST" line := by
  rcases reaches with rfl | ⟨inside, rfl⟩
  · refine ⟨[], ?_, by simp⟩
    rw [requestLines_throughStr, List.append_nil]
  · rw [request_server_eq, behindStr, ← List.append_assoc, List.prefix_append_right_inj] at part
    exact requestLines_behind build name account str ip port part

theorem dispatch_of_reaches (reaches : ReachesStr build name account str ip port first) :
    dispatch first = .post := by
  have begins : ascii "POST /" ++ name.bytes ++ ascii " HTTP/1.1" <+: first := by
    refine List.IsPrefix.trans ?_ reaches.prefix
    rw [throughStr, openingLines, joinLines_cons]
    simp only [List.append_assoc, List.prefix_append_right_inj, List.prefix_append]
  have post : mentions first "POST /" = true := by
    rw [mentions_iff]
    refine List.IsInfix.trans ?_ begins.isInfix
    rw [List.append_assoc]
    exact (List.prefix_append _ _).isInfix
  have version : mentions first "HTTP/1.1" = true := by
    rw [mentions_iff]
    refine List.IsInfix.trans ?_ begins.isInfix
    exact List.infix_append_of_infix_right (by decide)
  simp [dispatch, post, version]

/-- Such a piece is read like the whole request. -/
theorem postReads_of_reaches {infos : List MountPointInformation} {fields : RequestFields}
    {ntripStr : Bytes} (part : first <+: (name.server str account ip port).request build)
    (reaches : ReachesStr build name account str ip port first)
    (reads : PostReads infos ((name.server str account ip port).request build) fields ntripStr) :
    PostReads infos first fields ntripStr := by
  have whole : ReachesStr build name account str ip port
      ((name.server str account ip port).request build) := by
    refine Or.inr ?_
    rw [request_server_eq, behindStr, ← List.append_assoc]
    exact List.prefix_append _ _
  rcases reads with ⟨_, read, stored, complete⟩
  rcases whole.requestLines List.prefix_rfl with ⟨wholeExtra, wholeLines, wholeInert⟩
  rcases reaches.requestLines part with ⟨extra, lines, inert⟩
  rw [wholeLines, readServerLines_append_inert wholeInert] at read
  rw [wholeLines, readStrLines_append_inert wholeInert] at stored
  refine ⟨dispatch_of_reaches reaches, ?_, ?_, complete⟩
  · rw [lines, readServerLines_append_inert inert]
    exact read
  · rw [lines, readStrLines_append_inert inert]
    exact stored

theorem semicolon_mem_str : semicolon ∈ str.bytes :=
  str.begins.subset (by simp)

/-- An unfinished line from which the whole source-table string is read holds
all of it. -/
theorem reaches_of_tail {before after : List Bytes} {line tail : Bytes}
    (split : openingLines build name account ip port ++ [strLine name str] =
      before ++ line :: after) (inside : tail <+: line ++ crlf)
    (text : strText (tail ++ crlf) = str.bytes ++ crlf) (separated : semicolon ∈ tail ++ crlf) :
    ReachesStr build name account str ip port (joinLines crlf before ++ tail) := by
  have inTail : semicolon ∈ tail :=
    (List.mem_append.mp separated).resolve_right (by decide)
  have inLine : semicolon ∈ line :=
    (List.mem_append.mp (inside.subset inTail)).resolve_right (by decide)
  have notOpening : line ∉ openingLines build name account ip port := by
    intro opening
    exact notMem_openingLines build name account ip port name.no_semicolon (by decide) line opening
      inLine
  rcases last_of_append_singleton split notOpening with ⟨rfl, rfl, _⟩
  have header : ascii "Ntrip-STR: " = ascii "Ntrip-STR:" ++ [space] := by decide
  rw [strLine, List.append_assoc] at inside
  rcases List.prefix_or_prefix_of_prefix inside (List.prefix_append _ _) with noText | ⟨rest, rfl⟩
  · exact absurd (noText.subset inTail) (by decide)
  · have line : ascii "Ntrip-STR: " ++ rest ++ crlf =
        ascii "Ntrip-STR:" ++ space :: (rest ++ crlf) := by
      simp [header]
    rw [line, strText_append _ (by decide)] at text
    rw [List.append_cancel_right text]
    exact Or.inl rfl

/-- A piece that is read like the whole request reaches its source-table
string. -/
theorem reaches_of_postReads {infos : List MountPointInformation} {fields : RequestFields}
    (part : first <+: (name.server str account ip port).request build)
    (reads : PostReads infos first fields (str.bytes ++ crlf)) :
    ReachesStr build name account str ip port first := by
  have whole : throughStr build name account str ip port ++ crlf =
      joinLines crlf (openingLines build name account ip port ++ [strLine name str]) := by
    rw [throughStr, joinLines_append, List.append_assoc]
    simp [joinLines]
  by_contra short
  have shorter : first <+: throughStr build name account str ip port ++ crlf := by
    rw [request_server_eq, behindStr, ← List.append_assoc] at part
    rcases List.prefix_or_prefix_of_prefix part (List.prefix_append _ _) with inside | longer
    · exact inside
    · exact absurd (Or.inr longer) short
  rw [whole] at shorter
  rcases prefix_joinLines shorter with all | ⟨before, line, after, tail, split, rfl, inside, proper⟩
  · exact short (Or.inr (by rw [whole, all]))
  · have listed : line ∈ openingLines build name account ip port ++ [strLine name str] := by
      rw [split]
      exact List.mem_append_right before List.mem_cons_self
    have earlier : before <+: openingLines build name account ip port :=
      prefix_of_append_singleton split
    have fresh : ∀ line ∈ before, carriageReturn ∉ line :=
      fun line member => notMem_openingLines build name account ip port name.no_carriageReturn
        (by decide) line (earlier.subset member)
    have last := not_crlf_infix_of_inside (lineFeed_notMem_read build name account str ip port line
      listed) inside proper
    have unseparated := notMem_openingLines build name account ip port name.no_semicolon
      (by decide : semicolon ∉ plainAlphabet)
    rcases readStrLines_eq_some reads.2.2.1 with empty | ⟨read, member, text⟩
    · exact absurd empty (List.append_ne_nil_of_right_ne_nil _ (by decide))
    · have separated : semicolon ∈ read := by
        apply mem_of_mem_strText
        rw [text]
        exact List.mem_append_left crlf semicolon_mem_str
      rw [requestLines_joinLines_append before fresh last] at member
      rcases List.mem_append.mp member with inWhole | inTail
      · rcases List.mem_map.mp inWhole with ⟨other, inOther, rfl⟩
        have opening := earlier.subset (List.mem_of_mem_filter inOther)
        rcases List.mem_append.mp separated with inLine | inEnd
        · exact unseparated other opening inLine
        · exact absurd inEnd (by decide)
      · rw [splitTail] at inTail
        split_ifs at inTail with enough
        · rw [List.mem_singleton.mp inTail, splitItem, if_pos rfl] at text separated
          exact short (reaches_of_tail split inside text separated)
        · exact absurd inTail List.not_mem_nil

/-- A server's request has the effect of the whole exactly when its first
piece ends at the end of the source-table string or behind its line end. -/
theorem server_sameEffect_iff {sys : System} {fd : Fd} {outcomes : SendOutcomes}
    {rest : List Delivery} (isOpen : (sys.owner fd).isSome = true)
    (fresh : fd ∉ descriptors sys.caster.mountPointInfos)
    (accepted : (parseData sys.caster outcomes fd
      ((name.server str account ip port).request build)).ret = 0)
    (cut : first ++ (rest.map Delivery.buffer).flatten =
      (name.server str account ip port).request build) :
    sys.SameEffect fd (⟨first, outcomes⟩ :: rest)
        [⟨(name.server str account ip port).request build, outcomes⟩] ↔
      ReachesStr build name account str ip port first := by
  have begins : ascii "GET /" <+: (name.server str account ip port).request build ∨
      ascii "POST /" <+: (name.server str account ip port).request build :=
    Peer.request_begins build (.server (name.server str account ip port))
  have post := dispatch_server build (name.server str account ip port)
  have part : first <+: (name.server str account ip port).request build := ⟨_, cut⟩
  rw [sameEffect_request_iff isOpen fresh begins part accepted]
  constructor
  · rintro ⟨⟨fields, ntripStr, whole, reads⟩ | ⟨_, _, whole, _, _⟩, _⟩
    · have stored := ((postReads_server_iff build name account str ip port _ fields ntripStr).mp
        whole).2.2.2.2.2
      rw [stored] at reads
      exact reaches_of_postReads part reads
    · exact absurd (post.symm.trans whole.1) (by decide)
  · intro reaches
    rcases parseData_of_post post accepted with ⟨fields, ntripStr, whole, _⟩
    refine ⟨Or.inl ⟨fields, ntripStr, whole, postReads_of_reaches part reaches whole⟩, ?_⟩
    rcases reaches.prefix with ⟨more, rfl⟩
    rw [request_server_eq, List.append_assoc] at cut
    have behind := List.append_cancel_left cut
    intro later member
    have noSlash : slash ∉ later.buffer := by
      intro inLater
      have inBehind : slash ∈ behindStr := by
        rw [← behind]
        exact List.mem_append_right more
          (List.mem_flatten.mpr ⟨later.buffer, List.mem_map_of_mem member, inLater⟩)
      exact absurd inBehind (by decide)
    refine ⟨?_, fun get => absurd (post.symm.trans get) (by decide)⟩
    rintro (request | request)
    · exact noSlash (request.mem (by decide))
    · exact noSlash (request.mem (by decide))

end Server

end Ntrip
