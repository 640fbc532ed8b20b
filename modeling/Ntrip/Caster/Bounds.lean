import Ntrip.Caster.Forwarding

namespace Ntrip

/-!
# Index arithmetic of the request path

The functions of the request path once more, with every `substr`, every
difference of positions and every index checked: `none` stands for a position
behind the end (`std::out_of_range`), a difference below zero, a position
computed from `npos`, or an index outside a vector or string.  Each checked
function is shown to return what the plain one returns, so none of the checks
ever fails.
-/

open Sequence

/-! ## Checked operations -/

/-- `text.substr(start, count)`. -/
def checkedSubstr (text : Bytes) (start count : Nat) : Option Bytes :=
  if start ≤ text.length then some (substr text start count) else none

/-- The difference of two positions or sizes. -/
def checkedSub (left right : Nat) : Option Nat :=
  if right ≤ left then some (left - right) else none

theorem checkedSubstr_eq {text : Bytes} {start : Nat} (inside : start ≤ text.length)
    (count : Nat) : checkedSubstr text start count = some (substr text start count) :=
  if_pos inside

/-- Go on with the value that a checked step returns, when it returns one. -/
def checkedThen {α β : Type} (step : Option (Option α)) (next : α → Option (Option β)) :
    Option (Option β) :=
  match step with
  | none => none
  | some none => some none
  | some (some value) => next value

theorem checkedThen_eq {α β : Type} {step : Option (Option α)} {plain : Option α}
    {next : α → Option (Option β)} {plainNext : α → Option β} (here : step = some plain)
    (later : ∀ value, next value = some (plainNext value)) :
    checkedThen step next = some (plain.bind plainNext) := by
  subst here
  cases plain with
  | none => rfl
  | some value => exact later value

theorem checkedSub_eq {left right : Nat} (order : right ≤ left) :
    checkedSub left right = some (left - right) :=
  if_pos order

/-! ## `StringSplit` -/

/-- The loop and the tail test of `StringSplit`. -/
def checkedSplitLoop (src divStr : Bytes) (appendDivStr : Bool) :
    Nat → Nat → Option Nat → List Bytes → Option (List Bytes)
  | 0, _, _, _ => none
  | _ + 1, posBegin, none, out =>
      if posBegin + divStr.length ≤ src.length then do
        let len ← checkedSub src.length posBegin
        let item ← checkedSubstr src posBegin len
        some (out ++ [splitItem item divStr appendDivStr])
      else some out
  | fuel + 1, posBegin, some divPosBegin, out => do
      let len ← checkedSub divPosBegin posBegin
      let out ←
        if len > 0 then do
          let item ← checkedSubstr src posBegin len
          some (out ++ [splitItem item divStr appendDivStr])
        else some out
      let posBegin := divPosBegin + divStr.length
      checkedSplitLoop src divStr appendDivStr fuel posBegin (findFrom src divStr posBegin) out

/-- `StringSplit`. -/
def checkedStringSplit (src divStr : Bytes) (appendDivStr : Bool) : Option (List Bytes) :=
  checkedSplitLoop src divStr appendDivStr (src.length + 1) 0 (find src divStr) []

/-- Every round passes one separator, so the positions grow and the fuel
lasts. -/
theorem checkedSplitLoop_eq {src divStr : Bytes} (appendDivStr : Bool) (nonempty : divStr ≠ [])
    {fuel posBegin : Nat} (inside : posBegin ≤ src.length) (enough : src.length - posBegin < fuel)
    (out : List Bytes) :
    ∃ pieces,
      checkedSplitLoop src divStr appendDivStr fuel posBegin (findFrom src divStr posBegin) out =
        some pieces ∧
      splitLoop src divStr appendDivStr fuel posBegin (findFrom src divStr posBegin) out =
        some pieces := by
  induction fuel generalizing posBegin out with
  | zero => exact absurd enough (Nat.not_lt_zero _)
  | succ fuel inductionHypothesis =>
      have longer : 0 < divStr.length := List.length_pos_iff.mpr nonempty
      cases search : findFrom src divStr posBegin with
      | none =>
          rw [checkedSplitLoop, splitLoop]
          by_cases tail : posBegin + divStr.length ≤ src.length
          · rw [if_pos tail, if_pos tail, checkedSub_eq inside]
            exact ⟨_, by rw [Option.bind_eq_bind, Option.bind_some, checkedSubstr_eq inside]; rfl,
              rfl⟩
          · rw [if_neg tail, if_neg tail]
            exact ⟨out, rfl, rfl⟩
      | some divPosBegin =>
          rcases findFrom_bound search with ⟨order, bound⟩
          have next := inductionHypothesis bound (by omega)
          rw [checkedSplitLoop, splitLoop, checkedSub_eq order]
          by_cases piece : divPosBegin - posBegin > 0
          · simp only [Option.bind_eq_bind, Option.bind_some, if_pos piece,
              checkedSubstr_eq inside]
            exact next _
          · simp only [Option.bind_eq_bind, Option.bind_some, if_neg piece]
            exact next _

theorem checkedStringSplit_eq {src divStr : Bytes} (appendDivStr : Bool)
    (nonempty : divStr ≠ []) :
    checkedStringSplit src divStr appendDivStr = some (stringSplit src divStr appendDivStr) := by
  rcases checkedSplitLoop_eq appendDivStr nonempty (Nat.zero_le src.length)
    (Nat.lt_succ_of_le (Nat.sub_le _ _)) [] with ⟨pieces, checked, plain⟩
  rw [findFrom_zero] at checked plain
  rw [checkedStringSplit, stringSplit, checked, plain]
  rfl

/-! ## `Base64Decode` -/

/-- The loop of `Base64Decode` from index `i` on. -/
def checkedDecodeLoop (raw : Bytes) (len : Int) : Nat → Nat → Option Bytes
  | 0, _ => none
  | fuel + 1, i =>
      if (i : Int) < len then do
        let a ← raw[i]?
        let b ← raw[i + 1]?
        let c ← raw[i + 2]?
        let first := toChar ((base64Index a &&& 0x3F) <<< 2 ||| (base64Index b &&& 0x3F) >>> 4)
        if c = paddingSign then
          some [first, toChar ((base64Index b &&& 0x0F) <<< 4)]
        else
          let second :=
            toChar ((base64Index b &&& 0x0F) <<< 4 ||| (base64Index c &&& 0x3F) >>> 2)
          let d ← raw[i + 3]?
          if d = paddingSign then
            some [first, second, toChar ((base64Index c &&& 0x03) <<< 6)]
          else
            let third := toChar ((base64Index c &&& 0x03) <<< 6 ||| base64Index d &&& 0x3F)
            let rest ← checkedDecodeLoop raw len fuel (i + 4)
            some (first :: second :: third :: rest)
      else some []

/-- `Base64Decode`: the inner value is the one of the plain function. -/
def checkedBase64Decode (raw : Bytes) : Option (Option Bytes) :=
  let len := toInt raw.length
  if len = 0 ∨ len.tmod 4 ≠ 0 then some none
  else (checkedDecodeLoop raw len (raw.length + 1) 0).map some

theorem toInt_le (size : Nat) : toInt size ≤ size := by
  unfold toInt Int.bmod
  dsimp only
  split
  · omega
  · omega

/-- The index loop reads the groups of the prefix one after the other. -/
theorem checkedDecodeLoop_eq {raw : Bytes} {length : Nat} (inside : length ≤ raw.length)
    (groups : length % 4 = 0) {fuel i : Nat} (aligned : i % 4 = 0)
    (enough : length - i < fuel) :
    checkedDecodeLoop raw length fuel i = some (decodeLoop ((raw.take length).drop i)) := by
  induction fuel generalizing i with
  | zero => exact absurd enough (Nat.not_lt_zero _)
  | succ fuel inductionHypothesis =>
      rw [checkedDecodeLoop]
      by_cases running : i < length
      · have count : ((raw.take length).drop i).length = length - i := by
          rw [List.length_drop, List.length_take_of_le inside]
        have reads : ∀ index, i + index < length →
            raw[i + index]? = ((raw.take length).drop i)[index]? := by
          intro index bound
          rw [List.getElem?_drop, List.getElem?_take_of_lt bound]
        have later : (raw.take length).drop (i + 4) = ((raw.take length).drop i).drop 4 := by
          rw [List.drop_drop]
        have next := inductionHypothesis (i := i + 4) (by omega) (by omega)
        have at0 := reads 0 (by omega)
        have at1 := reads 1 (by omega)
        have at2 := reads 2 (by omega)
        have at3 := reads 3 (by omega)
        rw [later] at next
        rw [if_pos (by omega)]
        generalize (raw.take length).drop i = remaining at count at0 at1 at2 at3 next
        rcases remaining with _ | ⟨a, _ | ⟨b, _ | ⟨c, _ | ⟨d, rest⟩⟩⟩⟩
        · simp only [List.length_nil] at count
          omega
        · simp only [List.length_cons, List.length_nil] at count
          omega
        · simp only [List.length_cons, List.length_nil] at count
          omega
        · simp only [List.length_cons, List.length_nil] at count
          omega
        · change raw[i]? = some a at at0
          change raw[i + 1]? = some b at at1
          change raw[i + 2]? = some c at at2
          change raw[i + 3]? = some d at at3
          change checkedDecodeLoop raw length fuel (i + 4) = some (decodeLoop rest) at next
          simp only [at0, at1, at2, at3, next, Option.bind_eq_bind, Option.bind_some, decodeLoop]
          by_cases third : c = paddingSign
          · rw [if_pos third, if_pos third]
          · by_cases fourth : d = paddingSign
            · rw [if_neg third, if_neg third, if_pos fourth, if_pos fourth]
            · rw [if_neg third, if_neg third, if_neg fourth, if_neg fourth]
      · rw [if_neg (by omega), List.drop_eq_nil_of_le]
        · rfl
        · rw [List.length_take_of_le inside]
          omega

theorem checkedBase64Decode_eq (raw : Bytes) :
    checkedBase64Decode raw = some (base64Decode raw) := by
  unfold checkedBase64Decode base64Decode
  have small := toInt_le raw.length
  generalize toInt raw.length = len at small
  dsimp only
  by_cases refused : len = 0 ∨ len.tmod 4 ≠ 0
  · rw [if_pos refused, if_pos refused]
  · rw [if_neg refused, if_neg refused]
    rcases not_or.mp refused with ⟨nonzero, groups⟩
    rcases Int.lt_or_le len 0 with negative | nonneg
    · rw [checkedDecodeLoop, if_neg (by omega), Int.toNat_of_nonpos (Int.le_of_lt negative)]
      rfl
    · rcases Int.eq_ofNat_of_zero_le nonneg with ⟨length, rfl⟩
      have whole : length % 4 = 0 := by
        rw [tmod_four] at groups
        omega
      rw [checkedDecodeLoop_eq (by omega) whole (Nat.zero_mod 4) (by omega)]
      rfl

/-! ## Reading one line -/

/-- `requestPath`. -/
def checkedRequestPath (line : Bytes) : Option (Option Bytes) :=
  match find line [slash] with
  | none => some none
  | some posBeg =>
      match findFrom line [space] posBeg with
      | none => some none
      | some posEnd =>
          if posBeg ≥ posEnd then some none
          else do
            let distance ← checkedSub posEnd posBeg
            let count ← checkedSub distance 1
            let path ← checkedSubstr line (posBeg + 1) count
            some (some path)

/-- `headerToken`. -/
def checkedHeaderToken (line : Bytes) : Option (Option Bytes) :=
  match findLast line space with
  | none => some none
  | some posBeg =>
      match findFrom line [carriageReturn] posBeg with
      | none => some none
      | some posEnd =>
          if posBeg ≥ posEnd then some none
          else do
            let distance ← checkedSub posEnd posBeg
            let count ← checkedSub distance 1
            let token ← checkedSubstr line (posBeg + 1) count
            some (some token)

/-- `splitCredentials`. -/
def checkedSplitCredentials (userPasswd : Bytes) : Option (Option Credentials) :=
  match find userPasswd [colon] with
  | none => some none
  | some pos => do
      let user ← checkedSubstr userPasswd 0 pos
      let count ← checkedSub userPasswd.length pos
      let passwd ← checkedSubstr userPasswd (pos + 1) count
      some (some ⟨user, passwd⟩)

/-- `readCredentials`. -/
def checkedReadCredentials (line : Bytes) : Option (Option Credentials) :=
  checkedThen (checkedHeaderToken line) fun userPasswdBase64 =>
    checkedThen (checkedBase64Decode userPasswdBase64) checkedSplitCredentials

/-- `strText`; without a space the position is `npos`. -/
def checkedStrText (line : Bytes) : Option Bytes := do
  let pos ← find line [space]
  let count ← checkedSub line.length pos
  checkedSubstr line (pos + 1) count

/-- `strAgrees`. -/
def checkedStrAgrees (mountPoint ntripStr : Bytes) : Option Bool := do
  let sections ← checkedStringSplit ntripStr [semicolon] false
  if sections.length > 4 then
    let first ← sections[1]?
    let second ← sections[2]?
    some !(first ≠ second || first ≠ mountPoint)
  else some true

/-- The text strictly between two positions of a line. -/
theorem checked_between_eq {line : Bytes} {posBeg posEnd : Nat} (order : ¬ posBeg ≥ posEnd)
    (bound : posEnd ≤ line.length) :
    (do
      let distance ← checkedSub posEnd posBeg
      let count ← checkedSub distance 1
      let text ← checkedSubstr line (posBeg + 1) count
      some (some text)) = some (some (substr line (posBeg + 1) (posEnd - posBeg - 1))) := by
  have forward : posBeg < posEnd := Nat.lt_of_not_le order
  have apart : 1 ≤ posEnd - posBeg := Nat.sub_pos_of_lt forward
  rw [checkedSub_eq (Nat.le_of_lt forward), Option.bind_eq_bind, Option.bind_some,
    checkedSub_eq apart, Option.bind_some, checkedSubstr_eq (Nat.le_trans forward bound)]
  rfl

theorem checkedRequestPath_eq (line : Bytes) :
    checkedRequestPath line = some (requestPath line) := by
  unfold checkedRequestPath requestPath
  cases find line [slash] with
  | none => rfl
  | some posBeg =>
      dsimp only
      cases search : findFrom line [space] posBeg with
      | none => rfl
      | some posEnd =>
          have bound := Nat.le_of_add_right_le (findFrom_bound search).2
          dsimp only
          by_cases order : posBeg ≥ posEnd
          · rw [if_pos order, if_pos order]
          · rw [if_neg order, if_neg order]
            exact checked_between_eq order bound

theorem checkedHeaderToken_eq (line : Bytes) :
    checkedHeaderToken line = some (headerToken line) := by
  unfold checkedHeaderToken headerToken
  cases findLast line space with
  | none => rfl
  | some posBeg =>
      dsimp only
      cases search : findFrom line [carriageReturn] posBeg with
      | none => rfl
      | some posEnd =>
          have bound := Nat.le_of_add_right_le (findFrom_bound search).2
          dsimp only
          by_cases order : posBeg ≥ posEnd
          · rw [if_pos order, if_pos order]
          · rw [if_neg order, if_neg order]
            exact checked_between_eq order bound

theorem checkedSplitCredentials_eq (userPasswd : Bytes) :
    checkedSplitCredentials userPasswd = some (splitCredentials userPasswd) := by
  unfold checkedSplitCredentials splitCredentials
  cases search : find userPasswd [colon] with
  | none => rfl
  | some pos =>
      have bound := find_bound search
      rw [List.length_singleton] at bound
      dsimp only
      rw [checkedSubstr_eq (Nat.zero_le _), checkedSub_eq (Nat.le_of_succ_le bound)]
      simp only [Option.bind_eq_bind, Option.bind_some]
      rw [checkedSubstr_eq bound]
      rfl

theorem checkedReadCredentials_eq (line : Bytes) :
    checkedReadCredentials line = some (readCredentials line) :=
  checkedThen_eq (checkedHeaderToken_eq line) fun token =>
    checkedThen_eq (checkedBase64Decode_eq token) checkedSplitCredentials_eq

theorem checkedStrText_eq {line : Bytes} (member : space ∈ line) :
    checkedStrText line = some (strText line) := by
  unfold checkedStrText strText
  cases search : find line [space] with
  | none =>
      have absent := (find_eq_none_iff line [space]).mp search
      exact absurd ((List.singleton_infix_iff space line).mpr member) absent
  | some pos =>
      have bound := find_bound search
      rw [List.length_singleton] at bound
      rw [Option.bind_eq_bind, Option.bind_some, checkedSub_eq (Nat.le_of_succ_le bound)]
      exact checkedSubstr_eq bound _

theorem checkedStrAgrees_eq (mountPoint ntripStr : Bytes) :
    checkedStrAgrees mountPoint ntripStr = some (strAgrees mountPoint ntripStr) := by
  unfold checkedStrAgrees strAgrees
  rw [checkedStringSplit_eq false (List.cons_ne_nil _ _), Option.bind_eq_bind, Option.bind_some]
  generalize stringSplit ntripStr [semicolon] false = sections
  by_cases many : sections.length > 4
  · have reads : ∀ index, index ≤ 4 → sections[index]? = some (sections.getD index []) := by
      intro index small
      rw [List.getElem?_eq_getElem (Nat.lt_of_le_of_lt small many), List.getD_eq_getElem]
    rw [if_pos many, reads 1 (by decide), reads 2 (by decide)]
    simp [many]
  · simp [many]

/-! ## The loops over the lines -/

/-- `serverLine`. -/
def checkedServerLine (infos : List MountPointInformation) (fields : RequestFields)
    (line : Bytes) : Option (Except ServerRefusal RequestFields) :=
  if mentions line "POST" then
    (checkedRequestPath line).map fun path =>
      match path with
      | none => .error .malformed
      | some mountPoint =>
          if infos.any (fun info => mountPoint = info.mountpoint) then .error .mountPointUsed
          else .ok { fields with mountPoint := mountPoint }
  else if mentions line "Authorization: Basic" then
    (checkedReadCredentials line).map fun credentials =>
      match credentials with
      | none => .error .malformed
      | some account => .ok { fields with user := account.user, passwd := account.passwd }
  else some (.ok fields)

/-- The first loop of `ServerConnectRequest`. -/
def checkedReadServerLines (infos : List MountPointInformation) :
    RequestFields → List Bytes → Option (Except ServerRefusal RequestFields)
  | fields, [] => some (.ok fields)
  | fields, line :: rest =>
      match checkedServerLine infos fields line with
      | none => none
      | some (.error refusal) => some (.error refusal)
      | some (.ok next) => checkedReadServerLines infos next rest

/-- The second loop of `ServerConnectRequest`. -/
def checkedReadStrLines (mountPoint : Bytes) : Bytes → List Bytes → Option (Option Bytes)
  | ntripStr, [] => some (some ntripStr)
  | ntripStr, line :: rest =>
      if mentions line "Ntrip-STR: " then
        match checkedStrText line with
        | none => none
        | some text =>
            match checkedStrAgrees mountPoint text with
            | none => none
            | some true => checkedReadStrLines mountPoint text rest
            | some false => some none
      else checkedReadStrLines mountPoint ntripStr rest

/-- `clientLine`. -/
def checkedClientLine (fields : ClientFields) (line : Bytes) : Option (ClientFields × Bool) :=
  if mentions line "GET" then
    let fields := if mentions line "HTTP/1.0" then { fields with ntripVersion1 := true } else fields
    (checkedRequestPath line).map fun path =>
      match path with
      | none => (fields, false)
      | some mountPoint => ({ fields with mountPoint := mountPoint }, true)
  else if mentions line "Authorization: Basic" then
    (checkedReadCredentials line).map fun credentials =>
      match credentials with
      | none => (fields, false)
      | some account => ({ fields with user := account.user, passwd := account.passwd }, true)
  else some (fields, true)

/-- The loop of `ClientConnectRequest`. -/
def checkedReadClientLines : ClientFields → List Bytes → Option ClientFields
  | fields, [] => some fields
  | fields, line :: rest =>
      match checkedClientLine fields line with
      | none => none
      | some (fields, true) => checkedReadClientLines fields rest
      | some (fields, false) => some fields

theorem checkedServerLine_eq (infos : List MountPointInformation) (fields : RequestFields)
    (line : Bytes) :
    checkedServerLine infos fields line = some (serverLine infos fields line) := by
  unfold checkedServerLine serverLine
  by_cases post : mentions line "POST" = true
  · rw [if_pos post, if_pos post, checkedRequestPath_eq]
    cases requestPath line with
    | none => rfl
    | some mountPoint => rfl
  · rw [if_neg post, if_neg post]
    by_cases header : mentions line "Authorization: Basic" = true
    · rw [if_pos header, if_pos header, checkedReadCredentials_eq]
      cases readCredentials line with
      | none => rfl
      | some account => rfl
    · rw [if_neg header, if_neg header]

theorem checkedReadServerLines_eq (infos : List MountPointInformation) (fields : RequestFields)
    (lines : List Bytes) :
    checkedReadServerLines infos fields lines = some (readServerLines infos fields lines) := by
  induction lines generalizing fields with
  | nil => rfl
  | cons line rest inductionHypothesis =>
      rw [checkedReadServerLines, readServerLines, checkedServerLine_eq]
      cases serverLine infos fields line with
      | error refusal => rfl
      | ok next => exact inductionHypothesis next

theorem checkedReadStrLines_eq (mountPoint ntripStr : Bytes) (lines : List Bytes) :
    checkedReadStrLines mountPoint ntripStr lines =
      some (readStrLines mountPoint ntripStr lines) := by
  induction lines generalizing ntripStr with
  | nil => rfl
  | cons line rest inductionHypothesis =>
      rw [checkedReadStrLines, readStrLines]
      by_cases header : mentions line "Ntrip-STR: " = true
      · have member : space ∈ line :=
          ((mentions_iff line "Ntrip-STR: ").mp header).subset (by decide)
        rw [if_pos header, if_pos header, checkedStrText_eq member]
        dsimp only
        rw [checkedStrAgrees_eq]
        cases strAgrees mountPoint (strText line) with
        | true => exact inductionHypothesis (strText line)
        | false => rfl
      · rw [if_neg header, if_neg header]
        exact inductionHypothesis ntripStr

theorem checkedClientLine_eq (fields : ClientFields) (line : Bytes) :
    checkedClientLine fields line = some (clientLine fields line) := by
  unfold checkedClientLine clientLine
  by_cases get : mentions line "GET" = true
  · rw [if_pos get, if_pos get, checkedRequestPath_eq]
    cases requestPath line with
    | none => rfl
    | some mountPoint => rfl
  · rw [if_neg get, if_neg get]
    by_cases header : mentions line "Authorization: Basic" = true
    · rw [if_pos header, if_pos header, checkedReadCredentials_eq]
      cases readCredentials line with
      | none => rfl
      | some account => rfl
    · rw [if_neg header, if_neg header]

theorem checkedReadClientLines_eq (fields : ClientFields) (lines : List Bytes) :
    checkedReadClientLines fields lines = some (readClientLines fields lines) := by
  induction lines generalizing fields with
  | nil => rfl
  | cons line rest inductionHypothesis =>
      rw [checkedReadClientLines, readClientLines, checkedClientLine_eq]
      rcases clientLine fields line with ⟨next, goesOn⟩
      cases goesOn with
      | true => exact inductionHypothesis next
      | false => rfl

/-! ## The handlers -/

/-- `ServerConnectRequest`; behind its loops it computes no position. -/
def checkedServerConnectRequest (caster : NtripCaster) (outcomes : SendOutcomes)
    (lines : List Bytes) (socketFd : Fd) : Option Response :=
  match checkedReadServerLines caster.mountPointInfos {} lines with
  | none => none
  | some (.error _) => some (serverConnectRequest caster outcomes lines socketFd)
  | some (.ok fields) =>
      (checkedReadStrLines fields.mountPoint [] lines).map fun _ =>
        serverConnectRequest caster outcomes lines socketFd

/-- `ClientConnectRequest`; behind its loop it computes no position. -/
def checkedClientConnectRequest (caster : NtripCaster) (outcomes : SendOutcomes)
    (lines : List Bytes) (socketFd : Fd) : Option Response :=
  (checkedReadClientLines {} lines).map fun _ =>
    clientConnectRequest caster outcomes lines socketFd

/-- `ParseData`. -/
def checkedParseData (caster : NtripCaster) (outcomes : SendOutcomes) (socketFd : Fd)
    (buffer : Bytes) : Option Response :=
  match dispatch buffer with
  | .post =>
      (checkedStringSplit buffer crlf true).bind fun lines =>
        checkedServerConnectRequest caster outcomes lines socketFd
  | .get =>
      (checkedStringSplit buffer crlf true).bind fun lines =>
        checkedClientConnectRequest caster outcomes lines socketFd
  | .unknownVersion => (checkedStringSplit buffer crlf true).map fun _ => ⟨-1, caster, []⟩
  | .data => some (parseData caster outcomes socketFd buffer)

theorem checkedServerConnectRequest_eq (caster : NtripCaster) (outcomes : SendOutcomes)
    (lines : List Bytes) (socketFd : Fd) :
    checkedServerConnectRequest caster outcomes lines socketFd =
      some (serverConnectRequest caster outcomes lines socketFd) := by
  unfold checkedServerConnectRequest
  rw [checkedReadServerLines_eq]
  generalize serverConnectRequest caster outcomes lines socketFd = response
  cases readServerLines caster.mountPointInfos {} lines with
  | error refusal => rfl
  | ok fields =>
      dsimp only
      rw [checkedReadStrLines_eq, Option.map_some]

theorem checkedClientConnectRequest_eq (caster : NtripCaster) (outcomes : SendOutcomes)
    (lines : List Bytes) (socketFd : Fd) :
    checkedClientConnectRequest caster outcomes lines socketFd =
      some (clientConnectRequest caster outcomes lines socketFd) := by
  rw [checkedClientConnectRequest, checkedReadClientLines_eq, Option.map_some]

/-- No buffer, whatever its bytes and whatever the tables, makes the request
path leave a string or a vector. -/
theorem checkedParseData_eq (caster : NtripCaster) (outcomes : SendOutcomes) (socketFd : Fd)
    (buffer : Bytes) :
    checkedParseData caster outcomes socketFd buffer =
      some (parseData caster outcomes socketFd buffer) := by
  have lines : checkedStringSplit buffer crlf true = some (requestLines buffer) :=
    checkedStringSplit_eq true (List.cons_ne_nil _ _)
  unfold checkedParseData
  rw [lines]
  cases kind : dispatch buffer with
  | post =>
      have response : parseData caster outcomes socketFd buffer =
          serverConnectRequest caster outcomes (requestLines buffer) socketFd := by
        simp only [parseData, kind]
      rw [response]
      exact checkedServerConnectRequest_eq caster outcomes (requestLines buffer) socketFd
  | get =>
      have response : parseData caster outcomes socketFd buffer =
          clientConnectRequest caster outcomes (requestLines buffer) socketFd := by
        simp only [parseData, kind]
      rw [response]
      exact checkedClientConnectRequest_eq caster outcomes (requestLines buffer) socketFd
  | unknownVersion =>
      simp only [parseData, kind, Option.map_some]
  | data => rfl

end Ntrip
