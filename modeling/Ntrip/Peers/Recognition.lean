import Mathlib.Tactic.IntervalCases
import Ntrip.Caster.Outcomes
import Ntrip.Caster.RequestLines
import Ntrip.Peers.Request

namespace Ntrip

/-!
# How the caster reads the peers' requests

The handlers recognise a line by a literal anywhere in it.  For the texts of
the two peers this comes down to three questions: whether the token contains
the method's name, and what the source-table string contains.  Every other
line is settled by a letter that the literal has and the line lacks.
-/

open Sequence

/-! ## The letters of the parts -/

theorem mem_digitText {number : Nat} {letter : UInt8} (member : letter ∈ digitText number) :
    letter ∈ ascii "0123456789" := by
  have all : ∀ code, 48 ≤ code → code ≤ 57 → code.toUInt8 ∈ ascii "0123456789" := by
    intro code low high
    interval_cases code <;> decide
  rcases List.mem_map.mp member with ⟨digit, listed, rfl⟩
  have isDigit := Nat.isDigit_of_mem_toDigits (by decide) (by decide) listed
  simp only [Char.isDigit, Bool.and_eq_true, decide_eq_true_eq] at isDigit
  exact all digit.toNat isDigit.1 isDigit.2

theorem mem_decimal {number : Int} {letter : UInt8} (member : letter ∈ decimal number) :
    letter ∈ ascii "-0123456789" := by
  rcases List.mem_append.mp member with sign | digit
  · split_ifs at sign with negative
    · exact List.mem_append_left (ascii "0123456789") sign
    · exact absurd sign List.not_mem_nil
  · exact List.mem_append_right (ascii "-") (mem_digitText digit)

theorem mem_version {build : Build} {letter : UInt8} (member : letter ∈ build.version) :
    letter ∈ ascii "." ++ lowerHex := by
  have digit : ∀ number, letter ∈ digitText number → letter ∈ ascii "." ++ lowerHex := by
    intro number inDigits
    have digits : ascii "0123456789" ⊆ ascii "." ++ lowerHex := by decide
    exact digits (mem_digitText inDigits)
  have dot : letter ∈ ascii "." → letter ∈ ascii "." ++ lowerHex := List.mem_append_left lowerHex
  simp only [Build.version, List.mem_append] at member
  rcases member with (((((major | sep) | minor) | sep) | patch) | sep) | hash
  · exact digit _ major
  · exact dot sep
  · exact digit _ minor
  · exact dot sep
  · exact digit _ patch
  · exact dot sep
  · exact List.mem_append_right (ascii ".") (build.gitHash_hex hash)

/-- The letters of a token. -/
def tokenAlphabet : Bytes := kBase64CodeTable ++ [paddingSign]

theorem mem_token {build : Build} {account : Account} {letter : UInt8}
    (member : letter ∈ account.token build) : letter ∈ tokenAlphabet := by
  rcases base64Encode_letters build.charKind _ letter member with code | padding
  · exact List.mem_append_left [paddingSign] code
  · exact List.mem_append_right kBase64CodeTable (List.mem_singleton.mpr padding)

theorem not_mem_token {build : Build} {account : Account} {letter : UInt8}
    (absent : letter ∉ tokenAlphabet) : letter ∉ account.token build :=
  fun member => absent (mem_token member)

theorem cStr_token (build : Build) (account : Account) :
    cStr (userPasswdBase64 build account.user account.passwd) = account.token build :=
  cStr_of_notMem (not_mem_token (by decide))

/-! ## The shapes of lines -/

/-- A request line behind its method, as `StringSplit` hands it on. -/
def methodLine (method : String) (mountPoint : Bytes) : Bytes :=
  ascii method ++ space :: slash :: (mountPoint ++ space :: (ascii "HTTP/1.1" ++ crlf))

/-- A header line, as `StringSplit` hands it on. -/
def headerLine (name value : Bytes) : Bytes :=
  name ++ space :: (value ++ carriageReturn :: [lineFeed])

def authorizationName : Bytes := ascii "Authorization: Basic"
def strName : Bytes := ascii "Ntrip-STR:"

theorem requestPath_methodLine {method : String} {mountPoint : Bytes}
    (freshMethod : slash ∉ ascii method) (fresh : space ∉ mountPoint) :
    requestPath (methodLine method mountPoint) = some mountPoint := by
  have shape : methodLine method mountPoint = (ascii method ++ [space]) ++
      slash :: (mountPoint ++ space :: (ascii "HTTP/1.1" ++ crlf)) := by
    simp [methodLine]
  have freshFront : slash ∉ ascii method ++ [space] := by
    simp only [List.mem_append, not_or]
    exact ⟨freshMethod, by decide⟩
  rw [shape, requestPath_append _ freshFront fresh]

theorem mentions_methodLine (method : String) (mountPoint : Bytes) :
    mentions (methodLine method mountPoint) method = true :=
  (mentions_iff _ _).mpr (List.infix_append' [] (ascii method) _)

/-- A literal without blanks and line ends is in a header line when it is in
its name or in its value. -/
theorem infix_headerLine_iff {pattern : Bytes} (name value : Bytes) (noSpace : space ∉ pattern)
    (noReturn : carriageReturn ∉ pattern) (noFeed : ¬ pattern <:+: [lineFeed]) :
    pattern <:+: headerLine name value ↔ pattern <:+: name ∨ pattern <:+: value := by
  rw [headerLine, infix_letter_iff noSpace, infix_letter_iff noReturn]
  simp only [noFeed, or_false]

/-- A line whose only slashes are in its last word has no mount point. -/
theorem requestPath_lastWord {front word : Bytes} (freshFront : slash ∉ front)
    (freshWord : space ∉ word) : requestPath (front ++ word) = none := by
  by_cases member : slash ∈ word
  · rcases List.eq_append_cons_of_mem member with ⟨inner, back, shape, freshInner⟩
    have freshBack : space ∉ back := by
      intro inBack
      rw [shape] at freshWord
      exact freshWord (List.mem_append_right inner (List.mem_cons_of_mem slash inBack))
    have fresh : slash ∉ front ++ inner := by
      simp only [List.mem_append, not_or]
      exact ⟨freshFront, freshInner⟩
    rw [shape, ← List.append_assoc, requestPath_of_no_space fresh freshBack]
  · apply requestPath_of_no_slash
    simp only [List.mem_append, not_or]
    exact ⟨freshFront, member⟩

/-- The mount point that a header line yields is that of its value. -/
theorem requestPath_headerLine_iff {name value mountPoint : Bytes} (freshName : slash ∉ name) :
    requestPath (headerLine name value) = some mountPoint ↔
      ∃ front rest, value = front ++ slash :: (mountPoint ++ space :: rest) ∧ slash ∉ front ∧
        space ∉ mountPoint := by
  have behind : ∀ front, slash ∉ front → slash ∉ name ++ space :: front := by
    intro front fresh
    simp only [List.mem_append, List.mem_cons, not_or]
    exact ⟨freshName, by decide, fresh⟩
  have evaluate : ∀ front path rest, slash ∉ front → space ∉ path →
      value = front ++ slash :: (path ++ space :: rest) →
      requestPath (headerLine name value) = some path := by
    intro front path rest freshFront freshPath shape
    have line : headerLine name value = (name ++ space :: front) ++
        slash :: (path ++ space :: (rest ++ carriageReturn :: [lineFeed])) := by
      simp [headerLine, shape]
    rw [line, requestPath_append _ (behind front freshFront) freshPath]
  constructor
  · intro read
    by_cases slashIn : slash ∈ value
    · rcases List.eq_append_cons_of_mem slashIn with ⟨front, back, shape, freshFront⟩
      by_cases spaceIn : space ∈ back
      · rcases List.eq_append_cons_of_mem spaceIn with ⟨path, rest, backShape, freshPath⟩
        rw [backShape] at shape
        rw [evaluate front path rest freshFront freshPath shape] at read
        rw [← Option.some.inj read]
        exact ⟨front, rest, shape, freshFront, freshPath⟩
      · have line : headerLine name value =
            (name ++ space :: front) ++ slash :: (back ++ carriageReturn :: [lineFeed]) := by
          simp [headerLine, shape]
        have freshBack : space ∉ back ++ carriageReturn :: [lineFeed] := by
          rw [List.mem_append, not_or]
          exact ⟨spaceIn, by decide⟩
        rw [line, requestPath_of_no_space (behind front freshFront) freshBack] at read
        cases read
    · have absent : slash ∉ headerLine name value := by
        simp only [headerLine, List.mem_append, List.mem_cons, not_or]
        exact ⟨freshName, by decide, slashIn, by decide⟩
      rw [requestPath_of_no_slash absent] at read
      cases read
  · rintro ⟨front, rest, shape, freshFront, freshPath⟩
    exact evaluate front mountPoint rest freshFront freshPath shape

/-- The account that a header line yields is read from its last word. -/
theorem readCredentials_headerLine_iff {name value word : Bytes} {account : Credentials}
    (lastWord : ∃ front, name ++ space :: value = front ++ space :: word)
    (freshWord : space ∉ word) (oneLine : carriageReturn ∉ word) :
    readCredentials (headerLine name value) = some account ↔
      base64Decode word = some (account.user ++ colon :: account.passwd) ∧
        colon ∉ account.user := by
  rcases lastWord with ⟨front, shape⟩
  have line : headerLine name value = front ++ space :: (word ++ carriageReturn :: [lineFeed]) := by
    have behind := congrArg (· ++ carriageReturn :: [lineFeed]) shape
    simpa [headerLine] using behind
  have token : headerToken (headerLine name value) = some word := by
    rw [line, headerToken_append _ freshWord (by decide) oneLine]
  rw [readCredentials_eq_some]
  constructor
  · rintro ⟨other, read, userPasswd, decoded, split⟩
    rw [token] at read
    rcases splitCredentials_eq_some split with ⟨parts, fresh⟩
    rw [Option.some.inj read, decoded, parts]
    exact ⟨rfl, fresh⟩
  · rintro ⟨decoded, fresh⟩
    exact ⟨word, token, _, decoded, splitCredentials_append account.passwd fresh⟩

/-- The token of an account decodes to its user and the password as stored. -/
theorem base64Decode_token (build : Build) (account : Account) :
    base64Decode (account.token build) =
      some (account.user ++ colon :: account.storedPasswd) := by
  have nonempty : account.user ++ [colon] ++ account.passwd ≠ [] := by simp
  have decoded := base64Decode_base64Encode build.charKind _ nonempty account.short
  rw [List.append_assoc, List.append_assoc] at decoded
  rw [Account.token, userPasswdBase64, Account.storedPasswd, List.append_assoc]
  exact decoded

theorem storedPasswd_nonempty (account : Account) : account.storedPasswd ≠ [] :=
  List.append_ne_nil_of_left_ne_nil account.passwd_nonempty _

/-! ## Lines that no loop looks at -/

/-- A line that a header loop passes over, for the given method. -/
structure Inert (method : String) (line : Bytes) : Prop where
  method : mentions line method = false
  authorization : mentions line "Authorization: Basic" = false
  ntripStr : mentions line "Ntrip-STR: " = false

theorem mentions_of_alphabet {line alphabet : Bytes} {literal : String} (letter : UInt8)
    (within : line ⊆ alphabet) (member : letter ∈ ascii literal) (absent : letter ∉ alphabet) :
    mentions line literal = false :=
  (mentions_eq_false_iff line literal).mpr
    (not_infix_of_notMem member (fun inLine => absent (within inLine)))

/-- The `Host` line, as `StringSplit` hands it on. -/
def hostLine (ip : DottedDecimal) (port : Int) : Bytes :=
  ascii "Host: " ++ ip.bytes ++ ascii ":" ++ decimal port ++ crlf

/-- The `User-Agent` line, as `StringSplit` hands it on. -/
def agentLine (agent : Bytes) : Bytes :=
  ascii "User-Agent: " ++ agent ++ crlf

def hostAlphabet : Bytes := ascii "Host: .-0123456789\r\n"
def agentAlphabet (program : String) : Bytes :=
  ascii "User-Agent: NTRIP/." ++ ascii program ++ lowerHex ++ crlf

theorem hostLine_subset (ip : DottedDecimal) (port : Int) :
    hostLine ip port ⊆ hostAlphabet := by
  have name : ascii "Host: " ⊆ hostAlphabet := by decide
  have address : ascii "0123456789." ⊆ hostAlphabet := by decide
  have separator : ascii ":" ⊆ hostAlphabet := by decide
  have number : ascii "-0123456789" ⊆ hostAlphabet := by decide
  have finish : crlf ⊆ hostAlphabet := by decide
  intro letter member
  simp only [hostLine, List.mem_append] at member
  rcases member with (((inName | inAddress) | inSeparator) | inNumber) | inFinish
  · exact name inName
  · exact address (ip.letters inAddress)
  · exact separator inSeparator
  · exact number (mem_decimal inNumber)
  · exact finish inFinish

theorem agentLine_subset (program : String) (build : Build) :
    agentLine (ascii "NTRIP " ++ ascii program ++ ascii "/" ++ build.version) ⊆
      agentAlphabet program := by
  have fixed : ∀ text : Bytes, text ⊆ ascii "User-Agent: NTRIP/." → text ⊆ agentAlphabet program :=
    fun text within letter member => by
      simp only [agentAlphabet, List.mem_append]
      exact Or.inl (Or.inl (Or.inl (within member)))
  intro letter member
  simp only [agentLine, List.mem_append] at member
  rcases member with (inName | (((inNtrip | inProgram) | inSlash) | inVersion)) | inFinish
  · exact fixed (ascii "User-Agent: ") (by decide) inName
  · exact fixed (ascii "NTRIP ") (by decide) inNtrip
  · simp only [agentAlphabet, List.mem_append]
    exact Or.inl (Or.inl (Or.inr inProgram))
  · exact fixed (ascii "/") (by decide) inSlash
  · rcases List.mem_append.mp (mem_version inVersion) with dot | hex
    · exact fixed (ascii ".") (by decide) dot
    · simp only [agentAlphabet, List.mem_append]
      exact Or.inl (Or.inr hex)
  · simp only [agentAlphabet, List.mem_append]
    exact Or.inr inFinish

theorem hostLine_inert (ip : DottedDecimal) (port : Int) : Inert "POST" (hostLine ip port) where
  method := mentions_of_alphabet 80 (hostLine_subset ip port) (by decide) (by decide)
  authorization := mentions_of_alphabet 65 (hostLine_subset ip port) (by decide) (by decide)
  ntripStr := mentions_of_alphabet 112 (hostLine_subset ip port) (by decide) (by decide)

theorem versionLine_inert : Inert "POST" (ascii "Ntrip-Version: Ntrip/2.0" ++ crlf) where
  method := by decide
  authorization := by decide
  ntripStr := by decide

theorem closeLine_inert : Inert "POST" (ascii "Connection: close" ++ crlf) where
  method := by decide
  authorization := by decide
  ntripStr := by decide

theorem chunkedLine_inert : Inert "POST" (ascii "Transfer-Encoding: chunked" ++ crlf) where
  method := by decide
  authorization := by decide
  ntripStr := by decide

theorem serverAgentLine_inert (build : Build) :
    Inert "POST" (agentLine (kServerAgent build)) := by
  have within : agentLine (kServerAgent build) ⊆ agentAlphabet "NTRIPServer" :=
    agentLine_subset "NTRIPServer" build
  constructor
  · exact mentions_of_alphabet 79 within (by decide) (by decide)
  · exact mentions_of_alphabet 66 within (by decide) (by decide)
  · exact mentions_of_alphabet 112 within (by decide) (by decide)

theorem clientAgentLine_inert (build : Build) :
    Inert "GET" (agentLine (kClientAgent build)) := by
  have within : agentLine (kClientAgent build) ⊆ agentAlphabet "NTRIPClient" :=
    agentLine_subset "NTRIPClient" build
  constructor
  · exact mentions_of_alphabet 71 within (by decide) (by decide)
  · exact mentions_of_alphabet 66 within (by decide) (by decide)
  · exact mentions_of_alphabet 112 within (by decide) (by decide)

end Ntrip
