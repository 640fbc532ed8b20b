import Ntrip.Peers.SendBounds

namespace Ntrip

/-!
# Reading the source table

`SendSourceTableData` formats the registered strings one behind the other,
and nothing separates them but the line ends that they carry.  Every string is
what one line of a request has behind its first space, and `StringSplit` has
put the line end there; so no string runs into the next one and none falls
apart, and a reader that splits the reply at the line ends finds them all.
-/

open Sequence

/-- The text ends where its line end begins. -/
def OneLine (text : Bytes) : Prop :=
  FirstOccurrence crlf (text ++ crlf) text []

/-- A string of the source table: nothing, or one line with its end. -/
def SourceString (str : Bytes) : Prop :=
  str = [] ∨ ∃ text, str = text ++ crlf ∧ OneLine text

/-! ## The lines of a request -/

/-- A text without a line end has none before the one that follows. -/
theorem oneLine_of_notInfix {text : Bytes} (absent : ¬ crlf <:+: text) : OneLine text := by
  refine ⟨by rw [List.append_nil], ?_⟩
  intro shorter longer split
  by_contra earlier
  rcases List.append_eq_append_iff.mp split with ⟨gap, left, _⟩ | ⟨gap, left, right⟩
  · rw [left, List.length_append] at earlier
    omega
  · rcases gap with _ | ⟨first, _ | ⟨second, gap⟩⟩
    · rw [left, List.append_nil] at earlier
      exact earlier (Nat.le_refl _)
    · exact absurd (List.cons.inj (List.cons.inj right).2).1 (by decide)
    · apply absent
      refine ⟨shorter, gap, ?_⟩
      have heads := List.cons.inj right
      have seconds := List.cons.inj heads.2
      rw [left, ← heads.1, ← seconds.1, List.append_assoc]
      rfl

/-- Every line of a request is one line with its end. -/
theorem requestLines_oneLine {buffer line : Bytes} (member : line ∈ requestLines buffer) :
    ∃ text, line = text ++ crlf ∧ OneLine text := by
  have nonempty : crlf ≠ [] := by decide
  rcases exists_separated nonempty buffer with ⟨pieces, tail, separated⟩
  rw [requestLines, stringSplit_separated separated (by decide)] at member
  rcases List.mem_append.mp member with inPieces | inTail
  · rcases List.mem_map.mp inPieces with ⟨piece, kept, rfl⟩
    exact ⟨piece, rfl, separated.ends.2 piece (List.mem_filter.mp kept).1⟩
  · rw [splitTail] at inTail
    split at inTail
    · rw [List.mem_singleton.mp inTail]
      exact ⟨tail, rfl, oneLine_of_notInfix separated.ends.1⟩
    · cases inTail

/-- What is behind the first space of a line is one line with its end. -/
theorem strText_oneLine {text : Bytes} (one : OneLine text) (spaced : space ∈ text ++ crlf) :
    ∃ rest, strText (text ++ crlf) = rest ++ crlf ∧ OneLine rest := by
  have inText : space ∈ text := by
    rcases List.mem_append.mp spaced with here | ending
    · exact here
    · exact absurd ending (by decide)
  rcases List.eq_append_cons_of_mem inText with ⟨front, rest, rfl, fresh⟩
  refine ⟨rest, ?_, ?_⟩
  · rw [List.append_assoc, List.cons_append, strText_append _ fresh]
  · have shape : front ++ space :: rest = (front ++ [space]) ++ rest := by simp
    rw [OneLine, shape, List.append_assoc] at one
    exact one.drop

theorem readStrLines_sourceString {mountPoint init ntripStr : Bytes} {lines : List Bytes}
    (ends : ∀ line ∈ lines, ∃ text, line = text ++ crlf ∧ OneLine text)
    (first : SourceString init) (read : readStrLines mountPoint init lines = some ntripStr) :
    SourceString ntripStr := by
  induction lines generalizing init with
  | nil => exact Option.some.inj read ▸ first
  | cons line rest inductionHypothesis =>
      have parts := List.forall_mem_cons.mp ends
      rw [readStrLines] at read
      split at read
      · rename_i header
        split at read
        · rcases parts.1 with ⟨text, rfl, one⟩
          have spaced : space ∈ text ++ crlf :=
            ((mentions_iff _ _).mp header).subset (by decide)
          exact inductionHypothesis parts.2 (Or.inr (strText_oneLine one spaced)) read
        · cases read
      · exact inductionHypothesis parts.2 first read

/-! ## Whole runs -/

/-- Every string of the source table is empty or one line with its end. -/
def SourceStrings (sys : System) : Prop :=
  ∀ str ∈ sys.caster.ntripStrList, SourceString str

theorem step_sourceStrings (sys : System) (event : Event) (lines : SourceStrings sys) :
    SourceStrings (sys.step event) := by
  cases event with
  | accept fd => exact lines
  | disconnected fd =>
      intro str member
      refine lines str ?_
      change str ∈ (disconnect sys.caster fd).1.ntripStrList at member
      unfold disconnect at member
      split at member
      · exact List.mem_of_mem_eraseP member
      · exact member
  | received fd buffer outcomes =>
      have outcome := parseData_outcome sys.caster outcomes fd buffer
      change ∀ str ∈ (parseData sys.caster outcomes fd buffer).caster.ntripStrList, SourceString str
      generalize parseData sys.caster outcomes fd buffer = response at outcome ⊢
      cases outcome with
      | registered reads taken =>
          intro str member
          rcases List.mem_append.mp member with old | new
          · exact lines str old
          · rw [List.mem_singleton.mp new]
            exact readStrLines_sourceString (fun _ => requestLines_oneLine) (Or.inl rfl) reads.2.2.1
      | admitted reads split good tried failed accepted => exact lines
      | forwarded kind served => exact lines
      | reported kind served gga => exact lines
      | refused refusal harmless => exact lines

theorem exists_texts {strs : List Bytes} (lines : ∀ str ∈ strs, SourceString str) :
    ∃ texts : List Bytes, (∀ text ∈ texts, OneLine text) ∧
      texts.map (· ++ crlf) = strs.filter (· ≠ []) ∧
        (texts.map (· ++ crlf)).flatten = strs.flatten := by
  induction strs with
  | nil => exact ⟨[], fun _ member => absurd member List.not_mem_nil, rfl, rfl⟩
  | cons str rest inductionHypothesis =>
      have parts := List.forall_mem_cons.mp lines
      rcases inductionHypothesis parts.2 with ⟨texts, ones, same, whole⟩
      rcases parts.1 with rfl | ⟨text, rfl, one⟩
      · exact ⟨texts, ones, same, whole⟩
      · refine ⟨text :: texts, List.forall_mem_cons.mpr ⟨one, ones⟩, ?_, ?_⟩
        · have visible : text ++ crlf ≠ [] := List.append_ne_nil_of_right_ne_nil text (by decide)
          rw [List.map_cons, same]
          rw [List.filter_cons, if_pos (decide_eq_true visible)]
        · rw [List.map_cons, List.flatten_cons, whole, List.flatten_cons]

/-- Lines with their ends are split into those that have a letter. -/
theorem stringSplit_lines {texts : List Bytes} (ones : ∀ text ∈ texts, OneLine text) :
    stringSplit (texts.map (· ++ crlf)).flatten crlf true =
      (texts.map (· ++ crlf)).filter (· ≠ crlf) := by
  have named : ∀ text : Bytes, (text ≠ []) ↔ text ++ crlf ≠ crlf := by
    intro text
    rw [Ne, Ne, List.append_left_eq_self]
  calc stringSplit (texts.map (· ++ crlf)).flatten crlf true
      = (texts.filter (· ≠ [])).map (· ++ crlf) ++ splitTail [] crlf true :=
        stringSplit_separated (separated_flatten ones (by decide)) (by decide) true
    _ = (texts.filter (· ≠ [])).map (· ++ crlf) := by
        rw [show splitTail [] crlf true = [] by decide, List.append_nil]
    _ = (texts.map (· ++ crlf)).filter (· ≠ crlf) := by
        rw [List.filter_map]
        exact congrArg (List.map (· ++ crlf)) (List.filter_congr fun text _ => by simp)

/-! ## The reply -/

/-- The lines above the strings. -/
def sourceTableHeader (build : Build) (ntripStrList : List Bytes) (datetime : Bytes) :
    List Bytes :=
  [ascii "SOURCETABLE 200 OK",
    ascii "Server: " ++ kCasterAgent build,
    ascii "Content-Type: text/plain",
    ascii "Content-Length: " ++ decimal (toInt ntripStrList.flatten.length),
    ascii "Date: " ++ datetime]

theorem oneLine_sourceTableHeader (build : Build) (ntripStrList : List Bytes) {datetime : Bytes}
    (fresh : carriageReturn ∉ datetime) :
    ∀ line ∈ sourceTableHeader build ntripStrList datetime, OneLine line := by
  have plain : ∀ front back : Bytes, carriageReturn ∉ front → carriageReturn ∉ back →
      OneLine (front ++ back) := by
    intro front back absent absent'
    have inNeither : carriageReturn ∉ front ++ back := by
      rw [List.mem_append, not_or]
      exact ⟨absent, absent'⟩
    exact oneLine_of_notInfix (not_infix_of_notMem (show carriageReturn ∈ crlf by decide) inNeither)
  have version : carriageReturn ∉ kCasterAgent build := by
    intro member
    rcases List.mem_append.mp member with name | version
    · exact absurd name (by decide)
    · exact absurd (mem_version version) (by decide)
  have length : carriageReturn ∉ decimal (toInt ntripStrList.flatten.length) :=
    fun member => absurd (mem_decimal member) (by decide)
  intro line member
  simp only [sourceTableHeader, List.mem_cons, List.not_mem_nil, or_false] at member
  rcases member with rfl | rfl | rfl | rfl | rfl
  · exact plain (ascii "SOURCETABLE 200 OK") [] (by decide) (by decide)
  · exact plain _ _ (by decide) version
  · exact plain (ascii "Content-Type: text/plain") [] (by decide) (by decide)
  · exact plain _ _ (by decide) length
  · exact plain _ _ (by decide) fresh

/-- What a reader finds who splits the reply at the line ends. -/
theorem stringSplit_sourceTableText (build : Build) {strs : List Bytes} {datetime : Bytes}
    (lines : ∀ str ∈ strs, SourceString str) (noNul : 0 ∉ strs.flatten) (dateNoNul : 0 ∉ datetime)
    (oneDate : carriageReturn ∉ datetime) :
    stringSplit (sourceTableText build strs datetime) crlf true =
      (sourceTableHeader build strs datetime).map (· ++ crlf) ++
        (strs.filter fun str => str ≠ crlf ∧ str ≠ []) ++ [ascii "ENDSOURCETABLE\r\n"] := by
  rcases exists_texts lines with ⟨texts, ones, same, whole⟩
  have header := oneLine_sourceTableHeader build strs oneDate
  have lettered : ∀ line ∈ sourceTableHeader build strs datetime, line ≠ [] := by
    simp [sourceTableHeader, ascii]
  have visible : ∀ line ∈ (sourceTableHeader build strs datetime).map (· ++ crlf),
      line ≠ crlf := by
    intro line member
    rcases List.mem_map.mp member with ⟨text, inHeader, rfl⟩
    exact fun same => lettered text inHeader (List.append_left_eq_self.mp same)
  have shape : sourceTableText build strs datetime =
      ((sourceTableHeader build strs datetime ++ [] :: texts ++
        [ascii "ENDSOURCETABLE"]).map (· ++ crlf)).flatten := by
    rw [sourceTableText, cStr_of_notMem noNul, cStr_of_notMem dateNoNul, List.map_append,
      List.map_append, List.map_cons, List.flatten_append, List.flatten_append, List.flatten_cons,
      whole]
    simp [joinLines, sourceTableHeader]
  have all : ∀ text ∈ sourceTableHeader build strs datetime ++ [] :: texts ++
      [ascii "ENDSOURCETABLE"], OneLine text := by
    intro text member
    simp only [List.mem_append, List.mem_cons, List.not_mem_nil, or_false] at member
    rcases member with (inHeader | rfl | inTexts) | rfl
    · exact header text inHeader
    · exact oneLine_of_notInfix (by decide)
    · exact ones text inTexts
    · exact oneLine_of_notInfix (by decide)
  have ending : ([[]].map (· ++ crlf)).filter (· ≠ crlf) = [] := by decide
  have mark : ([ascii "ENDSOURCETABLE"].map (· ++ crlf)).filter (· ≠ crlf) =
      [ascii "ENDSOURCETABLE\r\n"] := by
    decide
  have kept : ((sourceTableHeader build strs datetime).map (· ++ crlf)).filter (· ≠ crlf) =
      (sourceTableHeader build strs datetime).map (· ++ crlf) :=
    List.filter_eq_self.mpr fun line member => decide_eq_true (visible line member)
  have strings : (texts.map (· ++ crlf)).filter (· ≠ crlf) =
      strs.filter fun str => str ≠ crlf ∧ str ≠ [] := by
    rw [same, List.filter_filter]
    exact List.filter_congr fun str _ => by simp
  rw [shape, stringSplit_lines all, ← List.singleton_append, List.map_append, List.map_append,
    List.map_append, List.filter_append, List.filter_append, List.filter_append, ending, mark,
    kept, strings, List.nil_append]

/-- What is passed to `send` is the whole text, or more than was stored. -/
theorem sendSourceTableData_eq_some_iff (build : Build) (ntripStrList : List Bytes)
    (datetime reply : Bytes) :
    sendSourceTableData build ntripStrList datetime = some reply ↔
      reply = sourceTableText build ntripStrList datetime ∧
        (sourceTableText build ntripStrList datetime).length ≤ 65534 := by
  have sent := sendSourceTableData_isSome build ntripStrList datetime
  rw [sendSourceTableData, snprintf] at sent ⊢
  dsimp only at sent ⊢
  split
  · rename_i stored
    rw [if_pos stored] at sent
    have fits := sent.mp rfl
    have whole : (sourceTableText build ntripStrList datetime).take (kBufferSize - 1 - 1) =
        sourceTableText build ntripStrList datetime := List.take_of_length_le fits
    rw [whole, List.take_length, Option.some_inj, and_iff_left fits]
    exact eq_comm
  · rename_i cut
    rw [if_neg cut] at sent
    exact iff_of_false (by simp) fun whole => absurd (sent.mpr whole.2) (by simp)

/-- In every run the reply that `SendSourceTableData` passes to `send` splits
into the lines above the strings, the registered strings that have a letter, in
the order of their registration, and the closing mark, exactly while the whole
reply fits into the buffer, as long as no string has a NUL. -/
theorem source_table_reply_splits (build : Build) (datetime : Bytes) (dateNoNul : 0 ∉ datetime)
    (oneDate : carriageReturn ∉ datetime) (events : List Event) :
    Execution.Always System.step
      (fun sys => (∀ str ∈ sys.caster.ntripStrList, 0 ∉ str) →
        ((∃ reply ∈ sendSourceTableData build sys.caster.ntripStrList datetime,
          stringSplit reply crlf true =
            (sourceTableHeader build sys.caster.ntripStrList datetime).map (· ++ crlf) ++
              (sys.caster.ntripStrList.filter fun str => str ≠ crlf ∧ str ≠ []) ++
                [ascii "ENDSOURCETABLE\r\n"]) ↔
          118 + build.version.length +
            (decimal (toInt (sys.caster.ntripStrList.map List.length).sum)).length +
            datetime.length + (sys.caster.ntripStrList.map List.length).sum ≤ 65534))
      System.init events := by
  have first : SourceStrings System.init := fun _ member => absurd member List.not_mem_nil
  refine (Execution.always_of_preserved step_sourceStrings first events).imp ?_
  intro sys lines listNoNul
  have noNul : 0 ∉ sys.caster.ntripStrList.flatten := by
    intro member
    rcases List.mem_flatten.mp member with ⟨str, listed, inside⟩
    exact listNoNul str listed inside
  have splits := stringSplit_sourceTableText build lines noNul dateNoNul oneDate
  rw [← sourceTableText_length build sys.caster.ntripStrList datetime listNoNul dateNoNul]
  constructor
  · rintro ⟨reply, sent, _⟩
    exact ((sendSourceTableData_eq_some_iff _ _ _ reply).mp sent).2
  · intro fits
    exact ⟨_, (sendSourceTableData_eq_some_iff _ _ _ _).mpr ⟨rfl, fits⟩, splits⟩

/-- A server registers a source-table string, another one registers none. -/
def announcing : List Event :=
  [.accept 5,
    .received 5 (ascii "POST /A HTTP/1.1\r\nAuthorization: Basic dTpw\r\nNtrip-STR: STR;A;\r\n")
      (fun _ => true),
    .accept 6,
    .received 6 (ascii "POST /B HTTP/1.1\r\nAuthorization: Basic dTpw\r\n") (fun _ => true)]

theorem source_table_reply_splits_announcing :
    ∃ reply ∈ sendSourceTableData release [ascii "STR;A;\r\n", []] (ascii "01/02/24"),
      stringSplit reply crlf true =
        (sourceTableHeader release [ascii "STR;A;\r\n", []] (ascii "01/02/24")).map (· ++ crlf) ++
          [ascii "STR;A;\r\n"] ++ [ascii "ENDSOURCETABLE\r\n"] := by
  have splits := (source_table_reply_splits release (ascii "01/02/24") (by decide) (by decide)
    announcing).last
  have strings : (Execution.run System.step System.init announcing).caster.ntripStrList =
      [ascii "STR;A;\r\n", []] := by
    decide +kernel
  rw [strings] at splits
  exact (splits (by decide)).mpr (by decide)

end Ntrip
