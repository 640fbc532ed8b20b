import Ntrip.Caster.Requests

namespace Ntrip

/-!
# What the line readers return

Each position computation of the handlers as an equation between a line and
its parts.  The mount point of a request line is the text between the first
slash and the next space; a token is the text behind the last space, up to
the carriage return; an account is split at its first colon.
-/

open Sequence

theorem space_notMem_slash_cons {text : Bytes} (fresh : space ∉ text) : space ∉ slash :: text := by
  intro member
  rcases List.mem_cons.mp member with same | later
  · revert same
    decide
  · exact fresh later

/-! ## Request lines -/

theorem requestPath_append {front path : Bytes} (rest : Bytes) (freshFront : slash ∉ front)
    (freshPath : space ∉ path) :
    requestPath (front ++ slash :: (path ++ space :: rest)) = some path := by
  have beg := find_letter_append front (path ++ space :: rest) slash freshFront
  have fin : findFrom (front ++ slash :: (path ++ space :: rest)) [space] front.length =
      some (path.length + 1 + front.length) := by
    have shape : slash :: (path ++ space :: rest) = (slash :: path) ++ space :: rest := rfl
    rw [findFrom_append, shape, find_letter_append _ _ _ (space_notMem_slash_cons freshPath)]
    rfl
  have inner : substr (front ++ slash :: (path ++ space :: rest)) (front.length + 1) path.length =
      path := by
    have shape : front ++ slash :: (path ++ space :: rest) =
        (front ++ [slash]) ++ (path ++ space :: rest) := by simp
    have length : front.length + 1 = (front ++ [slash]).length := by simp
    rw [shape, length, substr_append]
  have count : path.length + 1 + front.length - front.length - 1 = path.length := by omega
  rw [requestPath, beg]
  simp only [fin]
  rw [if_neg (by omega), count, inner]

theorem requestPath_of_no_slash {line : Bytes} (absent : slash ∉ line) :
    requestPath line = none := by
  rw [requestPath, find_letter_eq_none absent]

theorem requestPath_of_no_space {front back : Bytes} (freshFront : slash ∉ front)
    (absent : space ∉ back) : requestPath (front ++ slash :: back) = none := by
  have fin : findFrom (front ++ slash :: back) [space] front.length = none := by
    rw [findFrom_append, find_letter_eq_none (space_notMem_slash_cons absent)]
    rfl
  rw [requestPath, find_letter_append front back slash freshFront]
  simp only [fin]

theorem requestPath_eq_some {line path : Bytes} (read : requestPath line = some path) :
    ∃ front rest, line = front ++ slash :: (path ++ space :: rest) ∧ slash ∉ front ∧
      space ∉ path := by
  by_cases slashIn : slash ∈ line
  · rcases List.eq_append_cons_of_mem slashIn with ⟨front, back, rfl, freshFront⟩
    by_cases spaceIn : space ∈ back
    · rcases List.eq_append_cons_of_mem spaceIn with ⟨inner, rest, rfl, freshInner⟩
      rw [requestPath_append rest freshFront freshInner] at read
      rw [← Option.some.inj read]
      exact ⟨front, rest, rfl, freshFront, freshInner⟩
    · rw [requestPath_of_no_space freshFront spaceIn] at read
      cases read
  · rw [requestPath_of_no_slash slashIn] at read
    cases read

/-! ## Header lines -/

theorem headerToken_append (front : Bytes) {token rest : Bytes} (freshToken : space ∉ token)
    (freshRest : space ∉ rest) (oneLine : carriageReturn ∉ token) :
    headerToken (front ++ space :: (token ++ carriageReturn :: rest)) = some token := by
  have freshBehind : space ∉ token ++ carriageReturn :: rest := by
    intro member
    rcases List.mem_append.mp member with inToken | inRest
    · exact freshToken inToken
    · rcases List.mem_cons.mp inRest with same | later
      · revert same
        decide
      · exact freshRest later
  have freshLine : carriageReturn ∉ space :: token := by
    intro member
    rcases List.mem_cons.mp member with same | later
    · revert same
      decide
    · exact oneLine later
  have fin : findFrom (front ++ space :: (token ++ carriageReturn :: rest)) [carriageReturn]
      front.length = some (token.length + 1 + front.length) := by
    have shape : space :: (token ++ carriageReturn :: rest) =
        (space :: token) ++ carriageReturn :: rest := rfl
    rw [findFrom_append, shape, find_letter_append _ _ _ freshLine]
    rfl
  have inner : substr (front ++ space :: (token ++ carriageReturn :: rest)) (front.length + 1)
      token.length = token := by
    have shape : front ++ space :: (token ++ carriageReturn :: rest) =
        (front ++ [space]) ++ (token ++ carriageReturn :: rest) := by simp
    have length : front.length + 1 = (front ++ [space]).length := by simp
    rw [shape, length, substr_append]
  have count : token.length + 1 + front.length - front.length - 1 = token.length := by omega
  rw [headerToken, findLast_append front _ space freshBehind]
  simp only [fin]
  rw [if_neg (by omega), count, inner]

theorem splitCredentials_append {user : Bytes} (passwd : Bytes) (fresh : colon ∉ user) :
    splitCredentials (user ++ colon :: passwd) = some ⟨user, passwd⟩ := by
  have first : substr (user ++ colon :: passwd) 0 user.length = user := by
    rw [substr, List.drop_zero, List.take_left]
  have second : substr (user ++ colon :: passwd) (user.length + 1)
      ((user ++ colon :: passwd).length - user.length) = passwd := by
    have shape : user ++ colon :: passwd = (user ++ [colon]) ++ passwd := by simp
    have length : user.length + 1 = (user ++ [colon]).length := by simp
    rw [substr, length, shape, List.drop_left, List.take_of_length_le]
    simp only [List.length_append]
    omega
  rw [splitCredentials, find_letter_append user passwd colon fresh]
  simp only [first, second]

theorem splitCredentials_eq_some {userPasswd : Bytes} {account : Credentials}
    (read : splitCredentials userPasswd = some account) :
    userPasswd = account.user ++ colon :: account.passwd ∧ colon ∉ account.user := by
  by_cases member : colon ∈ userPasswd
  · rcases List.eq_append_cons_of_mem member with ⟨user, passwd, rfl, fresh⟩
    rw [splitCredentials_append passwd fresh] at read
    rw [← Option.some.inj read]
    exact ⟨rfl, fresh⟩
  · rw [splitCredentials, find_letter_eq_none member] at read
    cases read

theorem readCredentials_eq_some {line : Bytes} {account : Credentials} :
    readCredentials line = some account ↔
      ∃ token, headerToken line = some token ∧
        ∃ userPasswd, base64Decode token = some userPasswd ∧
          splitCredentials userPasswd = some account := by
  rw [readCredentials, Option.bind_eq_bind, Option.bind_eq_some_iff]
  exact exists_congr fun token => and_congr_right fun _ => Option.bind_eq_some_iff

theorem colon_notMem_user {line : Bytes} {account : Credentials}
    (read : readCredentials line = some account) : colon ∉ account.user := by
  rcases readCredentials_eq_some.mp read with ⟨_, _, _, _, split⟩
  exact (splitCredentials_eq_some split).2

theorem strText_append {front : Bytes} (text : Bytes) (fresh : space ∉ front) :
    strText (front ++ space :: text) = text := by
  have shape : front ++ space :: text = (front ++ [space]) ++ text := by simp
  have length : front.length + 1 = (front ++ [space]).length := by simp
  rw [strText, find_letter_append front text space fresh]
  simp only [substr]
  rw [length, shape, List.drop_left, List.take_of_length_le]
  simp only [List.length_append]
  omega

theorem mem_of_mem_strText {letter : UInt8} {line : Bytes} (member : letter ∈ strText line) :
    letter ∈ line := by
  rw [strText] at member
  split at member
  · exact List.mem_of_mem_drop (List.mem_of_mem_take member)
  · exact member

end Ntrip
