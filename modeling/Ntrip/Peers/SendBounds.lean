import Ntrip.Caster.ThreadHandler
import Ntrip.Peers.Credentials
import Ntrip.Util.Base64Standard

namespace Ntrip

/-!
# How much the formatted texts may hold

`snprintf` answers with the length of the whole text, and `send` is given that
length.  The peers and the source table of the caster have their requests and
replies out completely while the text fits into the buffer; beyond it, `send`
reads bytes that were never written.  The bounds are stated by the lengths
of what the texts are made from.
-/

/-! ## The source table -/

def kCasterAgent (build : Build) : Bytes := ascii "NTRIP NTRIPCaster/" ++ build.version

/-- The text that `SendSourceTableData` formats, for what `strftime` has
written. -/
def sourceTableText (build : Build) (ntripStrList : List Bytes) (datetime : Bytes) : Bytes :=
  joinLines crlf
    [ascii "SOURCETABLE 200 OK",
      ascii "Server: " ++ kCasterAgent build,
      ascii "Content-Type: text/plain",
      ascii "Content-Length: " ++ decimal (toInt ntripStrList.flatten.length),
      ascii "Date: " ++ cStr datetime,
      []] ++
    cStr ntripStrList.flatten ++ joinLines crlf [ascii "ENDSOURCETABLE"]

/-- The bytes that `SendSourceTableData` passes to `send`; `none` when there
are more than `snprintf` has stored. -/
def sendSourceTableData (build : Build) (ntripStrList : List Bytes) (datetime : Bytes) :
    Option Bytes :=
  let (len, buffer) := snprintf (kBufferSize - 1) (sourceTableText build ntripStrList datetime)
  if len ≤ buffer.length then some (buffer.take len) else none

theorem sendSourceTableData_isSome (build : Build) (ntripStrList : List Bytes)
    (datetime : Bytes) :
    (sendSourceTableData build ntripStrList datetime).isSome = true ↔
      (sourceTableText build ntripStrList datetime).length ≤ 65534 := by
  simp only [sendSourceTableData, snprintf, kBufferSize, List.length_take]
  split
  · exact iff_of_true rfl (by omega)
  · exact iff_of_false Bool.false_ne_true (by omega)

/-! ## The length of a token -/

/-- The length of what the encoder makes of so many bytes. -/
def encodedLength (size : Nat) : Nat :=
  4 * (((toInt size).toNat + 2) / 3)

theorem add_userPasswdBase64_le_iff (build : Build) (user passwd : Bytes) (others : Nat)
    {limit : Nat} (small : limit ≤ 2 ^ 30) :
    others + (userPasswdBase64 build user passwd).length ≤ limit ↔
      others + encodedLength (user.length + 1 + passwd.length) ≤ limit := by
  have token := base64Encode_length_le_iff build.charKind (user ++ [colon] ++ passwd)
    (show limit - others ≤ 2 ^ 30 by omega)
  rw [List.length_append, List.length_append, List.length_singleton] at token
  unfold userPasswdBase64 encodedLength
  by_cases room : others ≤ limit
  · omega
  · omega

theorem cStr_userPasswdBase64 (build : Build) (user passwd : Bytes) :
    cStr (userPasswdBase64 build user passwd) = userPasswdBase64 build user passwd := by
  apply cStr_of_notMem
  intro member
  rcases base64Encode_letters build.charKind _ 0 member with code | padding
  · exact absurd code (by decide)
  · exact absurd padding (by decide)

/-! ## The lengths of the texts -/

theorem length_ascii (text : String) : (ascii text).length = text.toList.length :=
  List.length_map _

theorem NtripClient.request_length (build : Build) (client : NtripClient)
    (noNul : 0 ∉ client.mountpoint) :
    (client.request build).length = 73 + build.version.length + client.mountpoint.length +
      (userPasswdBase64 build client.user client.passwd).length := by
  rw [request, formatLines, cStr_of_notMem noNul, cStr_userPasswdBase64]
  simp only [joinLines_cons, List.length_append]
  simp [length_ascii, crlf, kClientAgent, joinLines]
  omega

theorem NtripServer.request_length (build : Build) (server : NtripServer)
    (mountNoNul : 0 ∉ server.mountpoint) (ipNoNul : 0 ∉ server.serverIp)
    (strNoNul : 0 ∉ server.ntripStr) :
    (server.request build).length = 167 + build.version.length + server.mountpoint.length +
      server.serverIp.length + (decimal server.serverPort).length +
      (userPasswdBase64 build server.user server.passwd).length + server.ntripStr.length := by
  rw [request, formatLines, cStr_of_notMem mountNoNul, cStr_of_notMem ipNoNul,
    cStr_of_notMem strNoNul, cStr_userPasswdBase64]
  simp only [joinLines_cons, List.length_append]
  simp [length_ascii, crlf, kServerAgent, joinLines]
  omega

theorem sourceTableText_length (build : Build) (ntripStrList : List Bytes) (datetime : Bytes)
    (listNoNul : ∀ ntripStr ∈ ntripStrList, 0 ∉ ntripStr) (dateNoNul : 0 ∉ datetime) :
    (sourceTableText build ntripStrList datetime).length = 118 + build.version.length +
      (decimal (toInt (ntripStrList.map List.length).sum)).length + datetime.length +
      (ntripStrList.map List.length).sum := by
  have noNul : 0 ∉ ntripStrList.flatten := by
    intro member
    rcases List.mem_flatten.mp member with ⟨ntripStr, listed, inside⟩
    exact listNoNul ntripStr listed inside
  rw [sourceTableText, cStr_of_notMem noNul, cStr_of_notMem dateNoNul]
  simp only [joinLines_cons, List.length_append, List.length_flatten]
  simp [length_ascii, crlf, kCasterAgent, joinLines]
  omega

/-! ## What goes out -/

/-- A peer's request goes out whole, and the source table without bytes from
behind its text, exactly while the fields leave room for it. -/
theorem requests_complete_iff (build : Build) (client : NtripClient) (server : NtripServer)
    (ntripStrList : List Bytes) (datetime : Bytes) (clientNoNul : 0 ∉ client.mountpoint)
    (mountNoNul : 0 ∉ server.mountpoint) (ipNoNul : 0 ∉ server.serverIp)
    (strNoNul : 0 ∉ server.ntripStr) (listNoNul : ∀ ntripStr ∈ ntripStrList, 0 ∉ ntripStr)
    (dateNoNul : 0 ∉ datetime) :
    (sendFormatted (client.request build) = some (client.request build) ↔
      73 + build.version.length + client.mountpoint.length +
        encodedLength (client.user.length + 1 + client.passwd.length) ≤ 4094) ∧
    (sendFormatted (server.request build) = some (server.request build) ↔
      167 + build.version.length + server.mountpoint.length + server.serverIp.length +
        (decimal server.serverPort).length + server.ntripStr.length +
        encodedLength (server.user.length + 1 + server.passwd.length) ≤ 4094) ∧
    ((sendSourceTableData build ntripStrList datetime).isSome = true ↔
      118 + build.version.length + (decimal (toInt (ntripStrList.map List.length).sum)).length +
        datetime.length + (ntripStrList.map List.length).sum ≤ 65534) := by
  have whole : ∀ text, sendFormatted text = some text ↔ text.length ≤ 4094 := by
    intro text
    rw [sendFormatted_eq_some]
    exact and_iff_right rfl
  refine ⟨?_, ?_, ?_⟩
  · rw [whole, client.request_length build clientNoNul]
    exact add_userPasswdBase64_le_iff build client.user client.passwd _ (by decide)
  · rw [whole, server.request_length build mountNoNul ipNoNul strNoNul, Nat.add_right_comm]
    exact add_userPasswdBase64_le_iff build server.user server.passwd _ (by decide)
  · rw [sendSourceTableData_isSome,
      sourceTableText_length build ntripStrList datetime listNoNul dateNoNul]

/-- An ordinary client, server and source table have room. -/
theorem requests_complete_mountA :
    sendFormatted ((mountA.client userPass).request release) =
        some ((mountA.client userPass).request release) ∧
    sendFormatted ((mountA.server strA userPass localhost 8090).request release) =
        some ((mountA.server strA userPass localhost 8090).request release) ∧
    (sendSourceTableData release [strA.bytes ++ crlf] (ascii "06/28/20 12:00:00 UTC")).isSome =
      true := by
  rcases requests_complete_iff release (mountA.client userPass)
    (mountA.server strA userPass localhost 8090) [strA.bytes ++ crlf]
    (ascii "06/28/20 12:00:00 UTC") (by decide) (by decide) (by decide) (by decide) (by decide)
    (by decide) with ⟨get, post, table⟩
  exact ⟨get.mpr (by decide), post.mpr (by decide), table.mpr (by decide)⟩

/-- A client with a mount point as long as the buffer. -/
def longMount : NtripClient where
  user := ascii "u"
  passwd := ascii "p"
  mountpoint := List.replicate 4096 97

theorem requests_complete_fails :
    ¬ ∀ (build : Build) (client : NtripClient),
      0 ∉ client.user → 0 ∉ client.passwd → 0 ∉ client.mountpoint →
      sendFormatted (client.request build) = some (client.request build) := by
  intro always
  have noNul : 0 ∉ longMount.mountpoint := by
    intro member
    exact absurd (List.eq_of_mem_replicate member) (by decide)
  have length := longMount.request_length release noNul
  have long : longMount.mountpoint.length = 4096 := List.length_replicate
  have short := (sendFormatted_eq_some.mp
    (always release longMount (by decide) (by decide) noNul)).2
  omega

end Ntrip
