import Mathlib.Data.List.TakeWhile
import Ntrip.Util.Base64
import Ntrip.Caster.Requests

namespace Ntrip

/-!
# The requests of the two peers

The texts that `NtripServer::Run` and `NtripClient::Run` format and send.
The format strings are written line by line; `joinLines` puts the "\r\n"
behind every line.  The second half packs the values that the two programs
are configured with together with what makes them well formed.
-/

/-! ## Formatting -/

/-- `%s` of `c_str()`: the bytes before the first zero byte. -/
def cStr (text : Bytes) : Bytes :=
  text.takeWhile (· ≠ 0)

theorem cStr_of_notMem {text : Bytes} (fresh : 0 ∉ text) : cStr text = text := by
  apply List.takeWhile_eq_self_iff.mpr
  intro letter member
  exact decide_eq_true (fun zero => fresh (zero ▸ member))

/-- The decimal digits of a number. -/
def digitText (number : Nat) : Bytes :=
  (Nat.toDigits 10 number).map fun letter => letter.toNat.toUInt8

/-- `%d`. -/
def decimal (number : Int) : Bytes :=
  (if number < 0 then ascii "-" else []) ++ digitText number.natAbs

/-- `snprintf`: the length of the whole text, and what the buffer holds of it. -/
def snprintf (size : Nat) (text : Bytes) : Nat × Bytes :=
  (text.length, text.take (size - 1))

/-- `kBufferSize` of both peers. -/
def kSendBufferSize : Nat := 4096

/-- The bytes that the `send` after the `snprintf` passes on; `none` when the
text was cut, so that `send` reads bytes that were never written. -/
def sendFormatted (text : Bytes) : Option Bytes :=
  let (ret, buffer) := snprintf (kSendBufferSize - 1) text
  if ret ≤ buffer.length then some (buffer.take ret) else none

theorem sendFormatted_eq_some {text sent : Bytes} :
    sendFormatted text = some sent ↔ sent = text ∧ text.length ≤ 4094 := by
  simp only [sendFormatted, snprintf, kSendBufferSize, List.length_take]
  constructor
  · intro taken
    split_ifs at taken with fits
    have short : text.length ≤ 4094 := by omega
    rw [← Option.some.inj taken, List.take_take, List.take_of_length_le (by omega)]
    exact ⟨rfl, short⟩
  · rintro ⟨rfl, short⟩
    rw [if_pos (by omega), List.take_take, List.take_of_length_le (by omega)]

/-! ## The build and the configurations -/

def lowerHex : Bytes := ascii "0123456789abcdef"

/-- What the build fixes: the signedness of `char` and the values that the
template of `cmake_definition.h` is filled in with. -/
structure Build where
  charKind : CharKind
  versionMajor : Nat
  versionMinor : Nat
  versionPatch : Nat
  gitHash : Bytes
  gitHash_hex : gitHash ⊆ lowerHex

/-- The version behind the program name in an agent string. -/
def Build.version (build : Build) : Bytes :=
  digitText build.versionMajor ++ ascii "." ++ digitText build.versionMinor ++ ascii "." ++
    digitText build.versionPatch ++ ascii "." ++ build.gitHash

def kServerAgent (build : Build) : Bytes := ascii "NTRIP NTRIPServer/" ++ build.version
def kClientAgent (build : Build) : Bytes := ascii "NTRIP NTRIPClient/" ++ build.version

/-- The members of `NtripServer` that its request is made from. -/
structure NtripServer where
  serverIp : Bytes
  serverPort : Int
  user : Bytes
  passwd : Bytes
  mountpoint : Bytes
  ntripStr : Bytes

/-- The members of `NtripClient` that its request is made from. -/
structure NtripClient where
  user : Bytes
  passwd : Bytes
  mountpoint : Bytes

/-- The token of an `Authorization: Basic` line. -/
def userPasswdBase64 (build : Build) (user passwd : Bytes) : Bytes :=
  (base64Encode build.charKind (user ++ [colon] ++ passwd) []).2

namespace NtripServer

/-- The lines of the format string of `NtripServer::Run`. -/
def formatLines (build : Build) (server : NtripServer) : List Bytes :=
  [ascii "POST /" ++ cStr server.mountpoint ++ ascii " HTTP/1.1",
    ascii "Host: " ++ cStr server.serverIp ++ ascii ":" ++ decimal server.serverPort,
    ascii "Ntrip-Version: Ntrip/2.0",
    ascii "User-Agent: " ++ kServerAgent build,
    ascii "Authorization: Basic " ++ cStr (userPasswdBase64 build server.user server.passwd),
    ascii "Ntrip-STR: " ++ cStr server.ntripStr,
    ascii "Connection: close",
    ascii "Transfer-Encoding: chunked"]

/-- The text that `NtripServer::Run` formats. -/
def request (build : Build) (server : NtripServer) : Bytes :=
  joinLines crlf (server.formatLines build)

end NtripServer

namespace NtripClient

/-- The lines of the format string of `NtripClient::Run`. -/
def formatLines (build : Build) (client : NtripClient) : List Bytes :=
  [ascii "GET /" ++ cStr client.mountpoint ++ ascii " HTTP/1.1",
    ascii "User-Agent: " ++ kClientAgent build,
    ascii "Authorization: Basic " ++ cStr (userPasswdBase64 build client.user client.passwd),
    []]

/-- The text that `NtripClient::Run` formats. -/
def request (build : Build) (client : NtripClient) : Bytes :=
  joinLines crlf (client.formatLines build)

end NtripClient

/-! ## Well-formed values -/

def lineFeed : UInt8 := 10

/-- A mount point that fits into a request line and a source-table string. -/
structure MountName where
  bytes : Bytes
  nonempty : bytes ≠ []
  no_space : space ∉ bytes
  no_semicolon : semicolon ∉ bytes
  no_carriageReturn : carriageReturn ∉ bytes
  no_lineFeed : lineFeed ∉ bytes
  no_nul : 0 ∉ bytes

/-- A user and a password, short enough for the `int` lengths of the encoder;
any that fit into a send buffer are. -/
structure Account where
  user : Bytes
  passwd : Bytes
  user_nonempty : user ≠ []
  user_no_colon : colon ∉ user
  user_no_nul : 0 ∉ user
  passwd_nonempty : passwd ≠ []
  passwd_no_nul : 0 ∉ passwd
  short : (user ++ [colon] ++ passwd).length ≤ 2 ^ 30

/-- A dotted-decimal address. -/
structure DottedDecimal where
  bytes : Bytes
  letters : bytes ⊆ ascii "0123456789."

/-- A source-table string of a mount point. -/
structure SourceLine (name : MountName) where
  bytes : Bytes
  begins : ascii "STR;" ++ name.bytes ++ [semicolon] ++ name.bytes ++ [semicolon] <+: bytes
  fields : 4 < ((bytes.splitOn semicolon).filter (· ≠ [])).length
  no_carriageReturn : carriageReturn ∉ bytes
  no_lineFeed : lineFeed ∉ bytes
  no_nul : 0 ∉ bytes

/-- The token of an account. -/
def Account.token (build : Build) (account : Account) : Bytes :=
  userPasswdBase64 build account.user account.passwd

/-- The password as the decoder returns it. -/
def Account.storedPasswd (account : Account) : Bytes :=
  account.passwd ++ strayByte (account.user ++ [colon] ++ account.passwd).length

/-- A server that is configured with well-formed values. -/
def MountName.server (name : MountName) (str : SourceLine name) (account : Account)
    (ip : DottedDecimal) (port : Int) : NtripServer where
  serverIp := ip.bytes
  serverPort := port
  user := account.user
  passwd := account.passwd
  mountpoint := name.bytes
  ntripStr := str.bytes

/-- A client that is configured with well-formed values. -/
def MountName.client (name : MountName) (account : Account) : NtripClient where
  user := account.user
  passwd := account.passwd
  mountpoint := name.bytes

end Ntrip
