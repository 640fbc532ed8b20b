import Ntrip.Util.Base64
import Ntrip.Caster.StringSplit
import Ntrip.Caster.MountTable

namespace Ntrip

/-!
# Request handling

`ServerConnectRequest`, `ClientConnectRequest`, `TryToForwardServerData` and
the dispatch of `ParseData`.  A `send` either takes the whole message or does
not; which of the two is an input, indexed by the position of the call among
the `send` calls made for one buffer.
-/

open Sequence

def slash : UInt8 := 47
def space : UInt8 := 32
def colon : UInt8 := 58
def semicolon : UInt8 := 59
def carriageReturn : UInt8 := 13

/-! ## Reading one line -/

/-- The text between the first slash of a line and the next space: the mount
point of a `POST` or `GET` line. -/
def requestPath (line : Bytes) : Option Bytes :=
  match find line [slash] with
  | none => none
  | some posBeg =>
      match findFrom line [space] posBeg with
      | none => none
      | some posEnd =>
          if posBeg ≥ posEnd then none else some (substr line (posBeg + 1) (posEnd - posBeg - 1))

/-- The text between the last space of a line and the carriage return. -/
def headerToken (line : Bytes) : Option Bytes :=
  match findLast line space with
  | none => none
  | some posBeg =>
      match findFrom line [carriageReturn] posBeg with
      | none => none
      | some posEnd =>
          if posBeg ≥ posEnd then none else some (substr line (posBeg + 1) (posEnd - posBeg - 1))

structure Credentials where
  user : Bytes
  passwd : Bytes
deriving DecidableEq, Repr

/-- The decoded token up to its first colon and behind it. -/
def splitCredentials (userPasswd : Bytes) : Option Credentials :=
  match find userPasswd [colon] with
  | none => none
  | some pos =>
      some ⟨substr userPasswd 0 pos, substr userPasswd (pos + 1) (userPasswd.length - pos)⟩

/-- The account named by an `Authorization: Basic` line. -/
def readCredentials (line : Bytes) : Option Credentials := do
  let userPasswdBase64 ← headerToken line
  let userPasswd ← base64Decode userPasswdBase64
  splitCredentials userPasswd

/-- The local variables that the header loops fill in. -/
structure RequestFields where
  mountPoint : Bytes := []
  user : Bytes := []
  passwd : Bytes := []
deriving DecidableEq, Repr

namespace RequestFields

/-- None of the three is empty. -/
def Complete (fields : RequestFields) : Prop :=
  fields.mountPoint ≠ [] ∧ fields.user ≠ [] ∧ fields.passwd ≠ []

instance (fields : RequestFields) : Decidable fields.Complete :=
  inferInstanceAs (Decidable (_ ∧ _ ∧ _))

/-- The record that a successful `POST` pushes. -/
def toRecord (fields : RequestFields) (socketFd : Fd) : MountPointInformation where
  serverFd := socketFd
  mountpoint := fields.mountPoint
  username := fields.user
  password := fields.passwd
  clientSocketList := []

/-- The comparison that `ClientConnectRequest` makes with a record. -/
def Matches (fields : RequestFields) (info : MountPointInformation) : Prop :=
  fields.mountPoint = info.mountpoint ∧ fields.user = info.username ∧
    fields.passwd = info.password

instance (fields : RequestFields) (info : MountPointInformation) :
    Decidable (fields.Matches info) :=
  inferInstanceAs (Decidable (_ ∧ _ ∧ _))

end RequestFields

/-! ## Calls of `send` and the answer to a buffer -/

/-- The function that issued a `send`. -/
inductive Sender
  | serverConnectRequest
  | clientConnectRequest
  | tryToForwardServerData
deriving DecidableEq, Repr

structure SendCall where
  sender : Sender
  fd : Fd
  message : Bytes
  accepted : Bool
deriving DecidableEq, Repr

/-- Whether the n-th `send` made for a buffer takes the whole message.  One
that does not is taken to put nothing on the wire; a short send of a
non-blocking socket, which leaves a part of the message there, is outside the
model. -/
abbrev SendOutcomes := Nat → Bool

/-- Return value, tables afterwards, and the `send` calls in order. -/
structure Response where
  ret : Int
  caster : NtripCaster
  sends : List SendCall
deriving DecidableEq, Repr

def okLine : Bytes := ascii "HTTP/1.1 200 OK\r\n"
def icyLine : Bytes := ascii "ICY 200 OK\r\n"
def badPasswordLine : Bytes := ascii "ERROR - Bad Password\r\n"
def unauthorizedLine : Bytes := ascii "HTTP/1.1 401 Unauthorized\r\n"

/-! ## Requests of a server -/

/-- The two ways in which the first loop of `ServerConnectRequest` returns. -/
inductive ServerRefusal
  | malformed
  | mountPointUsed
deriving DecidableEq, Repr

/-- One round of the first loop of `ServerConnectRequest`. -/
def serverLine (infos : List MountPointInformation) (fields : RequestFields) (line : Bytes) :
    Except ServerRefusal RequestFields :=
  if mentions line "POST" then
    match requestPath line with
    | none => .error .malformed
    | some mountPoint =>
        if infos.any (fun info => mountPoint = info.mountpoint) then .error .mountPointUsed
        else .ok { fields with mountPoint := mountPoint }
  else if mentions line "Authorization: Basic" then
    match readCredentials line with
    | none => .error .malformed
    | some account => .ok { fields with user := account.user, passwd := account.passwd }
  else .ok fields

/-- The first loop of `ServerConnectRequest`. -/
def readServerLines (infos : List MountPointInformation) :
    RequestFields → List Bytes → Except ServerRefusal RequestFields
  | fields, [] => .ok fields
  | fields, line :: rest =>
      match serverLine infos fields line with
      | .error refusal => .error refusal
      | .ok next => readServerLines infos next rest

/-- `line.substr(pos+1, line.size()-pos)` at the first space. -/
def strText (line : Bytes) : Bytes :=
  match find line [space] with
  | some pos => substr line (pos + 1) (line.length - pos)
  | none => line

/-- The test on the sections of a source-table string; `sections[1]` and
`sections[2]` are read only when there are more than four. -/
def strAgrees (mountPoint ntripStr : Bytes) : Bool :=
  let sections := stringSplit ntripStr [semicolon] false
  !(sections.length > 4 &&
    (sections.getD 1 [] ≠ sections.getD 2 [] || sections.getD 1 [] ≠ mountPoint))

/-- The second loop of `ServerConnectRequest`; `none` is `return -1`. -/
def readStrLines (mountPoint : Bytes) : Bytes → List Bytes → Option Bytes
  | ntripStr, [] => some ntripStr
  | ntripStr, line :: rest =>
      if mentions line "Ntrip-STR: " then
        if strAgrees mountPoint (strText line) then readStrLines mountPoint (strText line) rest
        else none
      else readStrLines mountPoint ntripStr rest

/-- `ServerConnectRequest`. -/
def serverConnectRequest (caster : NtripCaster) (outcomes : SendOutcomes) (lines : List Bytes)
    (socketFd : Fd) : Response :=
  match readServerLines caster.mountPointInfos {} lines with
  | .error .malformed => ⟨-1, caster, []⟩
  | .error .mountPointUsed =>
      ⟨-1, caster, [⟨.serverConnectRequest, socketFd, badPasswordLine, outcomes 0⟩]⟩
  | .ok fields =>
      match readStrLines fields.mountPoint [] lines with
      | none => ⟨-1, caster, []⟩
      | some ntripStr =>
          if fields.Complete then
            let reply : SendCall := ⟨.serverConnectRequest, socketFd, okLine, outcomes 0⟩
            if outcomes 0 then
              ⟨0, { mountPointInfos := caster.mountPointInfos ++ [fields.toRecord socketFd],
                    ntripStrList := caster.ntripStrList ++ [ntripStr] }, [reply]⟩
            else ⟨-1, caster, [reply]⟩
          else ⟨-1, caster, []⟩

/-! ## Requests of a client -/

/-- The local variables of `ClientConnectRequest`. -/
structure ClientFields extends RequestFields where
  ntripVersion1 : Bool := false
deriving DecidableEq, Repr

/-- One round of the loop of `ClientConnectRequest`; the flag tells whether
the loop goes on. -/
def clientLine (fields : ClientFields) (line : Bytes) : ClientFields × Bool :=
  if mentions line "GET" then
    let fields := if mentions line "HTTP/1.0" then { fields with ntripVersion1 := true } else fields
    match requestPath line with
    | none => (fields, false)
    | some mountPoint => ({ fields with mountPoint := mountPoint }, true)
  else if mentions line "Authorization: Basic" then
    match readCredentials line with
    | none => (fields, false)
    | some account => ({ fields with user := account.user, passwd := account.passwd }, true)
  else (fields, true)

/-- The loop of `ClientConnectRequest`; a `break` keeps what was read. -/
def readClientLines : ClientFields → List Bytes → ClientFields
  | fields, [] => fields
  | fields, line :: rest =>
      match clientLine fields line with
      | (fields, true) => readClientLines fields rest
      | (fields, false) => fields

/-- The walk over the records: the table with the client in it when some
matching record's reply was taken, and the replies sent on the way. -/
def admitClient (outcomes : SendOutcomes) (fields : RequestFields) (response : Bytes)
    (socketFd : Fd) : Nat → List MountPointInformation →
      Option (List MountPointInformation) × List SendCall
  | _, [] => (none, [])
  | count, info :: rest =>
      if fields.Matches info then
        let reply : SendCall := ⟨.clientConnectRequest, socketFd, response, outcomes count⟩
        if outcomes count then (some (info.addClient socketFd :: rest), [reply])
        else
          let later := admitClient outcomes fields response socketFd (count + 1) rest
          (later.1.map (info :: ·), reply :: later.2)
      else
        let later := admitClient outcomes fields response socketFd count rest
        (later.1.map (info :: ·), later.2)

/-- The success line that the request's HTTP version asks for. -/
def clientReply (fields : ClientFields) : Bytes :=
  if fields.ntripVersion1 then icyLine else okLine

/-- `ClientConnectRequest`. -/
def clientConnectRequest (caster : NtripCaster) (outcomes : SendOutcomes) (lines : List Bytes)
    (socketFd : Fd) : Response :=
  let fields := readClientLines {} lines
  let walk :=
    if fields.Complete then
      admitClient outcomes fields.toRequestFields (clientReply fields) socketFd 0
        caster.mountPointInfos
    else (none, [])
  match walk.1 with
  | some infos => ⟨0, { caster with mountPointInfos := infos }, walk.2⟩
  | none =>
      ⟨-1, caster, walk.2 ++
        [⟨.clientConnectRequest, socketFd, unauthorizedLine, outcomes walk.2.length⟩]⟩

/-! ## Forwarding and dispatch -/

/-- The record of the first server with this descriptor. -/
def servedRecord (infos : List MountPointInformation) (socketFd : Fd) :
    Option MountPointInformation :=
  infos.find? (fun info => info.serverFd = socketFd)

/-- The calls of `send` that pass a buffer on to a record's clients. -/
def forwardTo (outcomes : SendOutcomes) (buffer : Bytes) (clients : List Fd) : List SendCall :=
  clients.mapIdx fun index fd => ⟨.tryToForwardServerData, fd, buffer, outcomes index⟩

/-- `TryToForwardServerData`. -/
def tryToForwardServerData (caster : NtripCaster) (outcomes : SendOutcomes) (socketFd : Fd)
    (buffer : Bytes) : Response :=
  match servedRecord caster.mountPointInfos socketFd with
  | some info => ⟨0, caster, forwardTo outcomes buffer info.clientSocketList⟩
  | none => ⟨-1, caster, []⟩

/-- What the substring searches of `ParseData` make of a buffer. -/
inductive Dispatch
  | post
  | get
  | unknownVersion
  | data
deriving DecidableEq, Repr

def dispatch (str : Bytes) : Dispatch :=
  if mentions str "GET /" || mentions str "POST /" then
    if mentions str "POST /" && mentions str "HTTP/1.1" then .post
    else if mentions str "GET /" && (mentions str "HTTP/1.1" || mentions str "HTTP/1.0") then .get
    else .unknownVersion
  else .data

/-- The marker of the position reports that a client may send.  `ParseData`
checks the report's checksum as well, but does nothing with the verdict. -/
def mentionsGga (str : Bytes) : Bool :=
  mentions str "$GPGGA," || mentions str "$GNGGA,"

/-- `StringSplit(str, "\r\n", &request_lines, true)`. -/
def requestLines (str : Bytes) : List Bytes :=
  stringSplit str crlf true

/-- `ParseData`, where the scan for the checksum of a position report stays
inside the buffer: its value is not used, so that the scan is left out here,
but on a report without an asterisk it runs past the end. -/
def parseData (caster : NtripCaster) (outcomes : SendOutcomes) (socketFd : Fd) (buffer : Bytes) :
    Response :=
  match dispatch buffer with
  | .post => serverConnectRequest caster outcomes (requestLines buffer) socketFd
  | .get => clientConnectRequest caster outcomes (requestLines buffer) socketFd
  | .unknownVersion => ⟨-1, caster, []⟩
  | .data =>
      let forwarded := tryToForwardServerData caster outcomes socketFd buffer
      if forwarded.ret < 0 && mentionsGga buffer then { forwarded with ret := 0 } else forwarded

end Ntrip
