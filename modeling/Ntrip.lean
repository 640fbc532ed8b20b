import Ntrip.Foundation.Execution
import Ntrip.Foundation.Ledger
import Ntrip.Foundation.Search
import Ntrip.Foundation.Parallel
import Ntrip.Foundation.Locality
import Ntrip.Foundation.Reordering
import Ntrip.Foundation.Splitting
import Ntrip.Foundation.Sextets
import Ntrip.Foundation.Channel
import Ntrip.Foundation.Directory
import Ntrip.Foundation.Decimals
import Ntrip.Util.Text
import Ntrip.Util.Base64
import Ntrip.Util.Base64Standard
import Ntrip.Util.Gga
import Ntrip.Util.GgaFrame
import Ntrip.Util.Coordinates
import Ntrip.Caster.StringSplit
import Ntrip.Caster.MountTable
import Ntrip.Caster.Requests
import Ntrip.Caster.Outcomes
import Ntrip.Caster.Replies
import Ntrip.Caster.RequestLines
import Ntrip.Caster.Disconnect
import Ntrip.Caster.ThreadHandler
import Ntrip.Caster.TableInvariants
import Ntrip.Caster.SourceTable
import Ntrip.Caster.Isolation
import Ntrip.Caster.Commutation
import Ntrip.Caster.SideBySide
import Ntrip.Caster.Forwarding
import Ntrip.Caster.Bounds
import Ntrip.Caster.RoleOwnership
import Ntrip.Caster.Answers
import Ntrip.Caster.Batch
import Ntrip.Caster.AnyOrder
import Ntrip.Caster.Segmentation
import Ntrip.Caster.Subscription
import Ntrip.Caster.Publication
import Ntrip.Caster.Shutdown
import Ntrip.Peers.Request
import Ntrip.Peers.Recognition
import Ntrip.Peers.Reading
import Ntrip.Peers.FurtherHeaders
import Ntrip.Peers.ServerReading
import Ntrip.Peers.Credentials
import Ntrip.Peers.EmptyPassword
import Ntrip.Peers.Segmentation
import Ntrip.Peers.SafeCuts
import Ntrip.Peers.SendBounds
import Ntrip.Peers.SourceTableReply
import Ntrip.Peers.Handshake
import Ntrip.Peers.ClientThread
import Ntrip.Peers.PositionReport
import Ntrip.Peers.SilenceTimeout
import Ntrip.Peers.ClientSession
import Ntrip.Peers.SessionReports
import Ntrip.Peers.LifeCycle
import Ntrip.Peers.Discipline
import Ntrip.Network.Transport
import Ntrip.Network.Login
import Ntrip.Network.Provenance
import Ntrip.Network.Stream
import Ntrip.Network.Session
import Ntrip.Network.EndToEnd
import Ntrip.Network.Relay
import Ntrip.Network.Newcomers
