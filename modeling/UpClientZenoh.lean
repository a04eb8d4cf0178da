import UpClientZenoh.Framing
import UpClientZenoh.DataModel
import UpClientZenoh.MemoryAccess
import UpClientZenoh.MessageBuilder
import UpClientZenoh.MessageParser
import UpClientZenoh.ParserSafety
import UpClientZenoh.HeaderRoundTrip
import UpClientZenoh.Execution
import UpClientZenoh.Ledger
import UpClientZenoh.ZenohUTransport
import UpClientZenoh.ListenerTable
import UpClientZenoh.HandleAlignment
import UpClientZenoh.PendingQueries
import UpClientZenoh.RequestDelivery
import UpClientZenoh.SessionManager
import UpClientZenoh.ClientParts
import UpClientZenoh.HandleOwnership
import UpClientZenoh.Teardown
import UpClientZenoh.WireFormat
import UpClientZenoh.PublishDelivery
import UpClientZenoh.TopicIsolation
import UpClientZenoh.PublisherRace
import UpClientZenoh.UnregisterRace
import UpClientZenoh.ClientInstance
import UpClientZenoh.FieldIndependence
import UpClientZenoh.ParserProgress
import UpClientZenoh.RecordRoundTrip
import UpClientZenoh.ReplyLedger
import UpClientZenoh.ResponseMatching
import UpClientZenoh.MessagePassing
import UpClientZenoh.PeerProgress
import UpClientZenoh.RequestReply
import UpClientZenoh.ResponseRace
import UpClientZenoh.RpcRefinement
import UpClientZenoh.PublishingThreads
import UpClientZenoh.QueryFates
