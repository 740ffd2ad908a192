import AsioClientServer.Conn.DelimitedRead
import AsioClientServer.Conn.ReaderRun
import AsioClientServer.Conn.LineThenFrames
import AsioClientServer.Server.SendRun
import AsioClientServer.Server.ServeRun
import AsioClientServer.Server.PrefixPairing
import AsioClientServer.Client.SyncReceive
import AsioClientServer.Server.ConnectionIds
import AsioClientServer.Client.RequestIds
import AsioClientServer.EchoDelivery
import AsioClientServer.EchoNetwork
import AsioClientServer.EchoSession
import AsioClientServer.EchoRelay
import AsioClientServer.Server.AnswerEach
import AsioClientServer.Client.DecodeMessage
import AsioClientServer.EchoRequests
import AsioClientServer.EchoStreams
