import NetTrap.TcpFraming.HttpSegmentation
import NetTrap.TcpFraming.PacketStreams
import NetTrap.Pcap.RoundTrip
import NetTrap.Interceptor.CaptureAgreement
import NetTrap.Interceptor.RedirectLimits
import NetTrap.Interceptor.RedirectHistory
import NetTrap.Storage.Reload
import NetTrap.Shutdown.EventConservation
import NetTrap.Distributed.HttpSinkRuns
import NetTrap.Snmp.Agreement
import NetTrap.Ldap.Replies
import NetTrap.Vfs.Runs
import NetTrap.Session.History
import NetTrap.Redis.Gate
import NetTrap.Redis.TrackingInvariant
import NetTrap.Redis.Pipelining
import NetTrap.Mqtt.FramerAgreement
import NetTrap.Mqtt.Sessions
import NetTrap.Tftp.Uploads
import NetTrap.Replay.Sides
import NetTrap.Postgres.Agreement
import NetTrap.Replay.QuestionAgreement
import NetTrap.Sip.Faithfulness
import NetTrap.Ftp.ActiveMode
import NetTrap.Flows.Keys
import NetTrap.Http.Paths
import NetTrap.TcpFraming.ChunkedRequests
import NetTrap.Ftp.PortReplies
import NetTrap.Ssh.Packets
