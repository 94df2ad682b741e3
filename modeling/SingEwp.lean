import SingEwp.ByteString
import SingEwp.Interleaving
import SingEwp.Runtime
import SingEwp.Protocol
import SingEwp.Address
import SingEwp.Primitives
import SingEwp.ExpiringSet
import SingEwp.ReplayCache
import SingEwp.ReplayConcurrency
import SingEwp.ReplayLog
import SingEwp.ReplayGrowth
import SingEwp.HelloCodec
import SingEwp.Handshake
import SingEwp.CheckedRead
import SingEwp.CodecExactness
import SingEwp.ReplayRuns
import SingEwp.HandshakeAgreement
import SingEwp.Frame
import SingEwp.FrameStream
import SingEwp.FrameSafety
import SingEwp.PaddingPolicy
import SingEwp.SecureStream
import SingEwp.StreamRuns
import SingEwp.Waiting
import SingEwp.StreamTermination
import SingEwp.StreamClosing
import SingEwp.HandshakeCompletion
import SingEwp.Channel
import SingEwp.StreamIntegrity
import SingEwp.FrameAuthentication
import SingEwp.ByteStream
import SingEwp.LengthFramer
import SingEwp.CoverTraffic
import SingEwp.WireSizes
import SingEwp.SliceMemory
import SingEwp.UserTable
import SingEwp.BufferReuse
import SingEwp.FramerRoundTrip
import SingEwp.StreamConn
import SingEwp.TunnelReader
import SingEwp.TunnelDelivery
import SingEwp.PacketConn
import SingEwp.AddressConversion
import SingEwp.Service
import SingEwp.SingleUseHandshake
import SingEwp.PacketDelivery
import SingEwp.UdpEvents
import SingEwp.Inbound
import SingEwp.ReadSession
import SingEwp.AdapterEnds
import SingEwp.CoverTransparency
import SingEwp.SoloRuns
import SingEwp.WriteCounts
import SingEwp.ConcurrentWrites
import SingEwp.PacketWriters
import SingEwp.TornTunnel
import SingEwp.LockStep
import SingEwp.SizeCells
import SingEwp.SizeLeakage
import SingEwp.ThreadRules
import SingEwp.ThreadViews
import SingEwp.ServiceRuns
import SingEwp.ServiceSnapshots
import SingEwp.ServiceReplay
import SingEwp.CoverLoop
import SingEwp.CoverPacing
import SingEwp.CoverShutdown
import SingEwp.SessionLink
import SingEwp.ReliableSession
import SingEwp.PacketLifecycle
import SingEwp.PacketSessions
import SingEwp.TunnelEnds
import SingEwp.DuplexTunnel
import SingEwp.Dialing
