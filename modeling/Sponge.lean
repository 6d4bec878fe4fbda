import Sponge.Lib.Slice
import Sponge.Lib.OrdMap
import Sponge.Lib.Tiling
import Sponge.Lib.Loop
import Sponge.Lib.Run
import Sponge.Lib.BigEndian
import Sponge.Lib.BitField
import Sponge.Lib.OnesComplement
import Sponge.Lib.Mailbox
import Sponge.Lib.History
import Sponge.Lib.LongestPrefix
import Sponge.Lib.Chunks
import Sponge.Lib.Fifo
import Sponge.Lib.Endless
import Sponge.WrappingIntegers
import Sponge.ByteStream
import Sponge.StreamRun
import Sponge.StreamReassembler
import Sponge.ReassemblerMerge
import Sponge.ReassemblerInvariant
import Sponge.ReassemblerRun
import Sponge.ReassemblerStorage
import Sponge.ReassemblerFaults
import Sponge.TCPSegment
import Sponge.TCPReceiver
import Sponge.ReceiverRun
import Sponge.TCPSender
import Sponge.SenderInvariant
import Sponge.SenderRun
import Sponge.SenderProgress
import Sponge.SenderWork
import Sponge.SenderFill
import Sponge.SenderTimer
import Sponge.TCPState
import Sponge.TCPConnection
import Sponge.ReceiverWindow
import Sponge.ReceiverEnd
import Sponge.ConnectionProgress
import Sponge.ConnectionShutdown
import Sponge.ConnectionInvariant
import Sponge.ConnectionStates
import Sponge.ConnectionQueue
import Sponge.ConnectionBackoff
import Sponge.ConnectionListen
import Sponge.Flow
import Sponge.Delivery
import Sponge.Endpoint
import Sponge.Network
import Sponge.EndToEnd
import Sponge.Buffer
import Sponge.Parser
import Sponge.InternetChecksum
import Sponge.IPv4Datagram
import Sponge.IPv4Codec
import Sponge.TCPCodec
import Sponge.TCPOverIP
import Sponge.AdapterPeer
import Sponge.EthernetFrame
import Sponge.ARPMessage
import Sponge.NetworkInterface
import Sponge.InterfaceSteps
import Sponge.InterfaceDelivery
import Sponge.InterfaceTiming
import Sponge.InterfaceTables
import Sponge.Router
import Sponge.FileDescriptor
import Sponge.EventLoop
import Sponge.FdAdapter
import Sponge.InterfaceCargo
import Sponge.EthernetAdapter
import Sponge.ConnectionSegments
import Sponge.SpongeSocket
import Sponge.SocketRun
import Sponge.SocketSystem
import Sponge.Internet
import Sponge.ConnectionDiligence
import Sponge.EndpointProgress
import Sponge.Liveness
