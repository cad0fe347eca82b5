import RootlessRelay.Tcp.AcknowledgedBytes
import RootlessRelay.Tcp.Agreement
import RootlessRelay.Tcp.Demultiplexing
import RootlessRelay.Tcp.FlightBound
import RootlessRelay.Tcp.HeaderFields
import RootlessRelay.Tcp.KeyReuse
import RootlessRelay.Tcp.Options
import RootlessRelay.Tcp.OutOfOrder
import RootlessRelay.Tcp.PacerRuns
import RootlessRelay.Tcp.Recovery
import RootlessRelay.Tcp.Reset
import RootlessRelay.Tcp.RetransmissionTrace
import RootlessRelay.Tcp.RateRetries
import RootlessRelay.Tcp.ZeroWindow
import RootlessRelay.Net.Allocator
import RootlessRelay.Net.Conservation
import RootlessRelay.Net.DnsBoundaries
import RootlessRelay.Net.DnsTruncation
import RootlessRelay.Net.DnsName
import RootlessRelay.Net.Forwards
import RootlessRelay.Net.ForwardSockets
import RootlessRelay.Net.ProxyRequest
import RootlessRelay.Net.Icmp
import RootlessRelay.Net.UdpChecksum
import RootlessRelay.Net.NatPorts
import RootlessRelay.Udp.Demux
import RootlessRelay.SlidingWindow
import RootlessRelay.Udp.LastFlow
import RootlessRelay.Tcp.PayloadRate
import RootlessRelay.Tcp.Patience
import RootlessRelay.Tcp.EndToEnd
import RootlessRelay.Net.ForwardReplies
import RootlessRelay.Net.Transit
import RootlessRelay.Net.DhcpReplies
