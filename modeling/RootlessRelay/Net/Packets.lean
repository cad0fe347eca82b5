import RootlessRelay.Basic

/-!
# Reading Ethernet, IPv4 and UDP

The parsers of `packet_utils.js` over byte lists. Address strings are kept as
the four numbers between their dots, which is what the relay compares and
splits.

The readers are total: a byte behind the end of the buffer reads as zero, where
the source would throw. Every read the relay makes here is behind a length
check. That it is enough is proved with checked readers, which fail where the
source would.
-/

namespace RootlessRelay

/-- A dotted address string. The octets of a parsed packet are bytes, those of a
pool address `10.0.2.i` are whatever the pool bounds allow. -/
structure Address where
  a : Nat
  b : Nat
  c : Nat
  d : Nat
  deriving DecidableEq, Repr

/-- A hardware address, whose hexadecimal rendering the relay uses as a key. The
rendering is injective, so the bytes serve as well. -/
abbrev MAC := Bytes

/-- `buf.readUInt8(i)` where there is such a byte. -/
def byteAt (buf : Bytes) (i : Nat) : Nat := (buf.getD i 0).toNat

/-- `buf.readUInt16BE(i)` where there are two such bytes. -/
def readUInt16BE (buf : Bytes) (i : Nat) : Nat := byteAt buf i * 256 + byteAt buf (i + 1)

/-- `buf.readUInt32BE(i)` where there are four such bytes. -/
def readUInt32BE (buf : Bytes) (i : Nat) : Nat :=
  readUInt16BE buf i * 65536 + readUInt16BE buf (i + 2)

/-- `buf.slice(start, stop)`, clipped to the buffer at both ends. -/
def slice (buf : Bytes) (start stop : Nat) : Bytes := (buf.take stop).drop start

/-- `formatIPv4`: the four bytes at `offset` as an address string. -/
def formatIPv4 (ipPacket : Bytes) (offset : Nat) : Address :=
  ⟨byteAt ipPacket offset, byteAt ipPacket (offset + 1), byteAt ipPacket (offset + 2),
    byteAt ipPacket (offset + 3)⟩

/-- The string form of a configured address, as its four numbers. -/
def dotted (ip : IPv4) : Address :=
  ⟨(ip >>> 24).toNat % 256, (ip >>> 16).toNat % 256, (ip >>> 8).toNat % 256, ip.toNat % 256⟩

/-- What `parseIPv4Packet` returns: the packet cut to its total length, and
fields of its header. -/
structure ParsedIPv4 where
  packet : Bytes
  headerLength : Nat
  totalLength : Nat
  protocol : Nat
  srcIP : Address
  dstIP : Address
  moreFragments : Bool
  fragmentOffset : Nat
  deriving DecidableEq, Repr

/-- `parseIPv4Packet`: the header is checked for version and lengths, and the
packet cut to the length it announces. The checksum is not looked at. -/
def parseIPv4Packet (ipPacket : Bytes) : Option ParsedIPv4 :=
  if ipPacket.length < 20 then none
  else
    let version := byteAt ipPacket 0 >>> 4
    let headerLength := (byteAt ipPacket 0 &&& 0x0f) * 4
    if version ≠ 4 ∨ headerLength < 20 ∨ ipPacket.length < headerLength then none
    else
      let totalLength := readUInt16BE ipPacket 2
      if totalLength < headerLength ∨ totalLength > ipPacket.length then none
      else
        let fragmentField := readUInt16BE ipPacket 6
        some {
          packet := ipPacket.take totalLength
          headerLength := headerLength
          totalLength := totalLength
          protocol := byteAt ipPacket 9
          srcIP := formatIPv4 ipPacket 12
          dstIP := formatIPv4 ipPacket 16
          moreFragments := fragmentField &&& 0x2000 ≠ 0
          fragmentOffset := fragmentField &&& 0x1fff }

/-- What `parseUDPDatagram` returns. -/
structure UDPDatagram where
  srcPort : Port
  dstPort : Port
  length : Nat
  payload : Bytes
  deriving DecidableEq, Repr

/-- `parseUDPDatagram`: the datagram in a parsed packet, if the length it
announces fits. -/
def parseUDPDatagram (parsed : ParsedIPv4) : Option UDPDatagram :=
  if parsed.protocol ≠ 17 then none
  else
    let udpOffset := parsed.headerLength
    if parsed.packet.length < udpOffset + 8 then none
    else
      let length := readUInt16BE parsed.packet (udpOffset + 4)
      if length < 8 ∨ udpOffset + length > parsed.packet.length then none
      else
        some {
          srcPort := readUInt16BE parsed.packet udpOffset
          dstPort := readUInt16BE parsed.packet (udpOffset + 2)
          length := length
          payload := slice parsed.packet (udpOffset + 8) (udpOffset + length) }

/-- The relay's own settings beside those of a TCP connection. The limits of the
UDP flow manager are the ones its constructor insists on. -/
structure RelaySettings extends Settings where
  logLevel : Nat := 1
  dhcpStart : Nat := 15
  dhcpEnd : Nat := 254
  enableVmToVm : Bool := true
  udpFlowIdleTimeoutMs : Nat := 30000
  maxUdpFlowsPerSession : Nat := 256
  idleTimeout_pos : 0 < udpFlowIdleTimeoutMs := by decide
  maxFlows_pos : 1 ≤ maxUdpFlowsPerSession := by decide

/-- `LOG_LEVEL_TRACE`, the level from which on the relay logs the names of DNS
queries. -/
def LOG_LEVEL_TRACE : Nat := 2

/-- `GATEWAY_IP`, in the form in which the relay compares addresses. -/
def RelaySettings.GATEWAY_IP (cfg : RelaySettings) : Address := dotted cfg.gatewayIP

end RootlessRelay
