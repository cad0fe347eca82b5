import RootlessRelay.Net.IPv4Packet
import RootlessRelay.Tcp.Conn

/-!
# The bytes of a TCP segment

The buffers `sendTCP` fills in for one segment, and the fields `handleTCP` and
`handleReverseTCP` read out of a packet. A segment whose fields fit is written,
verifies, and is read back as it was; nothing else is written.

Sequence and acknowledgement numbers always fit. Ports, the window and the total
length need not: each is written with `writeUInt16BE` or checked by the packet
builder, and throws where it does not fit (`Fits`, `packet_iff_fits`). The
handlers read a segment by its own IPv4 header, so options in front of it would
be skipped; the relay writes none.
-/

namespace RootlessRelay

open OnesComplement

/-- `tcp[13]`, one bit for each flag. -/
def flagByte (flags : Flags) : Nat :=
  (if flags.ack then 0x10 else 0) ||| (if flags.fin then 0x01 else 0) |||
    (if flags.rst then 0x04 else 0) ||| (if flags.psh then 0x08 else 0) |||
    (if flags.syn then 0x02 else 0)

/-- The bytes `writeUInt32BE` writes, the high ones first. -/
def word32 (word : Seq) : Bytes := bytes (word.toNat / 65536) ++ bytes (word.toNat % 65536)

namespace WireSegment

variable (wire : WireSegment)

/-- The options of a segment: the MSS of a SYN, and otherwise none. -/
def tcpOptions : Bytes :=
  match wire.mss with
  | some mss => [2, 4, UInt8.ofNat (mss >>> 8), UInt8.ofNat (mss &&& 0xff)]
  | none => []

/-- The length of the header with its options. -/
def tcpHeaderLength : Nat := 20 + wire.tcpOptions.length

/-- The header up to the checksum, as it is filled in field by field. -/
def tcpFront : Bytes :=
  bytes wire.flow.srcPort ++ bytes wire.flow.dstPort.toNat ++ word32 wire.sequence ++
    word32 wire.acknowledgment ++
    [UInt8.ofNat ((wire.tcpHeaderLength / 4) <<< 4), UInt8.ofNat (flagByte wire.flags)] ++
    bytes wire.window

/-- What follows the checksum: the urgent pointer, the options and the payload. -/
def tcpBack : Bytes := bytes 0 ++ wire.tcpOptions ++ wire.payload

/-- The buffer `tcp`, its checksum still zero. The `writeUInt16BE` of a value
that does not fit throws. -/
def tcp : Except String Bytes :=
  if wire.flow.srcPort > 0xffff then .error (outOfRange wire.flow.srcPort)
  else if wire.flow.dstPort < 0 ∨ wire.flow.dstPort > 0xffff then
    .error (outOfRange wire.flow.dstPort)
  else if wire.window > 0xffff then .error (outOfRange wire.window)
  else .ok (wire.tcpFront ++ bytes 0 ++ wire.tcpBack)

/-- `conn.tx.srcAddress`, the `ipv4Bytes` of the source. -/
def srcAddress : Bytes := (dotted wire.flow.srcIP).octets

/-- `conn.tx.dstAddress`, the `ipv4Bytes` of the destination. -/
def dstAddress : Bytes := (dotted wire.flow.dstIP).octets

/-- The packet `buildIP` makes of the buffer, with the checksum written into it.
The identification is `Math.floor(Math.random() * 65535)`. -/
def toIP (tcp : Bytes) (identification : Fin 65535) : Except String Bytes := do
  let ip ← buildIPv4Packet tcp (.buffer wire.srcAddress) (.buffer wire.dstAddress) 6 identification
  let cksum ← tcpChecksum ip
  pure (writeUInt16BE ip cksum (20 + 16))

/-- The packet handed to `sendIPToVM`, or what building it throws. -/
def packet (identification : Fin 65535) : Except String Bytes := do
  let tcp ← wire.tcp
  wire.toIP tcp identification

/-- Every field holds its value, and the packet is no longer than its length
field says. -/
structure Fits : Prop where
  srcPort : wire.flow.srcPort ≤ 0xffff
  dstPort : 0 ≤ wire.flow.dstPort ∧ wire.flow.dstPort ≤ 0xffff
  window : wire.window ≤ 0xffff
  totalLength : 20 + (wire.tcpHeaderLength + wire.payload.length) ≤ 0xffff

/-- A SYN, and only a SYN, carries an MSS option, with the segment size of the
settings. -/
def OffersMss (cfg : Settings) : Prop :=
  wire.mss = if wire.flags.syn then some cfg.TCP_MSS else none

end WireSegment

/-- What the handlers read at the head of a segment, addresses included. -/
structure TCPSegment where
  srcIP : Address
  dstIP : Address
  srcPort : Port
  dstPort : Port
  seqNum : Seq
  ackNum : Seq
  syn : Bool
  ack : Bool
  fin : Bool
  rst : Bool
  psh : Bool
  window : Nat
  mss : Option Nat
  payload : Bytes
  deriving DecidableEq, Repr

/-- `parseTCPOptions` from `offset` on. The window scale it also reads is not
used. -/
def parseTCPOptions (packet : Bytes) (stop offset : Nat) (mss : Option Nat) : Option Nat :=
  if offset < stop then
    let kind := byteAt packet offset
    if kind = 0 then mss
    else if kind = 1 then parseTCPOptions packet stop (offset + 1) mss
    else if offset + 1 ≥ stop then mss
    else
      let length := byteAt packet (offset + 1)
      if length < 2 ∨ offset + length > stop then mss
      else if kind = 2 ∧ length = 4 ∧ readUInt16BE packet (offset + 2) > 0 then
        parseTCPOptions packet stop (offset + length) (some (readUInt16BE packet (offset + 2)))
      else parseTCPOptions packet stop (offset + length) mss
  else mss
termination_by stop - offset

/-- The head of both handlers: the fields of a segment, if the packet is long
enough for them. -/
def parseTCPSegment (parsed : ParsedIPv4) : Option TCPSegment :=
  let ipPacket := parsed.packet
  let ihl := (byteAt ipPacket 0 &&& 0x0f) * 4
  if ipPacket.length < ihl + 20 then none
  else
    let flags := byteAt ipPacket (ihl + 13)
    let dataOffset := (byteAt ipPacket (ihl + 12) >>> 4) * 4
    if dataOffset < 20 ∨ ihl + dataOffset > ipPacket.length then none
    else
      let syn := decide (flags &&& 0x02 ≠ 0)
      some {
        srcIP := parsed.srcIP
        dstIP := parsed.dstIP
        srcPort := readUInt16BE ipPacket ihl
        dstPort := readUInt16BE ipPacket (ihl + 2)
        seqNum := BitVec.ofNat 32 (readUInt32BE ipPacket (ihl + 4))
        ackNum := BitVec.ofNat 32 (readUInt32BE ipPacket (ihl + 8))
        syn
        ack := decide (flags &&& 0x10 ≠ 0)
        fin := decide (flags &&& 0x01 ≠ 0)
        rst := decide (flags &&& 0x04 ≠ 0)
        psh := decide (flags &&& 0x08 ≠ 0)
        window := readUInt16BE ipPacket (ihl + 14)
        mss :=
          if syn && decide (dataOffset > 20) then
            parseTCPOptions ipPacket (ihl + dataOffset) (ihl + 20) none
          else none
        payload := ipPacket.drop (ihl + dataOffset) }

/-- A packet as the handlers take it apart. Its IPv4 header and its segment
verify. -/
structure ReadsAs (ip : Bytes) (segment : TCPSegment) : Prop where
  parse : ∃ parsed, parseIPv4Packet ip = some parsed ∧ parsed.protocol = 6 ∧
    parseTCPSegment parsed = some segment
  header : internetChecksum (ip.take 20) = 0
  transport : internetChecksum (checksummed ip 6) = 0

theorem dotted_canonical (ip : IPv4) : (dotted ip).Canonical := by
  refine ⟨?_, ?_, ?_, ?_⟩ <;> exact Nat.le_of_lt_succ (Nat.mod_lt _ (by decide))

@[simp] theorem word32_length (word : Seq) : (word32 word).length = 4 := rfl

theorem flagByte_lt (flags : Flags) : flagByte flags < 256 := by
  obtain ⟨syn, fin, rst, psh, ack, windowSize⟩ := flags
  cases syn <;> cases fin <;> cases rst <;> cases psh <;> cases ack <;>
    simp [flagByte]

/-- Each flag is read back from its own bit, whatever the others are. -/
theorem flagByte_bits (flags : Flags) :
    decide (flagByte flags &&& 0x02 ≠ 0) = flags.syn ∧
      decide (flagByte flags &&& 0x10 ≠ 0) = flags.ack ∧
      decide (flagByte flags &&& 0x01 ≠ 0) = flags.fin ∧
      decide (flagByte flags &&& 0x04 ≠ 0) = flags.rst ∧
      decide (flagByte flags &&& 0x08 ≠ 0) = flags.psh := by
  obtain ⟨syn, fin, rst, psh, ack, windowSize⟩ := flags
  cases syn <;> cases fin <;> cases rst <;> cases psh <;> cases ack <;>
    simp [flagByte]

/-- What stands behind a header is read relative to it. -/
theorem byteAt_behind (header data : Bytes) (offset : Nat) :
    byteAt (header ++ data) (header.length + offset) = byteAt data offset := by
  rw [byteAt, List.getD_append_right _ _ _ _ (Nat.le_add_right _ _), Nat.add_sub_cancel_left]
  rfl

theorem readUInt16BE_behind (header data : Bytes) (offset : Nat) :
    readUInt16BE (header ++ data) (header.length + offset) = readUInt16BE data offset := by
  rw [readUInt16BE, Nat.add_assoc, byteAt_behind, byteAt_behind]
  rfl

theorem readUInt32BE_behind (header data : Bytes) (offset : Nat) :
    readUInt32BE (header ++ data) (header.length + offset) = readUInt32BE data offset := by
  rw [readUInt32BE, Nat.add_assoc, readUInt16BE_behind, readUInt16BE_behind]
  rfl

theorem readUInt32BE_word32 (word : Seq) :
    BitVec.ofNat 32 (readUInt32BE (word32 word) 0) = word := by
  have hlt := word.isLt
  have hhigh : readUInt16BE (word32 word) 0 = word.toNat / 65536 :=
    readUInt16BE_bytes (by omega) [] _
  have hlow : readUInt16BE (word32 word) 2 = word.toNat % 65536 :=
    readUInt16BE_bytes (by omega) [] []
  rw [readUInt32BE, hhigh, hlow, Nat.div_add_mod', BitVec.ofNat_toNat, BitVec.setWidth_eq]

namespace WireSegment

variable {wire : WireSegment} {identification : Fin 65535}

@[simp] theorem srcAddress_length : wire.srcAddress.length = 4 := rfl
@[simp] theorem dstAddress_length : wire.dstAddress.length = 4 := rfl
@[simp] theorem tcpFront_length : wire.tcpFront.length = 16 := rfl

theorem tcpOptions_length : wire.tcpOptions.length = if wire.mss.isSome then 4 else 0 := by
  unfold tcpOptions
  cases wire.mss <;> rfl

theorem tcp_length (cksum : Nat) :
    (wire.tcpFront ++ bytes cksum ++ wire.tcpBack).length =
      wire.tcpHeaderLength + wire.payload.length := by
  simp only [tcpBack, tcpHeaderLength, List.length_append, tcpFront_length, bytes_length]
  omega

/-- The packet of a segment that fits: two headers, options and payload. -/
theorem Fits.packet_ok (h : wire.Fits) (identification : Fin 65535) :
    ∃ value cksum, wire.packet identification =
        .ok (ipv4Header (20 + (wire.tcpHeaderLength + wire.payload.length)) identification 6 value
          wire.srcAddress wire.dstAddress ++ (wire.tcpFront ++ bytes cksum ++ wire.tcpBack)) ∧
      internetChecksum (ipv4Header (20 + (wire.tcpHeaderLength + wire.payload.length))
        identification 6 value wire.srcAddress wire.dstAddress) = 0 ∧
      internetChecksum (checksummed
        (ipv4Header (20 + (wire.tcpHeaderLength + wire.payload.length)) identification 6 value
          wire.srcAddress wire.dstAddress ++ (wire.tcpFront ++ bytes cksum ++ wire.tcpBack)) 6) =
        0 := by
  have hbuild := @buildIPv4Packet_checksummed (.buffer wire.srcAddress) (.buffer wire.dstAddress) 6
    identification wire.tcpFront wire.tcpBack wire.srcAddress wire.dstAddress
    (by rw [tcpFront_length])
    (by rw [tcp_length]; exact h.totalLength) (by decide) (by omega) rfl rfl
  rw [tcp_length, tcpFront_length] at hbuild
  obtain ⟨value, ip, cksum, hip, hcksum, hwrite, hheader, hverifies⟩ := hbuild
  refine ⟨value, cksum, ?_, hheader, hwrite ▸ hverifies⟩
  unfold packet tcp
  rw [if_neg (Nat.not_lt_of_le h.srcPort), if_neg (by have := h.dstPort; omega),
    if_neg (Nat.not_lt_of_le h.window)]
  change wire.toIP _ identification = _
  unfold toIP
  rw [hip]
  change (tcpChecksum ip).bind (fun cksum => .ok (writeUInt16BE ip cksum (20 + 16))) = _
  unfold tcpChecksum
  rw [hcksum]
  exact congrArg Except.ok hwrite

theorem packet_eq_ok {ip : Bytes} (h : wire.packet identification = .ok ip) :
    ∃ tcp, wire.tcp = .ok tcp ∧ wire.toIP tcp identification = .ok ip := by
  unfold packet at h
  cases htcp : wire.tcp with
  | error message =>
      rw [htcp] at h
      cases h
  | ok tcp =>
      rw [htcp] at h
      exact ⟨tcp, rfl, h⟩

theorem packet_of {tcp ip : Bytes} (htcp : wire.tcp = .ok tcp)
    (hip : wire.toIP tcp identification = .ok ip) : wire.packet identification = .ok ip := by
  unfold packet
  rw [htcp]
  exact hip

/-- Exactly the segments that fit are written. Everything else throws. -/
theorem packet_iff_fits (wire : WireSegment) (identification : Fin 65535) :
    (∃ ip, wire.packet identification = .ok ip) ↔ wire.Fits := by
  constructor
  · rintro ⟨ip, h⟩
    unfold packet tcp at h
    split at h
    · cases h
    rename_i hsrcPort
    split at h
    · cases h
    rename_i hdstPort
    split at h
    · cases h
    rename_i hwindow
    refine ⟨Nat.le_of_not_gt hsrcPort, by omega, Nat.le_of_not_gt hwindow, ?_⟩
    change wire.toIP _ identification = _ at h
    unfold toIP at h
    cases hbuild : buildIPv4Packet (wire.tcpFront ++ bytes 0 ++ wire.tcpBack)
        (.buffer wire.srcAddress) (.buffer wire.dstAddress) 6 identification with
    | error message =>
        rw [hbuild] at h
        cases h
    | ok ip =>
        have hlength := (buildIPv4Packet_ok hbuild).1
        rwa [tcp_length] at hlength
  · intro h
    obtain ⟨value, cksum, hpacket, -, -⟩ := h.packet_ok identification
    exact ⟨_, hpacket⟩

/-- The option of a SYN is read back, since it stands first. -/
theorem parseTCPOptions_mss {packet : Bytes} {start mss : Nat} (hmss : 0 < mss)
    (hkind : byteAt packet start = 2) (hlength : byteAt packet (start + 1) = 4)
    (hvalue : readUInt16BE packet (start + 2) = mss) :
    parseTCPOptions packet (start + 4) start none = some mss := by
  unfold parseTCPOptions
  rw [if_pos (by omega)]
  dsimp only
  rw [if_neg (by omega), if_neg (by omega), if_neg (by omega), hlength, if_neg (by omega),
    if_pos ⟨hkind, rfl, by omega⟩, hvalue]
  unfold parseTCPOptions
  rw [if_neg (by omega)]

theorem bytes_mss (mss : Nat) :
    [UInt8.ofNat (mss >>> 8), UInt8.ofNat (mss &&& 0xff)] = bytes mss := by
  rw [bytes, Nat.shiftRight_eq_div_pow, show (0xff : Nat) = 2 ^ 8 - 1 from rfl,
    Nat.and_two_pow_sub_one_eq_mod]

/-- The handlers read a segment back as it was written, whatever its checksum. -/
theorem Fits.parse {cfg : Settings} (h : wire.Fits) (hoffer : wire.OffersMss cfg) (cksum : Nat)
    {header : Bytes} {parsed : ParsedIPv4}
    (hheader : (byteAt parsed.packet 0 &&& 0x0f) * 4 = header.length)
    (hpacket : parsed.packet = header ++ (wire.tcpFront ++ bytes cksum ++ wire.tcpBack)) :
    parseTCPSegment parsed = some {
      srcIP := parsed.srcIP
      dstIP := parsed.dstIP
      srcPort := wire.flow.srcPort
      dstPort := wire.flow.dstPort.toNat
      seqNum := wire.sequence
      ackNum := wire.acknowledgment
      syn := wire.flags.syn
      ack := wire.flags.ack
      fin := wire.flags.fin
      rst := wire.flags.rst
      psh := wire.flags.psh
      window := wire.window
      mss := wire.mss
      payload := wire.payload } := by
  generalize hdata : wire.tcpFront ++ bytes cksum ++ wire.tcpBack = data at hpacket
  have hlength : data.length = wire.tcpHeaderLength + wire.payload.length :=
    hdata ▸ tcp_length cksum
  have hmtu := cfg.mtu_range
  have hoptions : wire.tcpOptions.length = if wire.flags.syn then 4 else 0 := by
    rw [tcpOptions_length, hoffer]
    cases wire.flags.syn <;> rfl
  -- the fields, each of which stands at a fixed place of the header
  have hsrcPort : readUInt16BE data 0 = wire.flow.srcPort :=
    hdata ▸ readUInt16BE_bytes h.srcPort [] []
  have hdstPort : readUInt16BE data 2 = wire.flow.dstPort.toNat :=
    hdata ▸ readUInt16BE_bytes (by have := h.dstPort; omega) [] []
  have hseq : BitVec.ofNat 32 (readUInt32BE data 4) = wire.sequence :=
    hdata ▸ readUInt32BE_word32 wire.sequence
  have hack : BitVec.ofNat 32 (readUInt32BE data 8) = wire.acknowledgment :=
    hdata ▸ readUInt32BE_word32 wire.acknowledgment
  have hwindow : readUInt16BE data 14 = wire.window :=
    hdata ▸ readUInt16BE_bytes h.window [] []
  have hoffset : byteAt data 12 = (UInt8.ofNat ((wire.tcpHeaderLength / 4) <<< 4)).toNat :=
    hdata ▸ rfl
  have hflags : byteAt data 13 = flagByte wire.flags := by
    have hbyte : byteAt data 13 = (UInt8.ofNat (flagByte wire.flags)).toNat := hdata ▸ rfl
    rw [hbyte, UInt8.toNat_ofNat_of_lt' (flagByte_lt wire.flags)]
  have hdataOffset : (byteAt data 12 >>> 4) * 4 = wire.tcpHeaderLength := by
    rw [hoffset, tcpHeaderLength, hoptions]
    cases wire.flags.syn <;> rfl
  have hpayload : data.drop wire.tcpHeaderLength = wire.payload := by
    rw [← hdata, tcpBack, ← List.append_assoc]
    refine List.drop_left' ?_
    simp only [tcpHeaderLength, List.length_append, tcpFront_length, bytes_length]
    omega
  -- only a SYN has options
  have hmss : (if wire.flags.syn && decide (wire.tcpHeaderLength > 20) then
      parseTCPOptions (header ++ data) (header.length + wire.tcpHeaderLength) (header.length + 20)
        none
      else none) = wire.mss := by
    cases hsyn : wire.flags.syn with
    | false =>
        rw [hoffer, hsyn]
        rfl
    | true =>
        have hsome : wire.mss = some cfg.TCP_MSS := by
          rw [hoffer, hsyn]
          rfl
        have hlist : wire.tcpOptions = [2, 4] ++ bytes cfg.TCP_MSS := by
          rw [← bytes_mss, tcpOptions, hsome]
          rfl
        have hdata' : data = wire.tcpFront ++ bytes cksum ++
            (bytes 0 ++ ([2, 4] ++ bytes cfg.TCP_MSS) ++ wire.payload) := by
          rw [← hdata, tcpBack, hlist]
        have hvalue : readUInt16BE data 22 = cfg.TCP_MSS :=
          hdata' ▸ readUInt16BE_bytes (by unfold Settings.TCP_MSS; omega) [] []
        rw [tcpHeaderLength, hoptions, hsyn, hsome, if_pos rfl, if_pos (by decide), ← Nat.add_assoc]
        refine parseTCPOptions_mss cfg.TCP_MSS_pos ?_ ?_ ?_
        · rw [byteAt_behind, hdata']
          rfl
        · rw [Nat.add_assoc, byteAt_behind, hdata']
          rfl
        · rw [Nat.add_assoc, readUInt16BE_behind, hvalue]
  have hbits := flagByte_bits wire.flags
  unfold parseTCPSegment
  dsimp only
  rw [hheader, hpacket, List.length_append, hlength, byteAt_behind, byteAt_behind, hdataOffset,
    hflags, if_neg (by unfold tcpHeaderLength; omega), if_neg (by unfold tcpHeaderLength; omega)]
  have hsource := readUInt16BE_behind header data 0
  rw [Nat.add_zero] at hsource
  rw [hsource, readUInt16BE_behind, readUInt32BE_behind, readUInt32BE_behind, readUInt16BE_behind,
    hsrcPort, hdstPort, hseq, hack, hwindow, hbits.1, hbits.2.1, hbits.2.2.1, hbits.2.2.2.1,
    hbits.2.2.2.2, hmss, List.drop_length_add_append, hpayload]

/-- What the handlers make of a segment. -/
def read (wire : WireSegment) : TCPSegment where
  srcIP := dotted wire.flow.srcIP
  dstIP := dotted wire.flow.dstIP
  srcPort := wire.flow.srcPort
  dstPort := wire.flow.dstPort.toNat
  seqNum := wire.sequence
  ackNum := wire.acknowledgment
  syn := wire.flags.syn
  ack := wire.flags.ack
  fin := wire.flags.fin
  rst := wire.flags.rst
  psh := wire.flags.psh
  window := wire.window
  mss := wire.mss
  payload := wire.payload

/-- A packet that could be written is read back as the segment it was made of,
with the length its header says. -/
theorem packet_reads {cfg : Settings} (hoffer : wire.OffersMss cfg) {ip : Bytes}
    (h : wire.packet identification = .ok ip) :
    ReadsAs ip wire.read ∧ ip.length = 20 + (wire.tcpHeaderLength + wire.payload.length) := by
  have hfits := (packet_iff_fits wire identification).mp ⟨ip, h⟩
  obtain ⟨value, cksum, hpacket, hverified, hverifies⟩ := hfits.packet_ok identification
  have htransport := @tcp_length wire cksum
  generalize hheader : ipv4Header (20 + (wire.tcpHeaderLength + wire.payload.length)) identification
    6 value wire.srcAddress wire.dstAddress = header at hpacket hverified hverifies
  have hlength : header.length = 20 := by
    rw [← hheader]
    exact ipv4Header_length rfl rfl
  obtain rfl : ip = header ++ (wire.tcpFront ++ bytes cksum ++ wire.tcpBack) :=
    Except.ok.inj (h.symm.trans hpacket)
  have hparse := @parseIPv4Packet_header wire.srcAddress wire.dstAddress identification 6 value
    (wire.tcpFront ++ bytes cksum ++ wire.tcpBack) (by rw [htransport]; exact hfits.totalLength)
    rfl rfl []
  rw [List.append_nil, htransport, hheader, srcAddress, dstAddress,
    formatIPv4_octets (dotted_canonical _), formatIPv4_octets (dotted_canonical _)] at hparse
  have hfirst : (byteAt (header ++ (wire.tcpFront ++ bytes cksum ++ wire.tcpBack)) 0 &&& 0x0f) * 4 =
      header.length := by
    have hbyte : byteAt (header ++ (wire.tcpFront ++ bytes cksum ++ wire.tcpBack)) 0 = 0x45 := by
      rw [← hheader]
      rfl
    rw [hbyte, hlength]
    rfl
  refine ⟨⟨⟨_, hparse, rfl, hfits.parse hoffer cksum hfirst rfl⟩, ?_, hverifies⟩, ?_⟩
  · rwa [List.take_left' hlength]
  · rw [List.length_append, hlength, htransport]

end WireSegment

end RootlessRelay
