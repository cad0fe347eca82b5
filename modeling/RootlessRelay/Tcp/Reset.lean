import RootlessRelay.Tcp.Header

/-!
# Resets for unknown connections

What `handleReverseTCP` answers a segment that belongs to no reverse connection,
and what the endpoint that sent the segment makes of the answer. The reset
always takes its sequence number from the acknowledgment field, and never
acknowledges anything: an endpoint whose segment carried an acknowledgment
accepts it, and one that has just sent a SYN does not.

The endpoint is described by the little that its reaction to a reset depends on,
whether it has a synchronized connection or waits for the answer to its SYN. The
reset itself is followed through the bytes: it is written, read back by the
parser of the VM's side, and compared with what a refusal has to say.
-/

namespace RootlessRelay

open OnesComplement

/-- The object `getReverseFlow` returns: the addresses as the relay sends them. -/
structure ReverseFlow where
  relaySrcIP : Address
  relayDstIP : Address
  relaySrcPort : Port
  relayDstPort : Port
  deriving DecidableEq, Repr

/-- `getReverseFlow`, which exchanges the two ends. -/
def getReverseFlow (srcIP dstIP : Address) (srcPort dstPort : Port) : ReverseFlow where
  relaySrcIP := dstIP
  relayDstIP := srcIP
  relaySrcPort := dstPort
  relayDstPort := srcPort

/-- The buffer of `sendRSTForReverse`. The ports are 16 bits of a packet. -/
def rstBuffer (srcPort dstPort : Port) (seqNum : Seq) : Bytes :=
  bytes srcPort ++ bytes dstPort ++ word32 seqNum ++ word32 0 ++ [0x50, 0x04] ++ bytes 0 ++
    bytes 0 ++ bytes 0

/-- The packet `sendRSTForReverse` hands to `sendIPToVM`. -/
def sendRSTForReverse (srcPort dstPort : Port) (srcIP dstIP : Address) (seqNum : Seq)
    (identification : Fin 65535) : Except String Bytes := do
  let tcp := rstBuffer srcPort dstPort seqNum
  let ip ← buildIPv4Packet tcp (.string srcIP.text) (.string dstIP.text) 6 identification
  let cksum ← tcpChecksum ip
  pure (writeUInt16BE ip cksum (20 + 16))

/-- `handleReverseTCP` for a port without a connection: the packet it sends, if
any. -/
def refuseReverseTCP (recentlyClosed : List Port) (parsed : ParsedIPv4)
    (identification : Fin 65535) : Option (Except String Bytes) :=
  match parseTCPSegment parsed with
  | none => none
  | some segment =>
      let connKey := segment.dstPort
      let reverseFlow := getReverseFlow segment.srcIP segment.dstIP segment.srcPort segment.dstPort
      if connKey ∈ recentlyClosed then none
      else if segment.rst then none
      else
        some (sendRSTForReverse reverseFlow.relaySrcPort reverseFlow.relayDstPort
          reverseFlow.relaySrcIP reverseFlow.relayDstIP segment.ackNum identification)

/-- The sequence numbers a segment takes up. -/
def TCPSegment.length (segment : TCPSegment) : Nat :=
  segment.payload.length + (if segment.syn then 1 else 0) + (if segment.fin then 1 else 0)

/-- The state of an endpoint, as far as resets depend on it. -/
inductive Endpoint
  | synSent (iss sndNxt : Seq)
  | synchronized (rcvNxt : Seq)

/-- The endpoint can have sent the segment: a SYN that takes up what it has
sent, or a segment that acknowledges what it has received. -/
def Endpoint.Sent (endpoint : Endpoint) (segment : TCPSegment) : Prop :=
  match endpoint with
  | .synSent iss sndNxt =>
      segment.syn = true ∧ segment.ack = false ∧ segment.seqNum = iss ∧
        sndNxt = iss + BitVec.ofNat 32 segment.length
  | .synchronized rcvNxt => segment.ack = true ∧ segment.ackNum = rcvNxt

/-- The endpoint takes the reset for its own. Before it is synchronized it needs
an acknowledgment of what it has sent, afterwards the sequence number it waits
for. -/
def Endpoint.Accepts (endpoint : Endpoint) (reply : TCPSegment) : Prop :=
  match endpoint with
  | .synSent iss sndNxt =>
      reply.rst = true ∧ reply.ack = true ∧ 0 < (reply.ackNum - iss).toNat ∧
        (reply.ackNum - iss).toNat ≤ (sndNxt - iss).toNat
  | .synchronized rcvNxt => reply.rst = true ∧ reply.seqNum = rcvNxt

/-- The reset that refuses a segment, with its addresses exchanged. -/
structure ResetFor (segment reply : TCPSegment) : Prop where
  srcIP : reply.srcIP = segment.dstIP
  dstIP : reply.dstIP = segment.srcIP
  srcPort : reply.srcPort = segment.dstPort
  dstPort : reply.dstPort = segment.srcPort
  rst : reply.rst = true
  sequence :
    if segment.ack then reply.seqNum = segment.ackNum
    else reply.seqNum = 0 ∧ reply.ack = true ∧
      reply.ackNum = segment.seqNum + BitVec.ofNat 32 segment.length

/-- The segment is refused with a reset that every endpoint that can have sent
it accepts. -/
def Refused (recentlyClosed : List Port) (parsed : ParsedIPv4) (segment : TCPSegment)
    (identification : Fin 65535) : Prop :=
  ∃ ip reply, refuseReverseTCP recentlyClosed parsed identification = some (.ok ip) ∧
    ReadsAs ip reply ∧ ResetFor segment reply ∧
      ∀ endpoint : Endpoint, endpoint.Sent segment → endpoint.Accepts reply

variable {segment reply : TCPSegment}

/-- Whoever sent the segment accepts the reset for it. -/
theorem ResetFor.accepted (h : ResetFor segment reply) (hlength : segment.length < 2 ^ 32)
    {endpoint : Endpoint} (hsent : endpoint.Sent segment) : endpoint.Accepts reply := by
  have hsequence := h.sequence
  cases endpoint with
  | synSent iss sndNxt =>
      obtain ⟨hsyn, hack, rfl, rfl⟩ := hsent
      rw [hack] at hsequence
      obtain ⟨-, hreply, hackNum⟩ := hsequence
      have hpos : 0 < segment.length := by
        unfold TCPSegment.length
        rw [hsyn, if_pos rfl]
        omega
      have hdistance : (segment.seqNum + BitVec.ofNat 32 segment.length - segment.seqNum).toNat =
          segment.length := by
        rw [BitVec.add_comm, BitVec.add_sub_cancel, BitVec.toNat_ofNat, Nat.mod_eq_of_lt hlength]
      refine ⟨h.rst, hreply, ?_, ?_⟩
      · rw [hackNum, hdistance]
        exact hpos
      · rw [hackNum]
  | synchronized rcvNxt =>
      obtain ⟨hack, rfl⟩ := hsent
      rw [hack] at hsequence
      exact ⟨h.rst, hsequence⟩

/-- The number of an address with four octets. -/
def Address.toIPv4 (a : Address) : IPv4 :=
  BitVec.ofNat 32 (((a.a * 256 + a.b) * 256 + a.c) * 256 + a.d)

theorem dotted_toIPv4 {a : Address} (h : a.Canonical) : dotted a.toIPv4 = a := by
  obtain ⟨a, b, c, d⟩ := a
  obtain ⟨ha, hb, hc, hd⟩ := h
  dsimp only at ha hb hc hd
  unfold dotted Address.toIPv4
  simp only [BitVec.toNat_ushiftRight, BitVec.toNat_ofNat, Nat.shiftRight_eq_div_pow, Address.mk.injEq]
  omega

/-- A reset as a segment on the wire. -/
def rstWire (srcPort dstPort : Port) (srcIP dstIP : Address) (seqNum : Seq) : WireSegment where
  flow := { srcPort, dstPort, srcIP := srcIP.toIPv4, dstIP := dstIP.toIPv4 }
  sequence := seqNum
  acknowledgment := 0
  flags := { rst := true }
  window := 0
  mss := none
  payload := []

theorem buildIPv4Packet_text {a b : Address} (ha : a.Canonical) (hb : b.Canonical) (payload : Bytes)
    (protocol identification : Nat) :
    buildIPv4Packet payload (.string a.text) (.string b.text) protocol identification =
      buildIPv4Packet payload (.buffer a.octets) (.buffer b.octets) protocol identification := by
  unfold buildIPv4Packet
  rw [ipv4Bytes_text ha, ipv4Bytes_text hb]
  rfl

variable {srcPort dstPort : Port} {srcIP dstIP : Address} {seqNum : Seq}

/-- `sendRSTForReverse` writes the packet of that segment. -/
theorem sendRSTForReverse_eq (hsrcPort : srcPort ≤ 0xffff) (hdstPort : dstPort ≤ 0xffff)
    (hsrc : srcIP.Canonical) (hdst : dstIP.Canonical) (identification : Fin 65535) :
    sendRSTForReverse srcPort dstPort srcIP dstIP seqNum identification =
      (rstWire srcPort dstPort srcIP dstIP seqNum).packet identification := by
  have htcp : (rstWire srcPort dstPort srcIP dstIP seqNum).tcp =
      .ok (rstBuffer srcPort dstPort seqNum) := by
    have hbuffer : (rstWire srcPort dstPort srcIP dstIP seqNum).tcpFront ++ bytes 0 ++
        (rstWire srcPort dstPort srcIP dstIP seqNum).tcpBack = rstBuffer srcPort dstPort seqNum := by
      have hflags : flagByte { rst := true } = 4 := by decide
      change bytes srcPort ++ bytes dstPort ++ word32 seqNum ++ word32 0 ++
        [UInt8.ofNat ((20 / 4) <<< 4), UInt8.ofNat (flagByte { rst := true })] ++ bytes 0 ++
          bytes 0 ++ (bytes 0 ++ [] ++ []) = _
      rw [hflags]
      rfl
    have hwindow : (rstWire srcPort dstPort srcIP dstIP seqNum).window = 0 := rfl
    have hport : ¬((dstPort : Int) < 0 ∨ (dstPort : Int) > 0xffff) :=
      not_or.mpr ⟨not_lt.mpr (Int.natCast_nonneg _), not_lt.mpr (Int.ofNat_le.mpr hdstPort)⟩
    unfold WireSegment.tcp
    rw [hbuffer, hwindow, if_neg (Nat.not_lt_zero _)]
    exact (if_neg (Nat.not_lt_of_le hsrcPort)).trans (if_neg hport)
  unfold sendRSTForReverse WireSegment.packet
  rw [htcp]
  change _ = (rstWire srcPort dstPort srcIP dstIP seqNum).toIP _ identification
  have hsrcAddress : (rstWire srcPort dstPort srcIP dstIP seqNum).srcAddress = srcIP.octets := by
    change (dotted srcIP.toIPv4).octets = _
    rw [dotted_toIPv4 hsrc]
  have hdstAddress : (rstWire srcPort dstPort srcIP dstIP seqNum).dstAddress = dstIP.octets := by
    change (dotted dstIP.toIPv4).octets = _
    rw [dotted_toIPv4 hdst]
  unfold WireSegment.toIP
  dsimp only
  rw [hsrcAddress, hdstAddress, buildIPv4Packet_text hsrc hdst]

/-- The packet is written, and read back as the reset. -/
theorem sendRSTForReverse_reads (hsrcPort : srcPort ≤ 0xffff) (hdstPort : dstPort ≤ 0xffff)
    (hsrc : srcIP.Canonical) (hdst : dstIP.Canonical) (identification : Fin 65535) :
    ∃ ip, sendRSTForReverse srcPort dstPort srcIP dstIP seqNum identification = .ok ip ∧
      ReadsAs ip {
        srcIP, dstIP, srcPort, dstPort, seqNum
        ackNum := 0, syn := false, ack := false, fin := false, rst := true, psh := false
        window := 0, mss := none, payload := [] } := by
  have hport : 0 ≤ (dstPort : Int) ∧ (dstPort : Int) ≤ 0xffff :=
    ⟨Int.natCast_nonneg _, Int.ofNat_le.mpr hdstPort⟩
  have hfits : (rstWire srcPort dstPort srcIP dstIP seqNum).Fits :=
    ⟨hsrcPort, hport, Nat.zero_le _, show 20 + (20 + 0) ≤ 0xffff by decide⟩
  obtain ⟨ip, hip⟩ := (WireSegment.packet_iff_fits _ identification).mpr hfits
  have hoffer : (rstWire srcPort dstPort srcIP dstIP seqNum).OffersMss ({} : Settings) := rfl
  obtain ⟨hreads, -⟩ := WireSegment.packet_reads hoffer hip
  refine ⟨ip, by rw [sendRSTForReverse_eq hsrcPort hdstPort hsrc hdst, hip], ?_⟩
  have hread : (rstWire srcPort dstPort srcIP dstIP seqNum).read = {
      srcIP := dotted srcIP.toIPv4, dstIP := dotted dstIP.toIPv4, srcPort, dstPort, seqNum
      ackNum := 0, syn := false, ack := false, fin := false, rst := true, psh := false
      window := 0, mss := none, payload := [] } := rfl
  rwa [hread, dotted_toIPv4 hsrc, dotted_toIPv4 hdst] at hreads

theorem parseTCPSegment_fields {parsed : ParsedIPv4} (h : parseTCPSegment parsed = some segment) :
    segment.srcIP = parsed.srcIP ∧ segment.dstIP = parsed.dstIP ∧ segment.srcPort ≤ 0xffff ∧
      segment.dstPort ≤ 0xffff ∧ segment.payload.length ≤ parsed.packet.length := by
  unfold parseTCPSegment at h
  dsimp only at h
  split at h
  · cases h
  split at h
  · cases h
  cases h
  exact ⟨rfl, rfl, readUInt16BE_le _ _, readUInt16BE_le _ _, by rw [List.length_drop]; omega⟩

theorem ReadsAs.unique {ip : Bytes} {reply' : TCPSegment} (h : ReadsAs ip reply)
    (h' : ReadsAs ip reply') : reply = reply' := by
  obtain ⟨parsed, hparse, -, hsegment⟩ := h.parse
  obtain ⟨parsed', hparse', -, hsegment'⟩ := h'.parse
  cases hparse.symm.trans hparse'
  exact Option.some.inj (hsegment.symm.trans hsegment')

section Refusal

variable {raw : Bytes} {parsed : ParsedIPv4} {recentlyClosed : List Port}
  {identification : Fin 65535}

/-- The reset that goes out for a segment. -/
theorem refuseReverseTCP_reads (hparse : parseIPv4Packet raw = some parsed)
    (hsegment : parseTCPSegment parsed = some segment) (hrst : segment.rst = false)
    (hclosed : segment.dstPort ∉ recentlyClosed) (identification : Fin 65535) :
    ∃ ip, refuseReverseTCP recentlyClosed parsed identification = some (.ok ip) ∧ ReadsAs ip {
      srcIP := segment.dstIP, dstIP := segment.srcIP
      srcPort := segment.dstPort, dstPort := segment.srcPort, seqNum := segment.ackNum
      ackNum := 0, syn := false, ack := false, fin := false, rst := true, psh := false
      window := 0, mss := none, payload := [] } := by
  obtain ⟨hsrc, hdst, hsrcPort, hdstPort, -⟩ := parseTCPSegment_fields hsegment
  obtain ⟨hparsedSrc, hparsedDst, -⟩ := parseIPv4Packet_fields hparse
  have hsrcCanonical : segment.srcIP.Canonical := hsrc ▸ hparsedSrc ▸ formatIPv4_canonical raw 12
  have hdstCanonical : segment.dstIP.Canonical := hdst ▸ hparsedDst ▸ formatIPv4_canonical raw 16
  obtain ⟨ip, hsent, hreads⟩ := @sendRSTForReverse_reads segment.dstPort segment.srcPort segment.dstIP
    segment.srcIP segment.ackNum hdstPort hsrcPort hdstCanonical hsrcCanonical identification
  refine ⟨ip, ?_, hreads⟩
  unfold refuseReverseTCP
  rw [hsegment]
  dsimp only
  rw [if_neg hclosed, hrst, if_neg (by decide)]
  exact congrArg some hsent

/-- No reset acknowledges anything, so a segment without an acknowledgment gets
none that fits. -/
theorem Refused.ack (h : Refused recentlyClosed parsed segment identification)
    (hparse : parseIPv4Packet raw = some parsed)
    (hsegment : parseTCPSegment parsed = some segment) (hrst : segment.rst = false)
    (hclosed : segment.dstPort ∉ recentlyClosed) : segment.ack = true := by
  obtain ⟨ip, hrefuse, hreads⟩ :=
    refuseReverseTCP_reads hparse hsegment hrst hclosed identification
  obtain ⟨ip', reply, hrefuse', hreads', hreset, -⟩ := h
  obtain rfl : ip = ip' := Except.ok.inj (Option.some.inj (hrefuse.symm.trans hrefuse'))
  obtain rfl := hreads.unique hreads'
  by_contra hack
  have hsequence := hreset.sequence
  rw [if_neg hack] at hsequence
  cases hsequence.2.1

theorem TCPSegment.length_lt (hparse : parseIPv4Packet raw = some parsed)
    (hsegment : parseTCPSegment parsed = some segment) : segment.length < 2 ^ 32 := by
  obtain ⟨-, -, -, -, hpayload⟩ := parseTCPSegment_fields hsegment
  obtain ⟨-, -, htotal⟩ := parseIPv4Packet_fields hparse
  obtain ⟨-, hlength, -⟩ := parseIPv4Packet_inside hparse
  have hword := readUInt16BE_le raw 2
  unfold TCPSegment.length
  split <;> split <;> omega

/-- A segment for a port without a connection is refused effectively exactly if
it carries an acknowledgment. -/
theorem refused_iff (hparse : parseIPv4Packet raw = some parsed)
    (hsegment : parseTCPSegment parsed = some segment) (hrst : segment.rst = false)
    (hclosed : segment.dstPort ∉ recentlyClosed) (identification : Fin 65535) :
    Refused recentlyClosed parsed segment identification ↔ segment.ack = true := by
  constructor
  · exact fun h => h.ack hparse hsegment hrst hclosed
  · intro hack
    obtain ⟨ip, hrefuse, hreads⟩ :=
      refuseReverseTCP_reads hparse hsegment hrst hclosed identification
    have hreset : ResetFor segment {
        srcIP := segment.dstIP, dstIP := segment.srcIP, srcPort := segment.dstPort
        dstPort := segment.srcPort, seqNum := segment.ackNum, ackNum := 0, syn := false
        ack := false, fin := false, rst := true, psh := false, window := 0, mss := none
        payload := [] } := by
      refine ⟨rfl, rfl, rfl, rfl, rfl, ?_⟩
      rw [if_pos hack]
    exact ⟨ip, _, hrefuse, hreads, hreset, fun endpoint hendpoint =>
      hreset.accepted (TCPSegment.length_lt hparse hsegment) hendpoint⟩

end Refusal

/-- A packet from 10.0.2.15:4000 to port 80 of the gateway, with sequence number
7 and acknowledgment number 9. -/
def exampleProbe (flags : UInt8) : Bytes :=
  [0x45, 0, 0, 40, 0, 1, 0, 0, 64, 6, 0, 0, 10, 0, 2, 15, 10, 0, 2, 2, 0x0f, 0xa0, 0, 80, 0, 0, 0, 7,
    0, 0, 0, 9, 0x50, flags, 4, 0, 0, 0, 0, 0]

/-- An ACK is refused. -/
theorem refused_iff_ack :
    ∃ parsed segment, parseIPv4Packet (exampleProbe 0x10) = some parsed ∧
      Refused [] parsed segment 0 := by
  have hparse : parseIPv4Packet (exampleProbe 0x10) = some ⟨exampleProbe 0x10, 20, 40, 6,
    ⟨10, 0, 2, 15⟩, ⟨10, 0, 2, 2⟩, false, 0⟩ := by decide
  have hsegment : parseTCPSegment ⟨exampleProbe 0x10, 20, 40, 6, ⟨10, 0, 2, 15⟩, ⟨10, 0, 2, 2⟩,
      false, 0⟩ = some ⟨⟨10, 0, 2, 15⟩, ⟨10, 0, 2, 2⟩, 4000, 80, 7, 9, false, true, false, false,
        false, 1024, none, []⟩ := by decide
  exact ⟨_, _, hparse, (refused_iff hparse hsegment rfl (List.not_mem_nil) 0).mpr rfl⟩

/-- A SYN is not: its sender goes on waiting. -/
theorem syn_unrefused :
    ∃ parsed segment, parseIPv4Packet (exampleProbe 0x02) = some parsed ∧
      parseTCPSegment parsed = some segment ∧ segment.syn = true ∧ segment.rst = false ∧
        ∀ identification, ¬Refused [] parsed segment identification := by
  have hparse : parseIPv4Packet (exampleProbe 0x02) = some ⟨exampleProbe 0x02, 20, 40, 6,
    ⟨10, 0, 2, 15⟩, ⟨10, 0, 2, 2⟩, false, 0⟩ := by decide
  have hsegment : parseTCPSegment ⟨exampleProbe 0x02, 20, 40, 6, ⟨10, 0, 2, 15⟩, ⟨10, 0, 2, 2⟩,
      false, 0⟩ = some ⟨⟨10, 0, 2, 15⟩, ⟨10, 0, 2, 2⟩, 4000, 80, 7, 9, true, false, false, false,
        false, 1024, none, []⟩ := by decide
  refine ⟨_, _, hparse, hsegment, rfl, rfl, fun identification h => ?_⟩
  cases h.ack hparse hsegment rfl List.not_mem_nil

end RootlessRelay
