import RootlessRelay.Net.IPv4Packet

/-!
# Echo replies

`handleICMP` answers an echo request to the gateway with a copy of the request
in which the addresses are swapped, the type is cleared and both checksums are
computed anew.

The handler works in place: it writes into a copy of the packet, one field after
another, with checksums computed of what has been written so far. The proof
follows the writes one by one, each as a statement about single bytes of the
buffer, and then reads the reply back with the relay's own parser. Options, odd
lengths and any payload are included; a reply differs from its request in the
bytes that `Rewritten` names and in no others.
-/

namespace RootlessRelay

open OnesComplement

/-- `source.copy(buf, offset)`, inside the buffer: the bytes around the copy
stay. -/
def copyInto (buf source : Bytes) (offset : Nat) : Bytes :=
  buf.take offset ++ source ++ buf.drop (offset + source.length)

/-- The packet `handleICMP` hands to `sendIPToVM`, if any. Everything but an
echo request is passed over. -/
def handleICMP (cfg : RelaySettings) (ipPacket : Bytes) (parsed : Option ParsedIPv4) :
    Option Bytes :=
  match parsed with
  | none => none
  | some parsed =>
      if ipPacket.length < parsed.headerLength + 8 then none
      else
        let icmpOffset := parsed.headerLength
        let icmpType := byteAt ipPacket icmpOffset
        if icmpType = 8 ∧ parsed.dstIP = cfg.GATEWAY_IP then
          let reply := copyInto ipPacket (slice ipPacket 16 20) 12
          let reply := copyInto reply (slice ipPacket 12 16) 16
          let reply := copyInto reply [0] icmpOffset
          let reply := writeUInt16BE reply 0 (icmpOffset + 2)
          let icmpCksum := internetChecksum (reply.drop icmpOffset)
          let reply := writeUInt16BE reply icmpCksum (icmpOffset + 2)
          let reply := writeUInt16BE reply 0 10
          let ipCksum := internetChecksum (reply.take parsed.headerLength)
          some (writeUInt16BE reply ipCksum 10)
        else none

/-- The packet `raw` carries an ICMP echo request to the gateway, possibly with
padding behind it. -/
structure EchoRequest (cfg : RelaySettings) (raw : Bytes) (parsed : ParsedIPv4) : Prop where
  parse : parseIPv4Packet raw = some parsed
  protocol : parsed.protocol = 1
  gateway : parsed.dstIP = cfg.GATEWAY_IP
  header : parsed.headerLength + 8 ≤ parsed.packet.length
  type : byteAt parsed.packet parsed.headerLength = 8

/-- The bytes in which a reply may differ from its request: the two checksums,
the addresses and the type. -/
def Rewritten (headerLength i : Nat) : Prop :=
  (10 ≤ i ∧ i < 12) ∨ (12 ≤ i ∧ i < 20) ∨ i = headerLength ∨
    (headerLength + 2 ≤ i ∧ i < headerLength + 4)

/-- The reply to a request: the parser accepts it, with the addresses swapped;
it is an echo reply, both checksums verify, and all other bytes are those of the
request. -/
structure EchoReply (parsed : ParsedIPv4) (reply : Bytes) : Prop where
  parse : parseIPv4Packet reply =
    some { parsed with packet := reply, srcIP := parsed.dstIP, dstIP := parsed.srcIP }
  type : byteAt reply parsed.headerLength = 0
  header : internetChecksum (reply.take parsed.headerLength) = 0
  message : internetChecksum (reply.drop parsed.headerLength) = 0
  length : reply.length = parsed.packet.length
  same : ∀ i, ¬Rewritten parsed.headerLength i → reply[i]? = parsed.packet[i]?

variable {buf source : Bytes} {offset i : Nat}

theorem copyInto_length (h : offset + source.length ≤ buf.length) :
    (copyInto buf source offset).length = buf.length := by
  simp only [copyInto, List.length_append, List.length_take, List.length_drop]
  omega

theorem copyInto_getElem? (h : offset + source.length ≤ buf.length) (i : Nat) :
    (copyInto buf source offset)[i]? =
      if offset ≤ i ∧ i < offset + source.length then source[i - offset]? else buf[i]? := by
  have hfront : (buf.take offset).length = offset := List.length_take_of_le (by omega)
  unfold copyInto
  rw [List.append_assoc]
  by_cases hbefore : i < offset
  · rw [List.getElem?_append_left (by omega), List.getElem?_take_of_lt hbefore, if_neg (by omega)]
  rw [List.getElem?_append_right (by omega), hfront]
  by_cases hinside : i < offset + source.length
  · rw [List.getElem?_append_left (by omega), if_pos (by omega)]
  · rw [List.getElem?_append_right (by omega), List.getElem?_drop, if_neg (by omega)]
    congr 1
    omega

theorem writeUInt16BE_eq_copyInto (buf : Bytes) (value offset : Nat) :
    writeUInt16BE buf value offset = copyInto buf (bytes value) offset := rfl

/-- A write shows nowhere else: every other byte is what it was. -/
theorem writeUInt16BE_getElem? (h : offset + 2 ≤ buf.length) (value : Nat)
    (hnot : ¬(offset ≤ i ∧ i < offset + 2)) : (writeUInt16BE buf value offset)[i]? = buf[i]? := by
  rw [writeUInt16BE_eq_copyInto, copyInto_getElem? h]
  exact if_neg hnot

theorem byteAt_eq_of_getElem? {buf' : Bytes} (h : buf[i]? = buf'[i]?) :
    byteAt buf i = byteAt buf' i := by
  rw [byteAt, byteAt, List.getD_eq_getElem?_getD, List.getD_eq_getElem?_getD, h]

/-- A word behind `start`, seen from there, as the checksum of the ICMP part
sees it. -/
theorem drop_write {start : Nat} (h : start + offset + 2 ≤ buf.length) (value : Nat) :
    (writeUInt16BE buf value (start + offset)).drop start =
      writeUInt16BE (buf.drop start) value offset := by
  rw [drop_writeUInt16BE h, writeUInt16BE, List.drop_drop, Nat.add_assoc]

/-- A word in front of `start` does not show behind it, so the header's checksum
leaves the ICMP part alone. -/
theorem drop_write_before {start : Nat} (h : offset + 2 ≤ start) (hlen : start ≤ buf.length)
    (value : Nat) : (writeUInt16BE buf value offset).drop start = buf.drop start := by
  have hfront : (buf.take offset ++ bytes value).length = offset + 2 := by
    rw [List.length_append, List.length_take_of_le (by omega), bytes_length]
  rw [writeUInt16BE, List.drop_append, hfront, List.drop_drop,
    List.drop_eq_nil_of_le (by omega), List.nil_append]
  congr 1
  omega

theorem take_write {stop : Nat} (h : offset + 2 ≤ stop) (hlen : stop ≤ buf.length) (value : Nat) :
    (writeUInt16BE buf value offset).take stop = writeUInt16BE (buf.take stop) value offset := by
  have hfront : (buf.take offset ++ bytes value).length = offset + 2 := by
    rw [List.length_append, List.length_take_of_le (by omega), bytes_length]
  rw [writeUInt16BE, writeUInt16BE, List.take_append, hfront, List.take_of_length_le (by omega),
    List.take_take, Nat.min_eq_left (by omega), List.drop_take]

theorem write_write (h : offset + 2 ≤ buf.length) (value value' : Nat) :
    writeUInt16BE (writeUInt16BE buf value offset) value' offset = writeUInt16BE buf value' offset := by
  have hfront : (buf.take offset).length = offset := List.length_take_of_le (by omega)
  have hwrite := writeUInt16BE_bytes (buf.take offset) (buf.drop (offset + 2)) value value'
  rw [hfront] at hwrite
  exact hwrite

/-- Data that carries its own checksum verifies. The field is cleared before the
checksum is computed. -/
theorem checksum_write (h : offset + 2 ≤ buf.length) (heven : offset % 2 = 0) :
    internetChecksum (writeUInt16BE buf (internetChecksum (writeUInt16BE buf 0 offset)) offset) =
      0 := by
  have hfront : (buf.take offset).length % 2 = 0 := by
    rw [List.length_take_of_le (by omega)]
    exact heven
  rw [internetChecksum_eq, internetChecksum_eq]
  exact checksum_verifies hfront _

/-- A packet with the length and the front of one that parses is parsed alike;
addresses may differ. -/
theorem parseIPv4Packet_front {raw data : Bytes} {parsed : ParsedIPv4}
    (h : parseIPv4Packet raw = some parsed) (hlength : data.length = parsed.totalLength)
    (hfront : ∀ i < 10, byteAt data i = byteAt raw i) :
    parseIPv4Packet data =
      some { parsed with
        packet := data, srcIP := formatIPv4 data 12, dstIP := formatIPv4 data 16 } := by
  have hword : ∀ i < 9, readUInt16BE data i = readUInt16BE raw i := by
    intro i hi
    rw [readUInt16BE, readUInt16BE, hfront i (by omega), hfront (i + 1) (by omega)]
  have hinside := parseIPv4Packet_inside h
  unfold parseIPv4Packet at h ⊢
  rw [hfront 0 (by omega), hfront 9 (by omega), hword 2 (by omega), hword 6 (by omega)]
  split at h
  · cases h
  dsimp only at h ⊢
  split at h
  · cases h
  rename_i hheader
  split at h
  · cases h
  rename_i htotal
  cases h
  dsimp only at hlength hinside
  rw [if_neg (by omega), if_neg (by omega), if_neg (by omega), List.take_of_length_le (by omega)]

/-- The copy with the addresses swapped and the type cleared, before the
checksums are written. -/
def swapped (ipPacket : Bytes) (icmpOffset : Nat) : Bytes :=
  copyInto (copyInto (copyInto ipPacket (slice ipPacket 16 20) 12) (slice ipPacket 12 16) 16) [0]
    icmpOffset

section Swapped

variable {ipPacket : Bytes} {icmpOffset : Nat}

theorem slice_length_four {start : Nat} (h : start + 4 ≤ ipPacket.length) :
    (slice ipPacket start (start + 4)).length = 4 := by
  rw [slice, List.length_drop, List.length_take]
  omega

theorem slice_getElem? {start stop : Nat} (h : start + i < stop) :
    (slice ipPacket start stop)[i]? = ipPacket[start + i]? := by
  rw [slice, List.getElem?_drop, List.getElem?_take_of_lt h]

/-- The reply before its checksum, byte by byte: the two addresses exchanged,
and the type set to zero. -/
theorem swapped_spec (hstart : 20 ≤ icmpOffset) (hend : icmpOffset < ipPacket.length) :
    (swapped ipPacket icmpOffset).length = ipPacket.length ∧
      ∀ i, (swapped ipPacket icmpOffset)[i]? =
        if i = icmpOffset then some 0
        else if 12 ≤ i ∧ i < 16 then ipPacket[i + 4]?
        else if 16 ≤ i ∧ i < 20 then ipPacket[i - 4]?
        else ipPacket[i]? := by
  have hdst : (slice ipPacket 16 20).length = 4 := slice_length_four (by omega)
  have hsrc : (slice ipPacket 12 16).length = 4 := slice_length_four (by omega)
  have hfirst : 12 + (slice ipPacket 16 20).length ≤ ipPacket.length := by omega
  have hlength₁ := copyInto_length hfirst
  have hsecond : 16 + (slice ipPacket 12 16).length ≤
      (copyInto ipPacket (slice ipPacket 16 20) 12).length := by omega
  have hlength₂ := copyInto_length hsecond
  have hthird : icmpOffset + ([0] : Bytes).length ≤ (copyInto (copyInto ipPacket
      (slice ipPacket 16 20) 12) (slice ipPacket 12 16) 16).length := by
    rw [hlength₂, hlength₁]
    exact hend
  refine ⟨(copyInto_length hthird).trans (hlength₂.trans hlength₁), fun i => ?_⟩
  unfold swapped
  rw [copyInto_getElem? hthird, copyInto_getElem? hsecond, copyInto_getElem? hfirst, hsrc, hdst]
  by_cases htype : i = icmpOffset
  · rw [if_pos (by simp [htype]), if_pos htype, htype, Nat.sub_self]
    rfl
  rw [if_neg (by simp only [List.length_singleton]; omega), if_neg htype]
  by_cases hlow : 12 ≤ i ∧ i < 16
  · rw [if_neg (by omega), if_pos hlow, if_pos hlow, slice_getElem? (by omega)]
    congr 1
    omega
  rw [if_neg hlow, if_neg hlow]
  by_cases hhigh : 16 ≤ i ∧ i < 20
  · rw [if_pos hhigh, if_pos hhigh, slice_getElem? (by omega)]
    congr 1
    omega
  · rw [if_neg hhigh, if_neg hhigh]

end Swapped

/-- What `handleICMP` answers an echo request with: the swapped copy, and two
words written into it. -/
theorem handleICMP_request {cfg : RelaySettings} {raw : Bytes} {parsed : ParsedIPv4}
    (h : EchoRequest cfg raw parsed) :
    ∃ icmpCksum ipCksum,
      handleICMP cfg parsed.packet (some parsed) = some (writeUInt16BE (writeUInt16BE
        (swapped parsed.packet parsed.headerLength) icmpCksum (parsed.headerLength + 2)) ipCksum
          10) ∧
      icmpCksum = internetChecksum (writeUInt16BE
        ((swapped parsed.packet parsed.headerLength).drop parsed.headerLength) 0 2) ∧
      ipCksum = internetChecksum (writeUInt16BE
        ((writeUInt16BE (swapped parsed.packet parsed.headerLength) icmpCksum
          (parsed.headerLength + 2)).take parsed.headerLength) 0 10) := by
  obtain ⟨-, -, -, hmin, -⟩ := parseIPv4Packet_inside h.parse
  have hroom := h.header
  obtain ⟨hlength, -⟩ := swapped_spec hmin
    (show parsed.headerLength < parsed.packet.length by omega)
  have hfield : parsed.headerLength + 2 + 2 ≤
      (swapped parsed.packet parsed.headerLength).length := by omega
  have hwritten := writeUInt16BE_length hfield
  refine ⟨_, _, ?_, rfl, rfl⟩
  have hreply : handleICMP cfg parsed.packet (some parsed) =
      let reply := writeUInt16BE (swapped parsed.packet parsed.headerLength) 0
        (parsed.headerLength + 2)
      let reply := writeUInt16BE reply (internetChecksum (reply.drop parsed.headerLength))
        (parsed.headerLength + 2)
      let reply := writeUInt16BE reply 0 10
      some (writeUInt16BE reply (internetChecksum (reply.take parsed.headerLength)) 10) := by
    unfold handleICMP
    dsimp only
    rw [if_neg (by omega), if_pos ⟨h.type, h.gateway⟩]
    rfl
  rw [hreply]
  dsimp only
  rw [drop_write hfield, write_write hfield]
  generalize internetChecksum (writeUInt16BE
    ((swapped parsed.packet parsed.headerLength).drop parsed.headerLength) 0 2) = icmpCksum
  have hwritten := writeUInt16BE_length hfield icmpCksum
  rw [take_write (by omega) (by omega), write_write (by omega)]

/-- Every echo request to the gateway is answered, exactly: both checksums
verify, the addresses are swapped, and all other bytes are kept. -/
theorem handleICMP_reply {cfg : RelaySettings} {raw : Bytes} {parsed : ParsedIPv4}
    (h : EchoRequest cfg raw parsed) :
    ∃ reply, handleICMP cfg parsed.packet (some parsed) = some reply ∧ EchoReply parsed reply := by
  obtain ⟨icmpCksum, ipCksum, hreply, hicmp, hip⟩ := handleICMP_request h
  obtain ⟨hpacket, htotal, hle, hmin, hmax⟩ := parseIPv4Packet_inside h.parse
  have hroom := h.header
  obtain ⟨hlength, hbytes⟩ := swapped_spec hmin
    (show parsed.headerLength < parsed.packet.length by omega)
  generalize swapped parsed.packet parsed.headerLength = copy at *
  have hfield : parsed.headerLength + 2 + 2 ≤ copy.length := by omega
  have hmessage := writeUInt16BE_length hfield icmpCksum
  generalize hwritten : writeUInt16BE copy icmpCksum (parsed.headerLength + 2) = written at *
  have hheader : 10 + 2 ≤ written.length := by omega
  have hall := writeUInt16BE_length hheader ipCksum
  -- the bytes of the reply in terms of the request
  have hsame : ∀ i, ¬(10 ≤ i ∧ i < 12) →
      ¬(parsed.headerLength + 2 ≤ i ∧ i < parsed.headerLength + 4) →
      (writeUInt16BE written ipCksum 10)[i]? = copy[i]? := by
    intro i hnot hnot'
    rw [writeUInt16BE_getElem? hheader _ (by omega), ← hwritten,
      writeUInt16BE_getElem? hfield _ (by omega)]
  have hraw : ∀ i < parsed.totalLength, parsed.packet[i]? = raw[i]? := by
    intro i hi
    rw [hpacket, List.getElem?_take_of_lt hi]
  have hlow : ∀ i, 12 ≤ i → i < 16 →
      byteAt (writeUInt16BE written ipCksum 10) i = byteAt raw (i + 4) := by
    intro i hge hlt
    have hread : (writeUInt16BE written ipCksum 10)[i]? = raw[i + 4]? := by
      rw [hsame i (by omega) (by omega), hbytes, if_neg (by omega), if_pos ⟨hge, hlt⟩,
        hraw _ (by omega)]
    rw [byteAt, byteAt, List.getD_eq_getElem?_getD, List.getD_eq_getElem?_getD, hread]
  have hhigh : ∀ i, 16 ≤ i → i < 20 →
      byteAt (writeUInt16BE written ipCksum 10) i = byteAt raw (i - 4) := by
    intro i hge hlt
    have hread : (writeUInt16BE written ipCksum 10)[i]? = raw[i - 4]? := by
      rw [hsame i (by omega) (by omega), hbytes, if_neg (by omega), if_neg (by omega),
        if_pos ⟨hge, hlt⟩, hraw _ (by omega)]
    rw [byteAt, byteAt, List.getD_eq_getElem?_getD, List.getD_eq_getElem?_getD, hread]
  refine ⟨_, hreply, ?_, ?_, ?_, ?_, hall.trans (hmessage.trans hlength), ?_⟩
  · obtain ⟨hsrc, hdst, -⟩ := parseIPv4Packet_fields h.parse
    have hfront : ∀ i < 10, byteAt (writeUInt16BE written ipCksum 10) i = byteAt raw i := by
      intro i hi
      refine byteAt_eq_of_getElem? ?_
      rw [hsame i (by omega) (by omega), hbytes, if_neg (by omega), if_neg (by omega),
        if_neg (by omega), hraw i (by omega)]
    have hsrc' : formatIPv4 (writeUInt16BE written ipCksum 10) 12 = parsed.dstIP := by
      rw [hdst, formatIPv4, formatIPv4, hlow 12 (by decide) (by decide),
        hlow 13 (by decide) (by decide), hlow 14 (by decide) (by decide),
        hlow 15 (by decide) (by decide)]
    have hdst' : formatIPv4 (writeUInt16BE written ipCksum 10) 16 = parsed.srcIP := by
      rw [hsrc, formatIPv4, formatIPv4, hhigh 16 (by decide) (by decide),
        hhigh 17 (by decide) (by decide), hhigh 18 (by decide) (by decide),
        hhigh 19 (by decide) (by decide)]
    rw [parseIPv4Packet_front h.parse (by omega) hfront, hsrc', hdst']
  · have htype : (writeUInt16BE written ipCksum 10)[parsed.headerLength]? = some 0 := by
      rw [hsame _ (by omega) (by omega), hbytes, if_pos rfl]
    rw [byteAt, List.getD_eq_getElem?_getD, htype]
    rfl
  · rw [take_write (by omega) (by omega), hip]
    exact checksum_write (by rw [List.length_take]; omega) rfl
  · rw [drop_write_before (by omega) (by omega), ← hwritten, drop_write hfield, hicmp]
    exact checksum_write (by rw [List.length_drop]; omega) rfl
  · intro i hnot
    unfold Rewritten at hnot
    rw [hsame i (by omega) (by omega), hbytes, if_neg (by omega), if_neg (by omega),
      if_neg (by omega)]

/-- A ping from 10.0.2.15 with one byte of data, so that the ICMP part has an
odd length. -/
def examplePing : Bytes :=
  [0x45, 0, 0, 29, 0, 1, 0, 0, 64, 1, 0, 0, 10, 0, 2, 15, 10, 0, 2, 2, 8, 0, 0, 0, 0, 1, 0, 1, 42]

theorem handleICMP_reply_ping :
    ∃ cfg parsed reply, EchoRequest cfg examplePing parsed ∧
      handleICMP cfg parsed.packet (some parsed) = some reply ∧ EchoReply parsed reply := by
  have hrequest : EchoRequest {} examplePing ⟨examplePing, 20, 29, 1, ⟨10, 0, 2, 15⟩,
      ⟨10, 0, 2, 2⟩, false, 0⟩ :=
    ⟨by decide, rfl, by decide, by decide, by decide⟩
  obtain ⟨reply, hreply, hspec⟩ := handleICMP_reply hrequest
  exact ⟨_, _, reply, hrequest, hreply, hspec⟩

end RootlessRelay
