import RootlessRelay.Net.Checksum

/-!
# Building IPv4 packets

`ipv4Bytes` and `buildIPv4Packet` of `packet_utils.js` and `sendUDPToVM`, which
puts a datagram into a packet. What they build, `parseIPv4Packet` and
`parseUDPDatagram` read back, also behind the padding of an Ethernet frame; and
whatever the parsers accept, they read and return nothing outside of it.

The builders throw for addresses that are none, for packets that are too long,
and for ports that do not fit into their field, and the texts of these errors
are those of the source. The round trips are stated for whatever the builders
accept, so no bound on the arguments is assumed that the code does not check.
The parsers have a second definition in which every read is checked; that the
two agree on every buffer is the absence of reads out of bounds.
-/

namespace RootlessRelay

open OnesComplement

/-- An address argument: a buffer, a string, or neither. -/
inductive AddressArg
  | buffer (bytes : Bytes)
  | string (text : List Char)
  | other
  deriving DecidableEq, Repr

/-- The string form of an address, as `formatIPv4` puts it together: four
decimal numbers without leading zeros. -/
def Address.text (a : Address) : List Char :=
  ['.'].intercalate ([a.a, a.b, a.c, a.d].map (Nat.toDigits 10))

/-- `/^\d{1,3}$/`, which leaves the bound of 255 to a test of its own. -/
def isOctetText (part : List Char) : Bool :=
  decide (1 ≤ part.length ∧ part.length ≤ 3) && part.all Char.isDigit

/-- `ipv4Bytes`: the four bytes of an address that is given as a buffer or as a
text. Leading zeros are accepted. -/
def ipv4Bytes : AddressArg → Except String Bytes
  | .buffer bytes =>
      if bytes.length ≠ 4 then .error "IPv4 address must contain four bytes" else .ok bytes
  | .other => .error "Invalid IPv4 address"
  | .string text =>
      let parts := text.splitOn '.'
      let octets := parts.map fun part => Nat.ofDigitChars 10 part 0
      if parts.length ≠ 4 ∨ parts.any (fun part => !isOctetText part) = true ∨
          octets.any (fun octet => decide (octet > 255)) = true then
        .error ("Invalid IPv4 address: " ++ String.ofList text)
      else .ok (octets.map UInt8.ofNat)

/-- The 20 bytes in front of the payload. The relay writes no options and allows
no fragment of its own. -/
def ipv4Header (packetLength identification protocol checksum : Nat) (src dst : Bytes) : Bytes :=
  [0x45, 0] ++ bytes packetLength ++ bytes identification ++ bytes 0 ++
    [64, UInt8.ofNat protocol] ++ bytes checksum ++ src ++ dst

/-- What `writeUInt16BE` throws for a value that does not fit; the number is
written in decimal. -/
def outOfRange (value : Int) : String :=
  "The value of \"value\" is out of range. It must be >= 0 and <= 65535. Received " ++
    toString value

/-- `buildIPv4Packet`: a header with its checksum, and the payload behind it. -/
def buildIPv4Packet (payload : Bytes) (srcIP dstIP : AddressArg) (protocol identification : Nat) :
    Except String Bytes :=
  let packetLength := 20 + payload.length
  if packetLength > 0xffff then .error "IPv4 packet exceeds the 65535-byte maximum"
  else if identification > 0xffff then .error (outOfRange identification)
  else do
    let src ← ipv4Bytes srcIP
    let dst ← ipv4Bytes dstIP
    let header := ipv4Header packetLength identification protocol 0 src dst
    pure (writeUInt16BE header (internetChecksum header) 10 ++ payload)

/-- The packet `sendUDPToVM` hands to `sendIPToVM`; `identification` is the
random default of `buildIPv4Packet`. -/
def sendUDPToVM (payload : Bytes) (srcPort dstPort : Nat) (srcIP dstIP : AddressArg)
    (identification : Nat) : Except String Bytes :=
  let udpLen := 8 + payload.length
  if srcPort > 0xffff then .error (outOfRange srcPort)
  else if dstPort > 0xffff then .error (outOfRange dstPort)
  else if udpLen > 0xffff then .error (outOfRange udpLen)
  else do
    let udp := bytes srcPort ++ bytes dstPort ++ bytes udpLen ++ bytes 0 ++ payload
    let ip ← buildIPv4Packet udp srcIP dstIP 17 identification
    let cksum ← udpChecksum ip
    pure (writeUInt16BE ip cksum (20 + 6))

/-- The octets of an address are bytes. An address that was read from a packet
is canonical, one of the settings need not be. -/
def Address.Canonical (a : Address) : Prop := a.a ≤ 255 ∧ a.b ≤ 255 ∧ a.c ≤ 255 ∧ a.d ≤ 255

/-- The four bytes of an address that is canonical. -/
def Address.octets (a : Address) : Bytes :=
  [UInt8.ofNat a.a, UInt8.ofNat a.b, UInt8.ofNat a.c, UInt8.ofNat a.d]

/-- The decimal text of a byte is read back as the byte, has at most three
digits, and no dot. -/
theorem octetText {n : Nat} (h : n ≤ 255) : isOctetText (Nat.toDigits 10 n) = true ∧
    Nat.ofDigitChars 10 (Nat.toDigits 10 n) 0 = n ∧ '.' ∉ Nat.toDigits 10 n := by
  have hdigit : ∀ c ∈ Nat.toDigits 10 n, c.isDigit = true :=
    fun c hc => Nat.isDigit_of_mem_toDigits (by decide) (by decide) hc
  refine ⟨?_, Nat.ofDigitChars_ten_toDigits, fun hdot => absurd (hdigit '.' hdot) (by decide)⟩
  have hlength : (Nat.toDigits 10 n).length ≤ 3 :=
    (Nat.length_toDigits_le_iff (by decide) (by decide)).mpr (by omega)
  rw [isOctetText, Bool.and_eq_true, decide_eq_true_eq, List.all_eq_true]
  exact ⟨⟨Nat.length_toDigits_pos, hlength⟩, hdigit⟩

/-- The dotted text of an address is read as its four octets. -/
theorem ipv4Bytes_text {a : Address} (h : a.Canonical) :
    ipv4Bytes (.string a.text) = .ok a.octets := by
  obtain ⟨ha, hb, hc, hd⟩ := h
  obtain ⟨hoka, hva, hna⟩ := octetText ha
  obtain ⟨hokb, hvb, hnb⟩ := octetText hb
  obtain ⟨hokc, hvc, hnc⟩ := octetText hc
  obtain ⟨hokd, hvd, hnd⟩ := octetText hd
  have hsplit : a.text.splitOn '.' = [a.a, a.b, a.c, a.d].map (Nat.toDigits 10) := by
    refine List.splitOn_intercalate '.' ?_ (by simp)
    simp only [List.map_cons, List.map_nil, List.forall_mem_cons]
    exact ⟨hna, hnb, hnc, hnd, by simp⟩
  have hvalues : ([a.a, a.b, a.c, a.d].map (Nat.toDigits 10)).map
      (fun part => Nat.ofDigitChars 10 part 0) = [a.a, a.b, a.c, a.d] := by
    simp only [List.map_cons, List.map_nil, hva, hvb, hvc, hvd]
  have hparts : ([a.a, a.b, a.c, a.d].map (Nat.toDigits 10)).any
      (fun part => !isOctetText part) = false := by
    simp only [List.map_cons, List.map_nil, List.any_cons, List.any_nil, hoka, hokb, hokc, hokd]
    rfl
  have hoctets : [a.a, a.b, a.c, a.d].any (fun octet => decide (octet > 255)) = false := by
    simp only [List.any_cons, List.any_nil, Bool.or_eq_false_iff, decide_eq_false_iff_not]
    exact ⟨by omega, by omega, by omega, by omega, trivial⟩
  unfold ipv4Bytes
  dsimp only
  rw [hsplit, hvalues, hparts, hoctets, if_neg (by simp)]
  rfl

/-- The address that `formatIPv4` reads from four bytes has canonical octets,
also behind the end of a buffer. -/
theorem formatIPv4_canonical (data : Bytes) (offset : Nat) :
    (formatIPv4 data offset).Canonical := by
  have hbyte : ∀ i, byteAt data i ≤ 255 := fun i => Nat.le_of_lt_succ (UInt8.toNat_lt _)
  exact ⟨hbyte _, hbyte _, hbyte _, hbyte _⟩

theorem formatIPv4_octets {a : Address} (h : a.Canonical) : formatIPv4 a.octets 0 = a := by
  have hbyte : ∀ {n : Nat}, n ≤ 255 → (UInt8.ofNat n).toNat = n := fun hn =>
    UInt8.toNat_ofNat_of_lt' (by simp only [UInt8.size]; omega)
  obtain ⟨a, b, c, d⟩ := a
  obtain ⟨ha, hb, hc, hd⟩ := h
  change Address.mk _ _ _ _ = _
  exact congr (congr (congr (congrArg Address.mk (hbyte ha)) (hbyte hb)) (hbyte hc)) (hbyte hd)

theorem ofNat_byteAt {data : Bytes} {i : Nat} (h : i < data.length) :
    UInt8.ofNat (byteAt data i) = data[i] := by
  rw [byteAt_of_lt h, UInt8.ofNat_toNat]

theorem octets_formatIPv4 {data : Bytes} {offset : Nat} (h : offset + 4 ≤ data.length) :
    (formatIPv4 data offset).octets = slice data offset (offset + 4) := by
  have hdrop : data.drop offset = data[offset] :: data[offset + 1] :: data[offset + 2] ::
      data[offset + 3] :: data.drop (offset + 4) := by
    rw [List.drop_eq_getElem_cons (by omega), List.drop_eq_getElem_cons (by omega),
      List.drop_eq_getElem_cons (by omega), List.drop_eq_getElem_cons (by omega)]
  rw [slice, List.drop_take, hdrop, Nat.add_sub_cancel_left]
  unfold Address.octets formatIPv4
  dsimp only
  rw [ofNat_byteAt (by omega), ofNat_byteAt (by omega), ofNat_byteAt (by omega),
    ofNat_byteAt (by omega)]
  rfl

/-- Whatever form an address is given in, four bytes come of it. -/
theorem ipv4Bytes_length {arg : AddressArg} {bytes : Bytes} (h : ipv4Bytes arg = .ok bytes) :
    bytes.length = 4 := by
  unfold ipv4Bytes at h
  split at h
  · split at h
    · cases h
    · rename_i hlength
      cases h
      exact not_not.mp hlength
  · cases h
  · dsimp only at h
    split at h
    · cases h
    · rename_i hparts
      cases h
      rw [List.length_map, List.length_map]
      exact not_not.mp (not_or.mp hparts).1

/-- A byte list of length four, by its bytes. -/
theorem exists_four {bytes : Bytes} (h : bytes.length = 4) :
    ∃ a b c d, bytes = [a, b, c, d] := by
  match bytes, h with
  | [a, b, c, d], _ => exact ⟨a, b, c, d, rfl⟩

section Header

variable {packetLength identification protocol value : Nat} {src dst : Bytes}

theorem ipv4Header_length (hsrc : src.length = 4) (hdst : dst.length = 4) :
    (ipv4Header packetLength identification protocol value src dst).length = 20 := by
  simp [ipv4Header, hsrc, hdst]

/-- The header of a built packet verifies, whatever its fields: this is the
library's theorem at the offset of the checksum. -/
theorem ipv4Header_verifies :
    internetChecksum (ipv4Header packetLength identification protocol
      (internetChecksum (ipv4Header packetLength identification protocol 0 src dst)) src dst) =
        0 := by
  have hfront : ([0x45, 0] ++ bytes packetLength ++ bytes identification ++ bytes 0 ++
      [64, UInt8.ofNat protocol]).length % 2 = 0 := by simp
  have h := checksum_verifies hfront (src ++ dst)
  rw [internetChecksum_eq, internetChecksum_eq]
  unfold ipv4Header
  simp only [List.append_assoc] at h ⊢
  exact h

/-- The parser reads a header back, whatever follows the payload: the total
length says where the packet ends. -/
theorem parseIPv4Packet_header (identification protocol value : Nat) {payload : Bytes}
    (hlength : 20 + payload.length ≤ 0xffff) (hsrc : src.length = 4) (hdst : dst.length = 4)
    (padding : Bytes) :
    parseIPv4Packet (ipv4Header (20 + payload.length) identification protocol value src dst ++
        payload ++ padding) =
      some {
        packet := ipv4Header (20 + payload.length) identification protocol value src dst ++ payload
        headerLength := 20
        totalLength := 20 + payload.length
        protocol := protocol % 256
        srcIP := formatIPv4 src 0
        dstIP := formatIPv4 dst 0
        moreFragments := false
        fragmentOffset := 0 } := by
  have htotal : readUInt16BE (ipv4Header (20 + payload.length) identification protocol value src
      dst ++ payload ++ padding) 2 = 20 + payload.length := by
    have hread := readUInt16BE_bytes hlength [0x45, 0] (bytes identification ++ bytes 0 ++
      [64, UInt8.ofNat protocol] ++ bytes value ++ src ++ dst ++ payload ++ padding)
    simp only [ipv4Header, List.append_assoc] at hread ⊢
    exact hread
  have hlen : (ipv4Header (20 + payload.length) identification protocol value src dst ++ payload ++
      padding).length = 20 + payload.length + padding.length := by
    rw [List.length_append, List.length_append, ipv4Header_length hsrc hdst]
  have htake : (ipv4Header (20 + payload.length) identification protocol value src dst ++ payload ++
      padding).take (20 + payload.length) =
        ipv4Header (20 + payload.length) identification protocol value src dst ++ payload := by
    refine List.take_left' ?_
    rw [List.length_append, ipv4Header_length hsrc hdst]
  have hprotocol : byteAt (ipv4Header (20 + payload.length) identification protocol value src
      dst ++ payload ++ padding) 9 = protocol % 256 := UInt8.toNat_ofNat
  have hsrcIP : formatIPv4 (ipv4Header (20 + payload.length) identification protocol value src
      dst ++ payload ++ padding) 12 = formatIPv4 src 0 := by
    obtain ⟨a, b, c, d, rfl⟩ := exists_four hsrc
    rfl
  have hdstIP : formatIPv4 (ipv4Header (20 + payload.length) identification protocol value src
      dst ++ payload ++ padding) 16 = formatIPv4 dst 0 := by
    obtain ⟨a, b, c, d, rfl⟩ := exists_four hsrc
    obtain ⟨a, b, c, d, rfl⟩ := exists_four hdst
    rfl
  have hfragment : readUInt16BE (ipv4Header (20 + payload.length) identification protocol value src
      dst ++ payload ++ padding) 6 = 0 := by
    have hread := readUInt16BE_bytes (Nat.zero_le 0xffff)
      ([0x45, 0] ++ bytes (20 + payload.length) ++ bytes identification)
      ([64, UInt8.ofNat protocol] ++ bytes value ++ src ++ dst ++ payload ++ padding)
    simp only [ipv4Header, List.append_assoc] at hread ⊢
    exact hread
  have hfirst : byteAt (ipv4Header (20 + payload.length) identification protocol value src
      dst ++ payload ++ padding) 0 = 0x45 := rfl
  unfold parseIPv4Packet
  rw [hlen, hfirst, htotal, hfragment, hprotocol, hsrcIP, hdstIP, if_neg (by omega)]
  have hheader : (0x45 &&& 0x0f) * 4 = 20 := rfl
  have hversion : 0x45 >>> 4 = 4 := rfl
  simp only [hheader, hversion]
  rw [if_neg (by omega), if_neg (by omega), htake]
  rfl

end Header

variable {payload packet : Bytes} {srcIP dstIP : AddressArg} {protocol identification : Nat}

/-- What `buildIPv4Packet` accepts, and what it makes of it. Callers use this
and do not unfold the builder. -/
theorem buildIPv4Packet_ok
    (h : buildIPv4Packet payload srcIP dstIP protocol identification = .ok packet) :
    20 + payload.length ≤ 0xffff ∧ ∃ src dst, ipv4Bytes srcIP = .ok src ∧
      ipv4Bytes dstIP = .ok dst ∧ packet = ipv4Header (20 + payload.length) identification protocol
        (internetChecksum (ipv4Header (20 + payload.length) identification protocol 0 src dst)) src
        dst ++ payload := by
  unfold buildIPv4Packet at h
  dsimp only at h
  split at h
  · cases h
  rename_i hlength
  split at h
  · cases h
  cases hsrc : ipv4Bytes srcIP with
  | error message =>
      rw [hsrc] at h
      cases h
  | ok src =>
      cases hdst : ipv4Bytes dstIP with
      | error message =>
          rw [hsrc, hdst] at h
          cases h
      | ok dst =>
          rw [hsrc, hdst] at h
          obtain rfl := Except.ok.inj h
          exact ⟨by omega, src, dst, rfl, rfl, rfl⟩

/-- A built packet, behind any padding, is read back as it was built, with the
bytes of the addresses it was given. -/
theorem parseIPv4Packet_build
    (h : buildIPv4Packet payload srcIP dstIP protocol identification = .ok packet)
    (padding : Bytes) : ∃ src dst, ipv4Bytes srcIP = .ok src ∧ ipv4Bytes dstIP = .ok dst ∧
      parseIPv4Packet (packet ++ padding) = some {
        packet := packet
        headerLength := 20
        totalLength := packet.length
        protocol := protocol % 256
        srcIP := formatIPv4 src 0
        dstIP := formatIPv4 dst 0
        moreFragments := false
        fragmentOffset := 0 } := by
  obtain ⟨hlength, src, dst, hsrc, hdst, rfl⟩ := buildIPv4Packet_ok h
  refine ⟨src, dst, hsrc, hdst, ?_⟩
  rw [parseIPv4Packet_header _ _ _ hlength (ipv4Bytes_length hsrc) (ipv4Bytes_length hdst),
    List.length_append, ipv4Header_length (ipv4Bytes_length hsrc) (ipv4Bytes_length hdst)]

theorem writeUInt16BE_bytes (front back : Bytes) (value value' : Nat) :
    writeUInt16BE (front ++ bytes value ++ back) value' front.length =
      front ++ bytes value' ++ back := by
  have htake : (front ++ bytes value ++ back).take front.length = front := by
    rw [List.append_assoc, List.take_left]
  have hdrop : (front ++ bytes value ++ back).drop (front.length + 2) = back :=
    List.drop_left' (by simp)
  rw [writeUInt16BE, htake, hdrop]

/-- A transport segment with an empty checksum field becomes a packet, and the
checksum computed of the packet is written into the field: the packet verifies. -/
theorem buildIPv4Packet_checksummed {front back src dst : Bytes} (heven : front.length % 2 = 0)
    (hlength : 20 + (front ++ bytes 0 ++ back).length ≤ 0xffff) (hprotocol : protocol ≤ 0xffff)
    (hidentification : identification ≤ 0xffff) (hsrc : ipv4Bytes srcIP = .ok src)
    (hdst : ipv4Bytes dstIP = .ok dst) :
    ∃ value ip cksum,
      buildIPv4Packet (front ++ bytes 0 ++ back) srcIP dstIP protocol identification = .ok ip ∧
      transportChecksum ip protocol front.length = .ok cksum ∧
      writeUInt16BE ip cksum (20 + front.length) =
        ipv4Header (20 + (front ++ bytes 0 ++ back).length) identification protocol value src dst ++
          (front ++ bytes cksum ++ back) ∧
      internetChecksum (ipv4Header (20 + (front ++ bytes 0 ++ back).length) identification protocol
        value src dst) = 0 ∧
      internetChecksum (checksummed (writeUInt16BE ip cksum (20 + front.length)) protocol) = 0 := by
  generalize hvalue : internetChecksum (ipv4Header (20 + (front ++ bytes 0 ++ back).length)
    identification protocol 0 src dst) = value
  generalize hsize : 20 + (front ++ bytes 0 ++ back).length = packetLength at hlength hvalue ⊢
  have hbuild : buildIPv4Packet (front ++ bytes 0 ++ back) srcIP dstIP protocol identification =
      .ok (ipv4Header packetLength identification protocol value src dst ++
        (front ++ bytes 0 ++ back)) := by
    unfold buildIPv4Packet
    dsimp only
    rw [hsize, if_neg (by omega), if_neg (by omega), hsrc, hdst, ← hvalue]
    rfl
  have hheader : (ipv4Header packetLength identification protocol value src dst).length = 20 :=
    ipv4Header_length (ipv4Bytes_length hsrc) (ipv4Bytes_length hdst)
  generalize hip : ipv4Header packetLength identification protocol value src dst ++
    (front ++ bytes 0 ++ back) = ip at hbuild
  have hstart : ipHeaderLength ip = 20 := by
    have hfirst : byteAt ip 0 = 0x45 := by
      rw [← hip]
      rfl
    rw [ipHeaderLength, hfirst]
    rfl
  have htotal : ip.length = packetLength := by
    rw [← hip, List.length_append, hheader, hsize]
  have hfits : 20 + front.length + 2 ≤ packetLength := by
    simp only [List.length_append, bytes_length] at hsize
    omega
  have htransport : HasTransport ip front.length := ⟨hstart.ge, by omega, by omega⟩
  refine ⟨value, ip, _, hbuild, htransport.transportChecksum_eq hprotocol heven, ?_,
    hvalue ▸ ipv4Header_verifies, ?_⟩
  · have hwrite := writeUInt16BE_bytes (ipv4Header packetLength identification protocol value src
      dst ++ front) back 0 (checksum (checksummed (withChecksum ip front.length 0) protocol))
    rw [List.length_append, hheader] at hwrite
    simp only [List.append_assoc] at hip hwrite ⊢
    rw [hip] at hwrite
    exact hwrite
  · have hverifies := htransport.verifies protocol heven
    rwa [withChecksum, hstart] at hverifies

/-- A UDP header with its payload, and with any checksum. -/
def udpSegment (srcPort dstPort cksum : Nat) (payload : Bytes) : Bytes :=
  bytes srcPort ++ bytes dstPort ++ bytes (8 + payload.length) ++ bytes cksum ++ payload

theorem udpSegment_length (srcPort dstPort cksum : Nat) (payload : Bytes) :
    (udpSegment srcPort dstPort cksum payload).length = 8 + payload.length := by
  simp only [udpSegment, List.length_append, bytes_length]

section Udp

variable {srcPort dstPort : Nat} {src dst : Bytes}

/-- The packet of a datagram that fits into 65535 bytes with both headers. -/
theorem sendUDPToVM_ok (hlength : payload.length ≤ 65507) (hsrcPort : srcPort ≤ 0xffff)
    (hdstPort : dstPort ≤ 0xffff) (hidentification : identification ≤ 0xffff)
    (hsrc : ipv4Bytes srcIP = .ok src) (hdst : ipv4Bytes dstIP = .ok dst) :
    ∃ value cksum, sendUDPToVM payload srcPort dstPort srcIP dstIP identification =
      .ok (ipv4Header (20 + (8 + payload.length)) identification 17 value src dst ++
        udpSegment srcPort dstPort cksum payload) := by
  have hfront : (bytes srcPort ++ bytes dstPort ++ bytes (8 + payload.length)).length = 6 := by simp
  have hsegment : bytes srcPort ++ bytes dstPort ++ bytes (8 + payload.length) ++ bytes 0 ++ payload =
      udpSegment srcPort dstPort 0 payload := rfl
  have hbuild := @buildIPv4Packet_checksummed srcIP dstIP 17 identification
    (bytes srcPort ++ bytes dstPort ++ bytes (8 + payload.length)) payload src dst (by rw [hfront])
    (by rw [hsegment, udpSegment_length]; omega) (by decide) hidentification hsrc hdst
  rw [hfront, hsegment, udpSegment_length] at hbuild
  obtain ⟨value, ip, cksum, hip, hcksum, hwrite, -, -⟩ := hbuild
  refine ⟨value, cksum, ?_⟩
  unfold sendUDPToVM
  rw [if_neg (by omega), if_neg (by omega), if_neg (by omega)]
  change (do
    let ip ← buildIPv4Packet (udpSegment srcPort dstPort 0 payload) srcIP dstIP 17 identification
    let cksum ← transportChecksum ip 17 6
    pure (writeUInt16BE ip cksum (20 + 6))) = _
  rw [hip]
  change (do
    let cksum ← transportChecksum ip 17 6
    pure (writeUInt16BE ip cksum (20 + 6))) = _
  rw [hcksum]
  exact congrArg Except.ok hwrite

/-- The UDP parser reads a segment back; the length in its header says where the
payload ends. -/
theorem parseUDPDatagram_segment {header : Bytes} {parsed : ParsedIPv4} (cksum : Nat)
    (hlength : payload.length ≤ 65507) (hsrcPort : srcPort ≤ 0xffff) (hdstPort : dstPort ≤ 0xffff)
    (hprotocol : parsed.protocol = 17) (hheader : parsed.headerLength = header.length)
    (hpacket : parsed.packet = header ++ udpSegment srcPort dstPort cksum payload) :
    parseUDPDatagram parsed =
      some { srcPort, dstPort, length := 8 + payload.length, payload } := by
  have hread : ∀ (front back : Bytes) (word : Nat), word ≤ 0xffff →
      udpSegment srcPort dstPort cksum payload = front ++ bytes word ++ back →
      readUInt16BE parsed.packet (header.length + front.length) = word := by
    intro front back word hword heq
    rw [hpacket, heq, ← List.append_assoc, ← List.append_assoc, ← List.length_append]
    exact readUInt16BE_bytes hword _ back
  have hsrc := hread [] (bytes dstPort ++ bytes (8 + payload.length) ++ bytes cksum ++ payload)
    srcPort hsrcPort (by simp [udpSegment])
  have hdst := hread (bytes srcPort) (bytes (8 + payload.length) ++ bytes cksum ++ payload) dstPort
    hdstPort (by simp [udpSegment])
  have hlen := hread (bytes srcPort ++ bytes dstPort) (bytes cksum ++ payload)
    (8 + payload.length) (by omega) (by simp [udpSegment])
  have htotal : parsed.packet.length = header.length + (8 + payload.length) := by
    rw [hpacket, List.length_append, udpSegment_length]
  have hpayload : slice parsed.packet (header.length + 8) (header.length + (8 + payload.length)) =
      payload := by
    have hfront : (header ++ (bytes srcPort ++ bytes dstPort ++ bytes (8 + payload.length) ++
        bytes cksum)).length = header.length + 8 := by simp
    rw [slice, List.take_of_length_le htotal.le, hpacket, udpSegment, ← List.append_assoc]
    exact List.drop_left' hfront
  unfold parseUDPDatagram
  rw [hheader, if_neg (by simp [hprotocol]), htotal, if_neg (by omega)]
  simp only [List.length_append, bytes_length, List.length_nil, Nat.add_zero] at hsrc hdst hlen
  rw [hsrc, hdst, hlen]
  dsimp only
  rw [if_neg (by omega), hpayload]

end Udp

/-- `buf[i]`, where a read past the end is not answered. The checked readers
below are built from it. -/
def byteAt? (buf : Bytes) (i : Nat) : Option Nat := buf[i]?.map UInt8.toNat

/-- `buf.readUInt16BE(i)`, where both bytes have to be there. -/
def readUInt16BE? (buf : Bytes) (i : Nat) : Option Nat := do
  let high ← byteAt? buf i
  let low ← byteAt? buf (i + 1)
  pure (high * 256 + low)

/-- `formatIPv4`, where all four bytes have to be there. -/
def formatIPv4? (ipPacket : Bytes) (offset : Nat) : Option Address := do
  let a ← byteAt? ipPacket offset
  let b ← byteAt? ipPacket (offset + 1)
  let c ← byteAt? ipPacket (offset + 2)
  let d ← byteAt? ipPacket (offset + 3)
  pure ⟨a, b, c, d⟩

/-- `parseIPv4Packet` with every read checked; the outer `none` is a read out of
bounds, the inner one a packet that is refused. -/
def parseIPv4Packet? (ipPacket : Bytes) : Option (Option ParsedIPv4) :=
  if ipPacket.length < 20 then some none
  else do
    let first ← byteAt? ipPacket 0
    let headerLength := (first &&& 0x0f) * 4
    if first >>> 4 ≠ 4 ∨ headerLength < 20 ∨ ipPacket.length < headerLength then some none
    else do
      let totalLength ← readUInt16BE? ipPacket 2
      if totalLength < headerLength ∨ totalLength > ipPacket.length then some none
      else do
        let fragmentField ← readUInt16BE? ipPacket 6
        let protocol ← byteAt? ipPacket 9
        let srcIP ← formatIPv4? ipPacket 12
        let dstIP ← formatIPv4? ipPacket 16
        some (some {
          packet := ipPacket.take totalLength
          headerLength, totalLength, protocol, srcIP, dstIP
          moreFragments := fragmentField &&& 0x2000 ≠ 0
          fragmentOffset := fragmentField &&& 0x1fff })

/-- `parseUDPDatagram` with every read checked, in the same way. -/
def parseUDPDatagram? (parsed : ParsedIPv4) : Option (Option UDPDatagram) :=
  if parsed.protocol ≠ 17 then some none
  else if parsed.packet.length < parsed.headerLength + 8 then some none
  else do
    let length ← readUInt16BE? parsed.packet (parsed.headerLength + 4)
    if length < 8 ∨ parsed.headerLength + length > parsed.packet.length then some none
    else do
      let srcPort ← readUInt16BE? parsed.packet parsed.headerLength
      let dstPort ← readUInt16BE? parsed.packet (parsed.headerLength + 2)
      some (some {
        srcPort, dstPort, length
        payload := slice parsed.packet (parsed.headerLength + 8) (parsed.headerLength + length) })

theorem byteAt?_eq {buf : Bytes} {i : Nat} (h : i < buf.length) :
    byteAt? buf i = some (byteAt buf i) := by
  rw [byteAt?, List.getElem?_eq_getElem h, byteAt_of_lt h]
  rfl

theorem readUInt16BE?_eq {buf : Bytes} {i : Nat} (h : i + 2 ≤ buf.length) :
    readUInt16BE? buf i = some (readUInt16BE buf i) := by
  rw [readUInt16BE?, byteAt?_eq (by omega), byteAt?_eq (by omega)]
  rfl

theorem formatIPv4?_eq {buf : Bytes} {offset : Nat} (h : offset + 4 ≤ buf.length) :
    formatIPv4? buf offset = some (formatIPv4 buf offset) := by
  rw [formatIPv4?, byteAt?_eq (by omega), byteAt?_eq (by omega), byteAt?_eq (by omega),
    byteAt?_eq (by omega)]
  rfl

/-- No read of `parseIPv4Packet` is out of bounds, on any buffer: every length
check comes before the reads it is for. -/
theorem parseIPv4Packet?_eq (ipPacket : Bytes) :
    parseIPv4Packet? ipPacket = some (parseIPv4Packet ipPacket) := by
  unfold parseIPv4Packet? parseIPv4Packet
  by_cases hshort : ipPacket.length < 20
  · rw [if_pos hshort, if_pos hshort]
  rw [if_neg hshort, if_neg hshort, byteAt?_eq (by omega), readUInt16BE?_eq (by omega),
    readUInt16BE?_eq (by omega), byteAt?_eq (by omega), formatIPv4?_eq (by omega),
    formatIPv4?_eq (by omega)]
  dsimp only [bind, Option.bind]
  split
  · rfl
  · split <;> rfl

/-- No read of `parseUDPDatagram` is out of bounds, on any packet that has been
parsed. -/
theorem parseUDPDatagram?_eq (parsed : ParsedIPv4) :
    parseUDPDatagram? parsed = some (parseUDPDatagram parsed) := by
  unfold parseUDPDatagram? parseUDPDatagram
  by_cases hprotocol : parsed.protocol ≠ 17
  · rw [if_pos hprotocol, if_pos hprotocol]
  rw [if_neg hprotocol, if_neg hprotocol]
  dsimp only
  by_cases hshort : parsed.packet.length < parsed.headerLength + 8
  · rw [if_pos hshort, if_pos hshort]
  rw [if_neg hshort, if_neg hshort, readUInt16BE?_eq (by omega), readUInt16BE?_eq (by omega),
    readUInt16BE?_eq (by omega)]
  dsimp only [bind, Option.bind]
  split <;> rfl

/-- What `parseIPv4Packet` returns lies inside the total length, and that inside
the buffer. -/
theorem parseIPv4Packet_inside {ipPacket : Bytes} {parsed : ParsedIPv4}
    (h : parseIPv4Packet ipPacket = some parsed) :
    parsed.packet = ipPacket.take parsed.totalLength ∧
      parsed.packet.length = parsed.totalLength ∧ parsed.totalLength ≤ ipPacket.length ∧
      20 ≤ parsed.headerLength ∧ parsed.headerLength ≤ parsed.totalLength := by
  unfold parseIPv4Packet at h
  split at h
  · cases h
  dsimp only at h
  split at h
  · cases h
  rename_i hheader
  split at h
  · cases h
  rename_i htotal
  cases h
  rw [not_or, not_or] at hheader
  rw [not_or] at htotal
  dsimp only
  refine ⟨rfl, ?_, by omega, by omega, by omega⟩
  rw [List.length_take]
  omega

/-- The fields that are read as they stand, for callers that need no more. -/
theorem parseIPv4Packet_fields {ipPacket : Bytes} {parsed : ParsedIPv4}
    (h : parseIPv4Packet ipPacket = some parsed) :
    parsed.srcIP = formatIPv4 ipPacket 12 ∧ parsed.dstIP = formatIPv4 ipPacket 16 ∧
      parsed.totalLength = readUInt16BE ipPacket 2 := by
  unfold parseIPv4Packet at h
  split at h
  · cases h
  dsimp only at h
  split at h
  · cases h
  split at h
  · cases h
  cases h
  exact ⟨rfl, rfl, rfl⟩

/-- What `parseUDPDatagram` returns lies inside the UDP length, and that inside
the packet. Padding is not part of a payload. -/
theorem parseUDPDatagram_inside {parsed : ParsedIPv4} {datagram : UDPDatagram}
    (h : parseUDPDatagram parsed = some datagram) :
    8 ≤ datagram.length ∧ parsed.headerLength + datagram.length ≤ parsed.packet.length ∧
      datagram.payload =
        (parsed.packet.drop (parsed.headerLength + 8)).take (datagram.length - 8) ∧
      datagram.payload.length = datagram.length - 8 := by
  unfold parseUDPDatagram at h
  split at h
  · cases h
  dsimp only at h
  split at h
  · cases h
  split at h
  · cases h
  rename_i hlength
  cases h
  rw [not_or] at hlength
  dsimp only
  have hpayload : ∀ length, slice parsed.packet (parsed.headerLength + 8)
      (parsed.headerLength + length) =
        (parsed.packet.drop (parsed.headerLength + 8)).take (length - 8) := by
    intro length
    rw [slice, List.drop_take]
    congr 1
    omega
  refine ⟨by omega, by omega, hpayload _, ?_⟩
  rw [hpayload, List.length_take, List.length_drop]
  omega

/-- The checksum a function computes of a packet is the one's-complement
checksum of pseudo-header and segment with the checksum field cleared, and the
packet verifies once it has been written. -/
def ChecksumVerifies (compute : Bytes → Except String Nat) (protocol checksumOffset : Nat) : Prop :=
  ∀ ipPacket, HasTransport ipPacket checksumOffset →
    ∃ cksum, compute ipPacket = .ok cksum ∧
      cksum = checksum (checksummed (withChecksum ipPacket checksumOffset 0) protocol) ∧
      internetChecksum
        (checksummed (withChecksum ipPacket checksumOffset cksum) protocol) = 0

theorem checksums_verify :
    ChecksumVerifies tcpChecksum 6 16 ∧ ChecksumVerifies udpChecksum 17 6 ∧
      ∀ payload srcIP dstIP protocol identification packet,
        buildIPv4Packet payload srcIP dstIP protocol identification = .ok packet →
        internetChecksum (packet.take 20) = 0 := by
  refine ⟨fun ipPacket h => ?_, fun ipPacket h => ?_, ?_⟩
  · exact ⟨_, h.transportChecksum_eq (by decide) rfl, rfl, h.verifies 6 rfl⟩
  · exact ⟨_, h.transportChecksum_eq (by decide) rfl, rfl, h.verifies 17 rfl⟩
  · intro payload srcIP dstIP protocol identification packet h
    obtain ⟨-, src, dst, hsrc, hdst, rfl⟩ := buildIPv4Packet_ok h
    rw [List.take_left' (ipv4Header_length (ipv4Bytes_length hsrc) (ipv4Bytes_length hdst))]
    exact ipv4Header_verifies

/-- A TCP segment of three bytes behind a header with an option, with a checksum
field that holds something else. -/
def exampleSegment : Bytes :=
  [0x46, 0, 0, 47, 0, 0, 0, 0, 64, 6, 0, 0, 10, 0, 2, 15, 10, 0, 2, 2, 1, 1, 1, 0] ++
    [0x9c, 0x40, 0, 80, 0, 0, 0, 1, 0, 0, 0, 2, 0x50, 0x18, 4, 0, 0xab, 0xcd, 0, 0] ++ [1, 2, 3]

theorem checksums_verify_segment :
    ∃ cksum, tcpChecksum exampleSegment = .ok cksum ∧
      internetChecksum (checksummed (withChecksum exampleSegment 16 cksum) 6) = 0 := by
  obtain ⟨cksum, hcompute, -, hverifies⟩ := checksums_verify.1 exampleSegment
    ⟨by decide, by decide, by decide⟩
  exact ⟨cksum, hcompute, hverifies⟩

/-- The string form of addresses and their bytes determine each other, where the
octets are bytes. -/
def AddressesRoundTrip : Prop :=
  (∀ a : Address, a.Canonical → ∃ bytes, ipv4Bytes (.string a.text) = .ok bytes ∧
    bytes.length = 4 ∧ formatIPv4 bytes 0 = a) ∧
  ∀ data offset, offset + 4 ≤ List.length data →
    ipv4Bytes (.string (formatIPv4 data offset).text) = .ok (slice data offset (offset + 4))

/-- What the builders build is read back, behind any padding, for every argument
they accept. -/
def PacketsRoundTrip : Prop :=
  (∀ payload srcIP dstIP protocol identification packet padding,
    buildIPv4Packet payload srcIP dstIP protocol identification = .ok packet →
    ∃ src dst, ipv4Bytes srcIP = .ok src ∧ ipv4Bytes dstIP = .ok dst ∧
      parseIPv4Packet (packet ++ padding) = some {
        packet := packet
        headerLength := 20
        totalLength := packet.length
        protocol := protocol % 256
        srcIP := formatIPv4 src 0
        dstIP := formatIPv4 dst 0
        moreFragments := false
        fragmentOffset := 0 }) ∧
  ∀ payload srcPort dstPort srcIP dstIP identification src dst,
    List.length payload ≤ 65507 → srcPort ≤ 0xffff → dstPort ≤ 0xffff → identification ≤ 0xffff →
    ipv4Bytes srcIP = .ok src → ipv4Bytes dstIP = .ok dst →
    ∃ packet, sendUDPToVM payload srcPort dstPort srcIP dstIP identification = .ok packet ∧
      ∀ padding, ∃ parsed, parseIPv4Packet (packet ++ padding) = some parsed ∧
        parsed.packet = packet ∧ parsed.srcIP = formatIPv4 src 0 ∧
        parsed.dstIP = formatIPv4 dst 0 ∧ parseUDPDatagram parsed =
          some { srcPort, dstPort, length := 8 + payload.length, payload }

/-- On every buffer the parsers read inside it, and return what lies inside the
lengths they have checked. -/
def ParsersStayInside : Prop :=
  (∀ ipPacket, parseIPv4Packet? ipPacket = some (parseIPv4Packet ipPacket)) ∧
  (∀ parsed, parseUDPDatagram? parsed = some (parseUDPDatagram parsed)) ∧
  (∀ ipPacket parsed, parseIPv4Packet ipPacket = some parsed →
    parsed.packet = ipPacket.take parsed.totalLength ∧
      parsed.packet.length = parsed.totalLength ∧ parsed.totalLength ≤ ipPacket.length ∧
      20 ≤ parsed.headerLength ∧ parsed.headerLength ≤ parsed.totalLength) ∧
  ∀ parsed datagram, parseUDPDatagram parsed = some datagram →
    8 ≤ datagram.length ∧ parsed.headerLength + datagram.length ≤ parsed.packet.length ∧
      datagram.payload =
        (parsed.packet.drop (parsed.headerLength + 8)).take (datagram.length - 8) ∧
      datagram.payload.length = datagram.length - 8

theorem addresses_roundTrip : AddressesRoundTrip := by
  refine ⟨fun a h => ⟨a.octets, ipv4Bytes_text h, rfl, formatIPv4_octets h⟩, ?_⟩
  intro data offset h
  rw [ipv4Bytes_text (formatIPv4_canonical data offset), octets_formatIPv4 h]

/-- A datagram that is sent to the VM is read back with its addresses, ports and
payload. -/
theorem sendUDPToVM_roundTrip {srcPort dstPort : Nat} {src dst : Bytes}
    (hlength : payload.length ≤ 65507) (hsrcPort : srcPort ≤ 0xffff) (hdstPort : dstPort ≤ 0xffff)
    (hidentification : identification ≤ 0xffff) (hsrc : ipv4Bytes srcIP = .ok src)
    (hdst : ipv4Bytes dstIP = .ok dst) :
    ∃ packet, sendUDPToVM payload srcPort dstPort srcIP dstIP identification = .ok packet ∧
      ∀ padding, ∃ parsed, parseIPv4Packet (packet ++ padding) = some parsed ∧
        parsed.packet = packet ∧ parsed.srcIP = formatIPv4 src 0 ∧
        parsed.dstIP = formatIPv4 dst 0 ∧ parseUDPDatagram parsed =
          some { srcPort, dstPort, length := 8 + payload.length, payload } := by
  obtain ⟨value, cksum, hsent⟩ :=
    sendUDPToVM_ok hlength hsrcPort hdstPort hidentification hsrc hdst
  have hheader : (ipv4Header (20 + (8 + payload.length)) identification 17 value src dst).length =
      20 := ipv4Header_length (ipv4Bytes_length hsrc) (ipv4Bytes_length hdst)
  have hsegment := udpSegment_length srcPort dstPort cksum payload
  have hfits : 20 + (udpSegment srcPort dstPort cksum payload).length ≤ 0xffff := by
    rw [hsegment]
    omega
  refine ⟨_, hsent, fun padding => ?_⟩
  have hparse := parseIPv4Packet_header identification 17 value hfits (ipv4Bytes_length hsrc)
    (ipv4Bytes_length hdst) padding
  rw [hsegment] at hparse
  exact ⟨_, hparse, rfl, rfl, rfl,
    parseUDPDatagram_segment cksum hlength hsrcPort hdstPort rfl hheader.symm rfl⟩

/-- Packets, datagrams and addresses are read back as they were built, and the
parsers stay inside every buffer. -/
theorem packets_roundTrip : PacketsRoundTrip ∧ AddressesRoundTrip ∧ ParsersStayInside := by
  refine ⟨⟨?_, ?_⟩, addresses_roundTrip, parseIPv4Packet?_eq, parseUDPDatagram?_eq,
    fun _ _ => parseIPv4Packet_inside, fun _ _ => parseUDPDatagram_inside⟩
  · intro payload srcIP dstIP protocol identification packet padding h
    exact parseIPv4Packet_build h padding
  · intro payload srcPort dstPort srcIP dstIP identification src dst
    exact sendUDPToVM_roundTrip

/-- A DNS response to the VM, followed by two bytes of padding. -/
theorem packets_roundTrip_response :
    ∃ packet, sendUDPToVM [1, 2, 3] 53 5000 (.string (Address.text ⟨8, 8, 8, 8⟩))
        (.string (Address.text ⟨10, 0, 2, 15⟩)) 7 = .ok packet ∧
      ∃ parsed, parseIPv4Packet (packet ++ [0, 0]) = some parsed ∧
        parseUDPDatagram parsed =
          some { srcPort := 53, dstPort := 5000, length := 11, payload := [1, 2, 3] } := by
  obtain ⟨packet, hsent, hparsed⟩ := packets_roundTrip.1.2 [1, 2, 3] 53 5000
    (.string (Address.text ⟨8, 8, 8, 8⟩)) (.string (Address.text ⟨10, 0, 2, 15⟩)) 7 _ _ (by decide)
    (by decide) (by decide) (by decide) (ipv4Bytes_text ⟨by decide, by decide, by decide, by decide⟩)
    (ipv4Bytes_text ⟨by decide, by decide, by decide, by decide⟩)
  obtain ⟨parsed, hparse, -, -, -, hdatagram⟩ := hparsed [0, 0]
  exact ⟨packet, hsent, parsed, hparse, hdatagram⟩

end RootlessRelay
