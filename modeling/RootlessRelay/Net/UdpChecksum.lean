import RootlessRelay.Net.IPv4Packet

/-!
# The checksum of a datagram to the VM

A checksum field of zero in a UDP datagram says that it carries no checksum; a
sum whose complement is zero is sent as `0xffff` instead. `sendUDPToVM` writes
what `udpChecksum` returns. Every datagram it sends verifies, and the field is
zero exactly when the words of pseudo-header and datagram add up to a multiple
of `0xffff`.

The condition is on the arguments of the call: addresses, ports and payload. A
VM takes a datagram that meets it without checking it.
-/

namespace RootlessRelay

open OnesComplement

/-- The checksum field of the UDP datagram in a packet, at its place behind the
header. -/
def udpChecksumField (ipPacket : Bytes) : Nat :=
  readUInt16BE ipPacket (ipHeaderLength ipPacket + 6)

/-- The datagram carries a checksum, and verifies over the pseudo-header. -/
def CarriesChecksum (ipPacket : Bytes) : Prop :=
  udpChecksumField ipPacket ≠ 0 ∧ internetChecksum (checksummed ipPacket 17) = 0

instance (ipPacket : Bytes) : Decidable (CarriesChecksum ipPacket) :=
  inferInstanceAs (Decidable (_ ∧ _))

/-- The sum of the words of pseudo-header and datagram, the checksum field left
out. The length stands in both. -/
def datagramSum (payload : Bytes) (srcPort dstPort : Nat) (src dst : Bytes) : Nat :=
  total (src ++ dst) + 17 + (8 + payload.length) +
    (srcPort + dstPort + (8 + payload.length) + total payload)

section Field

variable {ipPacket : Bytes} {checksumOffset : Nat}

/-- What is written into the checksum field is read back from it. -/
theorem HasTransport.readUInt16BE_withChecksum (h : HasTransport ipPacket checksumOffset)
    {value : Nat} (hvalue : value ≤ 0xffff) :
    readUInt16BE (withChecksum ipPacket checksumOffset value)
      (ipHeaderLength (withChecksum ipPacket checksumOffset value) + checksumOffset) = value := by
  obtain ⟨hsame, -⟩ := h.withChecksum_eq 0 value
  have hfield := h.field
  have hfront : (ipPacket.take (ipHeaderLength ipPacket + checksumOffset)).length =
      ipHeaderLength ipPacket + checksumOffset :=
    List.length_take_of_le (by omega)
  have hread := readUInt16BE_bytes hvalue
    (ipPacket.take (ipHeaderLength ipPacket + checksumOffset))
    (ipPacket.drop (ipHeaderLength ipPacket + checksumOffset + 2))
  rw [hfront] at hread
  rw [hsame]
  exact hread

end Field

section Datagram

variable {payload packet src dst : Bytes} {srcPort dstPort identification value : Nat}
  {srcIP dstIP : AddressArg}

theorem total_udpSegment (hsrcPort : srcPort ≤ 0xffff) (hdstPort : dstPort ≤ 0xffff)
    (hlength : 8 + payload.length ≤ 0xffff) :
    total (udpSegment srcPort dstPort 0 payload) =
      srcPort + dstPort + (8 + payload.length) + total payload := by
  unfold udpSegment
  simp only [List.append_assoc]
  rw [total_bytes_append hsrcPort, total_bytes_append hdstPort, total_bytes_append hlength,
    total_bytes_append (Nat.zero_le _)]
  omega

section Packet

variable {ip : Bytes}

/-- A packet with an IPv4 header of 20 bytes in front of a UDP segment has room
for a checksum. -/
theorem udpPacket_hasTransport (hip : ip = ipv4Header (20 + (8 + payload.length)) identification 17
      value src dst ++ udpSegment srcPort dstPort 0 payload)
    (hsrc : src.length = 4) (hdst : dst.length = 4)
    (hlength : 20 + (8 + payload.length) ≤ 0xffff) :
    ipHeaderLength ip = 20 ∧ HasTransport ip 6 := by
  have hheader : ipHeaderLength ip = 20 := by
    have hfirst : byteAt ip 0 = 0x45 := by
      rw [hip]
      rfl
    rw [ipHeaderLength, hfirst]
    rfl
  have htotal : ip.length = 20 + (8 + payload.length) := by
    rw [hip, List.length_append, ipv4Header_length hsrc hdst, udpSegment_length]
  exact ⟨hheader, hheader.ge, by omega, by omega⟩

/-- The checksum is computed of words that add up to `datagramSum`, in whatever
order they stand. -/
theorem total_udpPacket (hip : ip = ipv4Header (20 + (8 + payload.length)) identification 17
      value src dst ++ udpSegment srcPort dstPort 0 payload)
    (hsrc : src.length = 4) (hdst : dst.length = 4)
    (hsrcPort : srcPort ≤ 0xffff) (hdstPort : dstPort ≤ 0xffff)
    (hlength : 20 + (8 + payload.length) ≤ 0xffff) :
    total (checksummed ip 17) = datagramSum payload srcPort dstPort src dst := by
  obtain ⟨hheader, htransport⟩ := udpPacket_hasTransport hip hsrc hdst hlength
  have hdrop : ip.drop 20 = udpSegment srcPort dstPort 0 payload := by
    rw [hip]
    exact List.drop_left' (ipv4Header_length hsrc hdst)
  have haddresses : slice ip 12 20 = src ++ dst := by
    rw [hip, slice, List.take_left' (ipv4Header_length hsrc hdst)]
    rfl
  have htotal : ip.length = 20 + (8 + payload.length) := by
    rw [hip, List.length_append, ipv4Header_length hsrc hdst, udpSegment_length]
  rw [checksummed, total_append (htransport.pseudoHeader_even 17),
    htransport.total_pseudoHeader (by decide), hheader, hdrop, haddresses, htotal,
    total_udpSegment hsrcPort hdstPort (by omega), Nat.add_sub_cancel_left]
  rfl

/-- The packet is built with a zero in its checksum field, which is then
overwritten. -/
theorem withChecksum_udpPacket (hip : ip = ipv4Header (20 + (8 + payload.length)) identification 17
      value src dst ++ udpSegment srcPort dstPort 0 payload)
    (hsrc : src.length = 4) (hdst : dst.length = 4)
    (hlength : 20 + (8 + payload.length) ≤ 0xffff) : withChecksum ip 6 0 = ip := by
  obtain ⟨hheader, -⟩ := udpPacket_hasTransport hip hsrc hdst hlength
  have hwrite := writeUInt16BE_bytes (ipv4Header (20 + (8 + payload.length)) identification 17 value
    src dst ++ bytes srcPort ++ bytes dstPort ++ bytes (8 + payload.length)) payload 0 0
  have hfront : (ipv4Header (20 + (8 + payload.length)) identification 17 value src dst ++
      bytes srcPort ++ bytes dstPort ++ bytes (8 + payload.length)).length = 20 + 6 := by
    simp [ipv4Header_length hsrc hdst]
  rw [hfront] at hwrite
  rw [withChecksum, hheader, hip]
  unfold udpSegment
  simp only [List.append_assoc] at hwrite ⊢
  exact hwrite

end Packet

/-- What `sendUDPToVM` sends: a packet into which the checksum of its words has
been written. -/
theorem sendUDPToVM_sent
    (h : sendUDPToVM payload srcPort dstPort srcIP dstIP identification = .ok packet)
    (hsrc : ipv4Bytes srcIP = .ok src) (hdst : ipv4Bytes dstIP = .ok dst) :
    ∃ ip, HasTransport ip 6 ∧
      total (checksummed (withChecksum ip 6 0) 17) = datagramSum payload srcPort dstPort src dst ∧
      packet = withChecksum ip 6 (checksum (checksummed (withChecksum ip 6 0) 17)) := by
  unfold sendUDPToVM at h
  dsimp only at h
  split at h
  · cases h
  rename_i hsrcPort
  split at h
  · cases h
  rename_i hdstPort
  split at h
  · cases h
  change (do
    let ip ← buildIPv4Packet (udpSegment srcPort dstPort 0 payload) srcIP dstIP 17 identification
    let cksum ← udpChecksum ip
    pure (writeUInt16BE ip cksum (20 + 6))) = _ at h
  cases hbuild : buildIPv4Packet (udpSegment srcPort dstPort 0 payload) srcIP dstIP 17
      identification with
  | error message =>
      rw [hbuild] at h
      cases h
  | ok ip =>
      obtain ⟨hlength, src', dst', hsrc', hdst', hip⟩ := buildIPv4Packet_ok hbuild
      obtain rfl := Except.ok.inj (hsrc.symm.trans hsrc')
      obtain rfl := Except.ok.inj (hdst.symm.trans hdst')
      rw [udpSegment_length] at hlength hip
      have hfour := ipv4Bytes_length hsrc
      have hfour' := ipv4Bytes_length hdst
      obtain ⟨hheader, htransport⟩ := udpPacket_hasTransport hip hfour hfour' hlength
      have hzero := withChecksum_udpPacket hip hfour hfour' hlength
      refine ⟨ip, htransport, ?_, ?_⟩
      · rw [hzero]
        exact total_udpPacket hip hfour hfour' (Nat.le_of_not_gt hsrcPort)
          (Nat.le_of_not_gt hdstPort) hlength
      · rw [hbuild] at h
        change (transportChecksum ip 17 6 >>= fun cksum =>
          Except.ok (writeUInt16BE ip cksum (20 + 6))) = _ at h
        rw [htransport.transportChecksum_eq (by decide) rfl] at h
        rw [withChecksum, hheader]
        exact (Except.ok.inj h).symm

/-- A datagram to the VM carries a checksum that verifies exactly when the words
it is computed of do not add up to a multiple of `0xffff`. -/
theorem sendUDPToVM_carriesChecksum (payload src dst packet : Bytes)
    (srcPort dstPort identification : Nat) (srcIP dstIP : AddressArg)
    (hsrc : ipv4Bytes srcIP = .ok src) (hdst : ipv4Bytes dstIP = .ok dst)
    (h : sendUDPToVM payload srcPort dstPort srcIP dstIP identification = .ok packet) :
    CarriesChecksum packet ↔ ¬0xffff ∣ datagramSum payload srcPort dstPort src dst := by
  obtain ⟨ip, htransport, htotal, rfl⟩ := sendUDPToVM_sent h hsrc hdst
  have hpositive : 0 < total (checksummed (withChecksum ip 6 0) 17) := by
    rw [htotal]
    unfold datagramSum
    omega
  have hzero := checksum_eq_zero_iff hpositive
  rw [htotal] at hzero
  unfold CarriesChecksum udpChecksumField
  rw [htransport.readUInt16BE_withChecksum (checksum_le _)]
  constructor
  · intro hcarries hmultiple
    exact hcarries.1 (hzero.mpr hmultiple)
  · intro hmultiple
    exact ⟨fun hfield => hmultiple (hzero.mp hfield), htransport.verifies 17 rfl⟩

/-- A DNS response of two bytes, whose checksum is not zero. -/
theorem sendUDPToVM_carriesChecksum_response : ∃ packet,
    sendUDPToVM [1, 2] 53 5000 (.buffer [8, 8, 8, 8]) (.buffer [10, 0, 2, 15]) 7 = .ok packet ∧
      CarriesChecksum packet := by
  obtain ⟨value, cksum, hsent⟩ := @sendUDPToVM_ok [1, 2] (.buffer [8, 8, 8, 8])
    (.buffer [10, 0, 2, 15]) 7 53 5000 [8, 8, 8, 8] [10, 0, 2, 15] (by decide) (by decide)
    (by decide) (by decide) rfl rfl
  exact ⟨_, hsent, (sendUDPToVM_carriesChecksum [1, 2] [8, 8, 8, 8] [10, 0, 2, 15] _ 53 5000 7 _ _
    rfl rfl hsent).mpr (by decide)⟩

/-- A response whose words add up to `0xffff`: its field says that there is no
checksum. -/
theorem sendUDPToVM_noChecksum : ∃ packet,
    sendUDPToVM [0xcf, 0xfe] 53 5000 (.buffer [8, 8, 8, 8]) (.buffer [10, 0, 2, 15]) 7 =
      .ok packet ∧ udpChecksumField packet = 0 ∧ ¬CarriesChecksum packet := by
  refine ⟨ipv4Header 30 7 17 0x5eaa [8, 8, 8, 8] [10, 0, 2, 15] ++
    udpSegment 53 5000 0 [0xcf, 0xfe], ?_, rfl, fun hcarries => hcarries.1 rfl⟩
  decide +kernel

end Datagram

end RootlessRelay
