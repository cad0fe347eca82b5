import Mathlib.Data.List.GetD
import RootlessRelay.Library.OnesComplement
import RootlessRelay.Net.Packets

/-!
# Checksums of packets

`internetChecksum`, `transportChecksum` and `buildIPv4Packet` of
`packet_utils.js`. The checksum of a transport segment is computed in place, as
an ordinary sum from which the current checksum word is subtracted; it is the
one's-complement checksum of the pseudo-header and the segment with its checksum
field cleared.

The proof goes through ordinary sums. Both the loop over the words and the
specification come to `residue` of such a sum, where the order of the words and
the time of the carries no longer show, and subtracting the checksum word is the
same as clearing its field. The loop of the source may run over an odd byte or a
field with any content; no lemma here assumes a packet that the relay has built
itself.
-/

namespace RootlessRelay

open OnesComplement

/-- The loops
`for (offset; offset < stop; offset += 2) sum += readUInt16BE(offset)`. The
condition `offset + 1 < length` of the source is `offset < length - 1`. -/
def sumWords (data : Bytes) (stop offset : Nat) (sum : Int) : Int :=
  if offset < stop then sumWords data stop (offset + 2) (sum + readUInt16BE data offset) else sum
termination_by stop - offset

/-- `while (sum > 0xffff) sum = (sum & 0xffff) + Math.floor(sum / 0x10000)`. The
sum becomes smaller with every turn. -/
def foldCarries (sum : Nat) : Nat :=
  if sum > 0xffff then foldCarries ((sum &&& 0xffff) + sum / 0x10000) else sum
termination_by sum
decreasing_by
  rw [show 0xffff = 2 ^ 16 - 1 from rfl, Nat.and_two_pow_sub_one_eq_mod]
  omega

/-- `(~sum) & 0xffff`, on 32-bit words as the operators of the source are. -/
def complement (sum : Nat) : Nat := (~~~BitVec.ofNat 32 sum &&& 0xffff#32).toNat

/-- `internetChecksum`: the words are added up as a number, and the carries are
folded in at the end. -/
def internetChecksum (data : Bytes) : Nat :=
  let sum := sumWords data (data.length - 1) 0 0
  let sum :=
    if data.length % 2 ≠ 0 then sum + (byteAt data (data.length - 1) <<< 8 : Nat) else sum
  complement (foldCarries sum.toNat)

/-- `transportChecksum`. The sum may be negative between the subtraction of the
checksum word and the loop that adds it again. -/
def transportChecksum (ipPacket : Bytes) (protocol checksumOffset : Nat) : Except String Nat :=
  let headerLength := (byteAt ipPacket 0 &&& 0x0f) * 4
  if headerLength < 20 ∨ ipPacket.length < headerLength then
    .error "Invalid IPv4 header length"
  else
    let transportLength := ipPacket.length - headerLength
    if transportLength > 0xffff then .error "Transport length exceeds 65535 bytes"
    else if transportLength < checksumOffset + 2 then
      .error "Transport packet is too short for its checksum field"
    else
      let sum : Int := protocol + transportLength
      let sum := sumWords ipPacket 20 12 sum
      let sum := sum - readUInt16BE ipPacket (headerLength + checksumOffset)
      let sum := sumWords ipPacket (ipPacket.length - 1) headerLength sum
      let sum :=
        if transportLength % 2 ≠ 0 then sum + (byteAt ipPacket (ipPacket.length - 1) <<< 8 : Nat)
        else sum
      .ok (complement (foldCarries sum.toNat))

/-- `tcpChecksum`: the checksum field of TCP is 16 bytes into its header. -/
def tcpChecksum (ipPacket : Bytes) : Except String Nat := transportChecksum ipPacket 6 16

/-- `udpChecksum`: the checksum field of UDP is 6 bytes into its header. -/
def udpChecksum (ipPacket : Bytes) : Except String Nat := transportChecksum ipPacket 17 6

/-- `buf.writeUInt16BE(value, offset)` inside the buffer. The write is in place;
the buffer after it is a new list here. -/
def writeUInt16BE (buf : Bytes) (value offset : Nat) : Bytes :=
  buf.take offset ++ bytes value ++ buf.drop (offset + 2)

theorem complement_eq {sum : Nat} (h : sum ≤ 0xffff) : complement sum = 0xffff - sum := by
  rw [complement, BitVec.toNat_and, BitVec.toNat_not, BitVec.toNat_ofNat]
  change (2 ^ 32 - 1 - sum % 2 ^ 32) &&& (2 ^ 16 - 1) = _
  rw [Nat.and_two_pow_sub_one_eq_mod]
  omega

theorem foldCarries_eq (sum : Nat) : foldCarries sum = residue sum := by
  induction sum using foldCarries.induct with
  | case1 sum hover ih =>
      unfold foldCarries
      rw [if_pos hover, ih, show 0xffff = 2 ^ 16 - 1 from rfl, Nat.and_two_pow_sub_one_eq_mod]
      have hpos : 0 < sum % 2 ^ 16 + sum / 0x10000 := by omega
      have hsum : sum = sum % 2 ^ 16 + sum / 0x10000 + top * (sum / 0x10000) := by
        unfold top
        omega
      nth_rewrite 3 [hsum]
      rw [residue_add_mul hpos]
  | case2 sum hfits =>
      unfold foldCarries
      rw [if_neg hfits, residue_of_le (Nat.le_of_not_gt hfits)]

/-- The end of every checksum: the complement of a folded sum is that of its
residue. -/
theorem complement_foldCarries (sum : Nat) :
    complement (foldCarries sum) = 0xffff - residue sum := by
  rw [foldCarries_eq, complement_eq (residue_le sum)]

theorem byteAt_of_lt {data : Bytes} {i : Nat} (h : i < data.length) :
    byteAt data i = data[i].toNat := by
  rw [byteAt, List.getD_eq_getElem?_getD, List.getElem?_eq_getElem h, Option.getD_some]

/-- The loop over the words from `offset` on, with the odd byte that is left
over. The offset has any parity, since headers are summed from where they start. -/
theorem sumWords_total {data : Bytes} {offset : Nat} (h : offset ≤ data.length) (sum : Int) :
    sumWords data (data.length - 1) offset sum +
        (if (data.length - offset) % 2 ≠ 0 then
          ((byteAt data (data.length - 1) <<< 8 : Nat) : Int) else 0) =
      sum + total (data.drop offset) := by
  induction offset, sum using sumWords.induct data (data.length - 1) with
  | case1 offset sum hlt ih =>
      have hfirst : offset < data.length := by omega
      have hsecond : offset + 1 < data.length := by omega
      have hdrop : data.drop offset = data[offset] :: data[offset + 1] :: data.drop (offset + 2) := by
        rw [List.drop_eq_getElem_cons hfirst, List.drop_eq_getElem_cons hsecond]
      have hparity : (data.length - offset) % 2 = (data.length - (offset + 2)) % 2 := by omega
      rw [sumWords, if_pos hlt, hparity, ih (by omega), hdrop, total_cons_cons, readUInt16BE,
        byteAt_of_lt hfirst, byteAt_of_lt hsecond]
      omega
  | case2 offset sum hend =>
      rw [sumWords, if_neg hend]
      by_cases hlast : offset = data.length
      · subst hlast
        rw [Nat.sub_self, if_neg (by simp), List.drop_length, total_nil]
        rfl
      · have hlt : data.length - 1 < data.length := by omega
        obtain rfl : offset = data.length - 1 := by omega
        have hodd : (data.length - (data.length - 1)) % 2 ≠ 0 := by omega
        rw [if_pos hodd, List.drop_eq_getElem_cons hlt, byteAt_of_lt hlt, Nat.shiftLeft_eq,
          show data.length - 1 + 1 = data.length by omega, List.drop_length]
        simp [total, words]

/-- The program's checksum of a byte string is the one's-complement checksum,
for every length. -/
theorem internetChecksum_eq (data : Bytes) : internetChecksum data = checksum data := by
  have hloop := sumWords_total (Nat.zero_le data.length) 0
  rw [Nat.sub_zero, List.drop_zero, Int.zero_add] at hloop
  unfold internetChecksum
  have hsum : (if data.length % 2 ≠ 0 then
      sumWords data (data.length - 1) 0 0 + ((byteAt data (data.length - 1) <<< 8 : Nat) : Int)
      else sumWords data (data.length - 1) 0 0) = total data := by
    rw [← hloop]
    split <;> simp
  dsimp only
  rw [hsum, Int.toNat_natCast, complement_foldCarries, checksum_eq]
  rfl

/-- The two bytes at `offset` are the bytes of the word there: reading and
writing a word are inverse. -/
theorem bytes_readUInt16BE {data : Bytes} {offset : Nat} (h : offset + 2 ≤ data.length) :
    bytes (readUInt16BE data offset) = [data[offset], data[offset + 1]] := by
  have hlow : data[offset + 1].toNat < 256 := data[offset + 1].toNat_lt
  have hdiv : readUInt16BE data offset / 256 = data[offset].toNat := by
    rw [readUInt16BE, byteAt_of_lt (by omega), byteAt_of_lt (by omega)]
    omega
  have hmod : readUInt16BE data offset % 256 = data[offset + 1].toNat := by
    rw [readUInt16BE, byteAt_of_lt (by omega), byteAt_of_lt (by omega)]
    omega
  rw [bytes, hdiv, hmod, UInt8.ofNat_toNat, UInt8.ofNat_toNat]

theorem readUInt16BE_le (data : Bytes) (offset : Nat) : readUInt16BE data offset ≤ 0xffff := by
  have hhigh : byteAt data offset < 256 := UInt8.toNat_lt _
  have hlow : byteAt data (offset + 1) < 256 := UInt8.toNat_lt _
  rw [readUInt16BE]
  omega

theorem readUInt16BE_bytes {word : Nat} (h : word ≤ 0xffff) (front back : Bytes) :
    readUInt16BE (front ++ bytes word ++ back) front.length = word := by
  have hhigh : byteAt (front ++ bytes word ++ back) front.length = word / 256 := by
    rw [byteAt, List.append_assoc, List.getD_append_right _ _ _ _ le_rfl, Nat.sub_self]
    exact UInt8.toNat_ofNat_of_lt' (by simp only [UInt8.size]; omega)
  have hlow : byteAt (front ++ bytes word ++ back) (front.length + 1) = word % 256 := by
    rw [byteAt, List.append_assoc, List.getD_append_right _ _ _ _ (by omega),
      Nat.add_sub_cancel_left]
    exact UInt8.toNat_ofNat_of_lt' (by simp only [UInt8.size]; omega)
  rw [readUInt16BE, hhigh, hlow]
  omega

/-- A buffer falls apart into what is before a word, the word, and what is after
it. Reading a field is taken apart in this way, and so is writing one. -/
theorem eq_around_word {data : Bytes} {offset : Nat} (h : offset + 2 ≤ data.length) :
    data.take offset ++ bytes (readUInt16BE data offset) ++ data.drop (offset + 2) = data := by
  have hdrop : data.drop offset = data[offset] :: data[offset + 1] :: data.drop (offset + 2) := by
    rw [List.drop_eq_getElem_cons (by omega), List.drop_eq_getElem_cons (by omega)]
  rw [bytes_readUInt16BE h, List.append_assoc]
  change data.take offset ++ (data[offset] :: data[offset + 1] :: data.drop (offset + 2)) = data
  rw [← hdrop, List.take_append_drop]

theorem writeUInt16BE_length {data : Bytes} {offset : Nat} (h : offset + 2 ≤ data.length)
    (value : Nat) : (writeUInt16BE data value offset).length = data.length := by
  simp only [writeUInt16BE, List.length_append, List.length_take, List.length_drop, bytes_length]
  omega

/-- A write behind `start` shows in the rest of the buffer from `start` on, at
the offset from there. -/
theorem drop_writeUInt16BE {data : Bytes} {start offset : Nat}
    (h : start + offset + 2 ≤ data.length) (value : Nat) :
    (writeUInt16BE data value (start + offset)).drop start =
      (data.drop start).take offset ++ bytes value ++ data.drop (start + offset + 2) := by
  have hle : start ≤ (data.take (start + offset)).length := by
    rw [List.length_take]
    omega
  rw [writeUInt16BE, List.append_assoc, List.drop_append_of_le_length hle, List.drop_take,
    Nat.add_sub_cancel_left, List.append_assoc]

theorem take_writeUInt16BE {data : Bytes} {stop offset : Nat} (h : stop ≤ offset)
    (hlen : offset + 2 ≤ data.length) (value : Nat) :
    (writeUInt16BE data value offset).take stop = data.take stop := by
  have hle : stop ≤ (data.take offset).length := by
    rw [List.length_take]
    omega
  rw [writeUInt16BE, List.append_assoc, List.take_append_of_le_length hle, List.take_take,
    Nat.min_eq_left h]

theorem byteAt_writeUInt16BE {data : Bytes} {i offset : Nat} (h : i < offset)
    (hlen : offset + 2 ≤ data.length) (value : Nat) :
    byteAt (writeUInt16BE data value offset) i = byteAt data i := by
  have htake := congrArg (fun data : Bytes => data[i]?) (take_writeUInt16BE h hlen value)
  simp only [Nat.succ_eq_add_one, Nat.lt_add_one, List.getElem?_take_of_lt] at htake
  rw [byteAt, byteAt, List.getD_eq_getElem?_getD, List.getD_eq_getElem?_getD, htake]

/-- The header length of an IPv4 packet, as every reader computes it: four times
the low half of its first byte. -/
def ipHeaderLength (ipPacket : Bytes) : Nat := (byteAt ipPacket 0 &&& 0x0f) * 4

/-- Source and destination address, a zero byte, the protocol and the transport
length. The last is taken from the buffer, not from the header. -/
def pseudoHeader (ipPacket : Bytes) (protocol : Nat) : Bytes :=
  slice ipPacket 12 20 ++ bytes protocol ++ bytes (ipPacket.length - ipHeaderLength ipPacket)

/-- What a transport checksum covers: the pseudo-header and everything behind
the IPv4 header. -/
def checksummed (ipPacket : Bytes) (protocol : Nat) : Bytes :=
  pseudoHeader ipPacket protocol ++ ipPacket.drop (ipHeaderLength ipPacket)

/-- The packet with a checksum written into its transport header, in front of
which options may stand. -/
def withChecksum (ipPacket : Bytes) (checksumOffset value : Nat) : Bytes :=
  writeUInt16BE ipPacket value (ipHeaderLength ipPacket + checksumOffset)

/-- The buffer holds an IPv4 header and a transport header with its checksum
field, and is no longer than an IPv4 packet can be. -/
structure HasTransport (ipPacket : Bytes) (checksumOffset : Nat) : Prop where
  header : 20 ≤ ipHeaderLength ipPacket
  field : ipHeaderLength ipPacket + checksumOffset + 2 ≤ ipPacket.length
  length : ipPacket.length ≤ 0xffff

variable {ipPacket : Bytes} {protocol checksumOffset : Nat}

/-- The loop over the addresses of the pseudo header sums the twelve bytes in
two words each. -/
theorem total_addresses (h : 20 ≤ ipPacket.length) (sum : Int) :
    sumWords ipPacket 20 12 sum = sum + total (slice ipPacket 12 20) := by
  have hword : ∀ offset, offset + 2 ≤ 20 → total ((ipPacket.take 20).drop offset) =
      readUInt16BE ipPacket offset + total ((ipPacket.take 20).drop (offset + 2)) := by
    intro offset hlt
    have hfirst : offset < (ipPacket.take 20).length := by
      rw [List.length_take]
      omega
    have hsecond : offset + 1 < (ipPacket.take 20).length := by
      rw [List.length_take]
      omega
    rw [List.drop_eq_getElem_cons hfirst, List.drop_eq_getElem_cons hsecond, total_cons_cons,
      readUInt16BE, byteAt_of_lt (by omega), byteAt_of_lt (by omega), List.getElem_take,
      List.getElem_take]
  have hend : (ipPacket.take 20).drop 20 = [] :=
    List.drop_eq_nil_of_le (List.length_take_le 20 ipPacket)
  unfold slice
  rw [hword 12 (by omega), hword 14 (by omega), hword 16 (by omega), hword 18 (by omega), hend,
    total_nil]
  iterate 5 rw [sumWords]
  simp only [Nat.reduceAdd, Nat.reduceLT, if_true, if_false]
  omega

theorem HasTransport.pseudoHeader_even (h : HasTransport ipPacket checksumOffset)
    (protocol : Nat) :
    (pseudoHeader ipPacket protocol).length % 2 = 0 := by
  have := h.header
  have := h.field
  simp only [pseudoHeader, slice, List.length_append, List.length_drop, List.length_take,
    bytes_length]
  omega

/-- The sum over the pseudo header is that of the addresses, the protocol and
the length of the segment. -/
theorem HasTransport.total_pseudoHeader (h : HasTransport ipPacket checksumOffset)
    (hprotocol : protocol ≤ 0xffff) :
    total (pseudoHeader ipPacket protocol) =
      total (slice ipPacket 12 20) + protocol + (ipPacket.length - ipHeaderLength ipPacket) := by
  have hlength := h.length
  have hheader := h.header
  have hfield := h.field
  have heven : (slice ipPacket 12 20).length % 2 = 0 := by
    rw [slice, List.length_drop, List.length_take]
    omega
  have hle : ipPacket.length - ipHeaderLength ipPacket ≤ top := (Nat.sub_le _ _).trans hlength
  have hlast := total_bytes_append hle []
  rw [List.append_nil, total_nil, Nat.add_zero] at hlast
  rw [pseudoHeader, List.append_assoc, total_append heven, total_bytes_append hprotocol, hlast,
    Nat.add_assoc]

/-- With any value in its checksum field, the segment sums to what it sums to
without, plus the value. The field stands at an even offset. -/
theorem HasTransport.total_withChecksum (h : HasTransport ipPacket checksumOffset)
    (heven : checksumOffset % 2 = 0) {value : Nat} (hvalue : value ≤ 0xffff) :
    total ((withChecksum ipPacket checksumOffset value).drop (ipHeaderLength ipPacket)) =
      total ((withChecksum ipPacket checksumOffset 0).drop (ipHeaderLength ipPacket)) + value := by
  have hfront : ((ipPacket.drop (ipHeaderLength ipPacket)).take checksumOffset).length % 2 = 0 := by
    have := h.field
    rw [List.length_take, List.length_drop]
    omega
  unfold withChecksum
  rw [drop_writeUInt16BE h.field, drop_writeUInt16BE h.field, List.append_assoc,
    List.append_assoc, total_append hfront, total_append hfront, total_bytes_append hvalue,
    total_bytes_append (Nat.zero_le _)]
  omega

/-- Without a write nothing changes: the word that is there is written again. -/
theorem HasTransport.withChecksum_self (h : HasTransport ipPacket checksumOffset) :
    withChecksum ipPacket checksumOffset
      (readUInt16BE ipPacket (ipHeaderLength ipPacket + checksumOffset)) = ipPacket :=
  eq_around_word h.field

theorem HasTransport.withChecksum_eq (h : HasTransport ipPacket checksumOffset)
    (protocol value : Nat) :
    ipHeaderLength (withChecksum ipPacket checksumOffset value) = ipHeaderLength ipPacket ∧
      pseudoHeader (withChecksum ipPacket checksumOffset value) protocol =
        pseudoHeader ipPacket protocol := by
  have hheader := h.header
  have hlength : ipHeaderLength (withChecksum ipPacket checksumOffset value) =
      ipHeaderLength ipPacket := by
    rw [ipHeaderLength, withChecksum, byteAt_writeUInt16BE (by omega) h.field]
    rfl
  refine ⟨hlength, ?_⟩
  unfold pseudoHeader
  rw [hlength, slice, slice, withChecksum, take_writeUInt16BE (by omega) h.field,
    writeUInt16BE_length h.field]

/-- The checksum computed in place is the one's-complement checksum of
pseudo-header and segment with the checksum field cleared. -/
theorem HasTransport.transportChecksum_eq (h : HasTransport ipPacket checksumOffset)
    (hprotocol : protocol ≤ 0xffff) (heven : checksumOffset % 2 = 0) :
    transportChecksum ipPacket protocol checksumOffset =
      .ok (checksum (checksummed (withChecksum ipPacket checksumOffset 0) protocol)) := by
  have hheader := h.header
  have hfield := h.field
  have hlength := h.length
  have hword := readUInt16BE_le ipPacket (ipHeaderLength ipPacket + checksumOffset)
  -- the sum of the loop over the segment, and what the subtraction takes out of it
  have hsegment := h.total_withChecksum heven hword
  rw [h.withChecksum_self] at hsegment
  have hloop := sumWords_total (show ipHeaderLength ipPacket ≤ ipPacket.length by omega)
    ((protocol : Int) + (ipPacket.length - ipHeaderLength ipPacket : Nat) +
      total (slice ipPacket 12 20) -
      readUInt16BE ipPacket (ipHeaderLength ipPacket + checksumOffset))
  have htotal : total (checksummed (withChecksum ipPacket checksumOffset 0) protocol) =
      total (slice ipPacket 12 20) + protocol + (ipPacket.length - ipHeaderLength ipPacket) +
        total ((withChecksum ipPacket checksumOffset 0).drop (ipHeaderLength ipPacket)) := by
    obtain ⟨hsame, hpseudo⟩ := h.withChecksum_eq protocol 0
    rw [checksummed, hpseudo, hsame, total_append (h.pseudoHeader_even protocol),
      h.total_pseudoHeader hprotocol]
  have hsum : (if (ipPacket.length - ipHeaderLength ipPacket) % 2 ≠ 0 then
      sumWords ipPacket (ipPacket.length - 1) (ipHeaderLength ipPacket)
          (sumWords ipPacket 20 12 (protocol + (ipPacket.length - ipHeaderLength ipPacket : Nat)) -
            readUInt16BE ipPacket (ipHeaderLength ipPacket + checksumOffset)) +
        ((byteAt ipPacket (ipPacket.length - 1) <<< 8 : Nat) : Int)
      else sumWords ipPacket (ipPacket.length - 1) (ipHeaderLength ipPacket)
        (sumWords ipPacket 20 12 (protocol + (ipPacket.length - ipHeaderLength ipPacket : Nat)) -
          readUInt16BE ipPacket (ipHeaderLength ipPacket + checksumOffset))) =
      total (checksummed (withChecksum ipPacket checksumOffset 0) protocol) := by
    rw [total_addresses (by omega)]
    split
    · rename_i hodd
      rw [if_pos hodd] at hloop
      rw [hloop, htotal]
      omega
    · rename_i hodd
      rw [if_neg hodd, Int.add_zero] at hloop
      rw [hloop, htotal]
      omega
  have hok : transportChecksum ipPacket protocol checksumOffset =
      .ok (complement (foldCarries
        (total (checksummed (withChecksum ipPacket checksumOffset 0) protocol)))) := by
    have hheaderOk : ¬(ipHeaderLength ipPacket < 20 ∨ ipPacket.length < ipHeaderLength ipPacket) := by
      omega
    have hlengthOk : ¬ipPacket.length - ipHeaderLength ipPacket > 0xffff := by omega
    have hfieldOk : ¬ipPacket.length - ipHeaderLength ipPacket < checksumOffset + 2 := by omega
    unfold ipHeaderLength at *
    unfold transportChecksum
    dsimp only
    rw [if_neg hheaderOk, if_neg hlengthOk, if_neg hfieldOk, hsum, Int.toNat_natCast]
  rw [hok, complement_foldCarries, checksum_eq]
  rfl

/-- A packet whose checksum has been filled in verifies, whatever stood in the
field before. -/
theorem HasTransport.verifies (h : HasTransport ipPacket checksumOffset) (protocol : Nat)
    (heven : checksumOffset % 2 = 0) :
    internetChecksum (checksummed (withChecksum ipPacket checksumOffset
      (checksum (checksummed (withChecksum ipPacket checksumOffset 0) protocol))) protocol) = 0 := by
  have hfront : (pseudoHeader ipPacket protocol ++
      (ipPacket.drop (ipHeaderLength ipPacket)).take checksumOffset).length % 2 = 0 := by
    have := h.pseudoHeader_even protocol
    have := h.field
    rw [List.length_append, List.length_take, List.length_drop]
    omega
  have hsplit : ∀ value, checksummed (withChecksum ipPacket checksumOffset value) protocol =
      pseudoHeader ipPacket protocol ++
        (ipPacket.drop (ipHeaderLength ipPacket)).take checksumOffset ++ bytes value ++
          ipPacket.drop (ipHeaderLength ipPacket + checksumOffset + 2) := by
    intro value
    obtain ⟨hsame, hpseudo⟩ := h.withChecksum_eq protocol value
    rw [checksummed, hpseudo, hsame, withChecksum, drop_writeUInt16BE h.field]
    simp only [List.append_assoc]
  rw [internetChecksum_eq, hsplit, hsplit]
  exact checksum_verifies hfront _

end RootlessRelay
