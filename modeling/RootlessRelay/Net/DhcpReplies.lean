import RootlessRelay.Library.VendorOptions
import RootlessRelay.Net.ForwardReplies
import RootlessRelay.Net.Routing
import RootlessRelay.Tcp.Header

/-!
# DHCP messages on the wire

The options `handleDHCP` scans are a list of options up to its end, and of a
kind that occurs twice the last one counts. `sendDHCP` writes such a message as
well: what a VM reads out of its packet is the reply that `handleDHCP` asked
for, to which the address leased to the client belongs for as long as the lease
is not given back.

The format of options is the library's (`VendorOptions`), and both directions go
through it: the scan is compared with its decoder, and the bytes of a reply with
its encoder. The address in a reply is one of four bytes, so the last theorem
asks that the pool ends at 255 or below, which the relay does not check.
-/

namespace RootlessRelay

open InsertionMap OnesComplement Transition

variable {options : Bytes} {msgType : Nat}

theorem scanOptions_skip {skip : Nat} (h : skip ≤ options.length) (msgType : Nat) :
    scanOptions options skip msgType = scanOptions (options.drop skip) 0 msgType := by
  induction skip generalizing options with
  | zero => rfl
  | succ skip ih =>
      cases options with
      | nil => cases h
      | cons first rest =>
          rw [scanOptions, List.drop_succ_cons]
          exact ih (Nat.le_of_succ_le_succ h)

theorem scanOptions_end (tail : Bytes) (msgType : Nat) :
    scanOptions (255 :: tail) 0 msgType = some msgType := by
  cases tail <;> rw [scanOptions, if_pos rfl]

theorem scanOptions_pad (tail : Bytes) (msgType : Nat) :
    scanOptions (0 :: tail) 0 msgType = scanOptions tail 0 msgType := by
  cases tail with
  | nil => rfl
  | cons length body => rw [scanOptions, if_neg (by decide), if_pos rfl]

theorem scanOptions_item {kind length : UInt8} {body : Bytes} (hpad : kind ≠ 0) (hend : kind ≠ 255)
    (h : length.toNat ≤ body.length) (msgType : Nat) :
    scanOptions (kind :: length :: body) 0 msgType =
      scanOptions (body.drop length.toNat) 0 (if kind = 53 then byteAt body 0 else msgType) := by
  rw [scanOptions, if_neg hend, if_neg hpad, if_neg (Nat.not_lt.mpr h),
    scanOptions_skip (by rw [List.length_cons]; omega), Nat.add_comm 1, List.drop_succ_cons]

/-- The scan accepts the well-formed lists of options, and finds the last
message type. The type has to have a byte of data, for the source reads it
without asking. -/
theorem scanOptions_eq
    (h : ∀ items, VendorOptions.decode options = some items →
      ∀ item ∈ items, item.kind = 53 → item.data ≠ [])
    (msgType : Nat) :
    scanOptions options 0 msgType =
      (VendorOptions.decode options).map fun items =>
        ((VendorOptions.lastByte 53 items).map UInt8.toNat).getD msgType := by
  induction options using VendorOptions.decode.induct generalizing msgType with
  | case1 =>
      rw [VendorOptions.decode_nil]
      rfl
  | case2 rest =>
      rw [VendorOptions.decode_end, scanOptions_end]
      rfl
  | case3 rest hend ih =>
      rw [VendorOptions.decode_pad] at h ⊢
      rw [scanOptions_pad]
      exact ih h msgType
  | case4 kind hend hpad =>
      rw [VendorOptions.decode_truncated hpad hend, scanOptions, if_neg hend, if_neg hpad]
      rfl
  | case5 kind hend hpad length body hshort =>
      rw [VendorOptions.decode_malformed hpad hend hshort, scanOptions, if_neg hend, if_neg hpad]
      exact if_pos hshort
  | case6 kind hend hpad length body hlength ih =>
      have hfits := Nat.le_of_not_lt hlength
      rw [VendorOptions.decode_item hpad hend hfits] at h ⊢
      rw [scanOptions_item hpad hend hfits]
      have hitem : ∀ items, VendorOptions.decode (body.drop length.toNat) = some items →
          ∀ item ∈ (⟨kind, body.take length.toNat⟩ : VendorOptions.Item) :: items,
            item.kind = 53 → item.data ≠ [] :=
        fun items hitems => h _ (by rw [hitems]; rfl)
      rw [ih fun items hitems item hmem => hitem items hitems item (List.mem_cons_of_mem _ hmem)]
      cases hrest : VendorOptions.decode (body.drop length.toNat) with
      | none => rfl
      | some items =>
          have hfirst := hitem items hrest _ (List.mem_cons_self)
          rw [Option.map_some, Option.map_some, Option.map_some, VendorOptions.lastByte_cons]
          cases VendorOptions.lastByte 53 items with
          | some last => rfl
          | none =>
              by_cases hkind : kind = 53
              · have hbody := hfirst hkind
                cases body with
                | nil => exact absurd List.take_nil hbody
                | cons first rest =>
                    have htake : (List.take length.toNat (first :: rest)).head? = some first := by
                      cases hn : length.toNat with
                      | zero =>
                          rw [hn] at hbody
                          exact absurd rfl hbody
                      | succ n => rfl
                    simp only [if_pos hkind, htake]
                    rfl
              · simp only [if_neg hkind]
                rfl

/-- Four bytes of a number, as `writeUInt32BE` puts them. -/
def bytes32 (value : Nat) : Bytes := bytes (value / 65536) ++ bytes (value % 65536)

theorem bytes32_length (value : Nat) : (bytes32 value).length = 4 := rfl

variable (cfg : RelaySettings) (DNS_SERVER_IP : Address)

/-- The message `sendDHCP` fills its buffer with, up to the end of the options.
The fields that the source leaves at zero are written out. -/
def dhcpBuffer (reply : DHCPReply) : Bytes :=
  [2, 1, 6, 0] ++ bytes32 reply.xid ++ bytes 0 ++ bytes 0 ++ List.replicate 4 0 ++
    reply.assignedIP.octets ++ cfg.GATEWAY_IP.octets ++ cfg.GATEWAY_IP.octets ++
    reply.clientMAC ++ List.replicate (208 - reply.clientMAC.length) 0 ++ bytes32 0x63825363 ++
    ([53, 1, UInt8.ofNat reply.msgType, 54, 4] ++ cfg.GATEWAY_IP.octets ++
      [51, 4] ++ bytes32 3600 ++ [1, 4] ++ [255, 255, 255, 0] ++
      [3, 4] ++ cfg.GATEWAY_IP.octets ++ [6, 4] ++ DNS_SERVER_IP.octets ++
      [26, 2] ++ bytes cfg.vmMtu ++ [255])

/-- The packet `sendDHCP` hands to `sendIPToVM`: from port 67 of the gateway to
everybody's port 68, without a UDP checksum. -/
def sendDHCP (reply : DHCPReply) (identification : Nat) : Except String Bytes :=
  let dhcp := dhcpBuffer cfg DNS_SERVER_IP reply
  let udpLen := 8 + dhcp.length
  let udp := bytes 67 ++ bytes 68 ++ bytes udpLen ++ bytes 0 ++ dhcp
  buildIPv4Packet udp (.string cfg.GATEWAY_IP.text) (.string (Address.text ⟨255, 255, 255, 255⟩))
    17 identification

/-- What the reply tells the VM beside its address: type, server, lease time,
mask, router, name server and MTU. -/
def dhcpOptions (msgType : Nat) : List VendorOptions.Item :=
  [⟨53, [UInt8.ofNat msgType]⟩, ⟨54, cfg.GATEWAY_IP.octets⟩, ⟨51, bytes32 3600⟩,
    ⟨1, [255, 255, 255, 0]⟩, ⟨3, cfg.GATEWAY_IP.octets⟩, ⟨6, DNS_SERVER_IP.octets⟩,
    ⟨26, bytes cfg.vmMtu⟩]

/-- What a VM reads out of a packet: a datagram from the gateway's port 67 to
everybody's port 68, and in it a reply with its addresses and options. -/
structure ReadsReply (reply : DHCPReply) (packet : Bytes) : Prop where
  datagram : ∃ parsed dhcp, parseIPv4Packet packet = some parsed ∧
    parsed.srcIP = cfg.GATEWAY_IP ∧ parsed.dstIP = ⟨255, 255, 255, 255⟩ ∧
    parseUDPDatagram parsed = some ⟨67, 68, 8 + dhcp.length, dhcp⟩ ∧
    byteAt dhcp 0 = 2 ∧ parseDHCP dhcp = some ⟨reply.xid, reply.clientMAC, reply.msgType⟩ ∧
    formatIPv4 dhcp 16 = reply.assignedIP ∧ formatIPv4 dhcp 20 = cfg.GATEWAY_IP ∧
    formatIPv4 dhcp 24 = cfg.GATEWAY_IP ∧
    VendorOptions.decode (dhcp.drop 240) = some (dhcpOptions cfg DNS_SERVER_IP reply.msgType)

variable {cfg DNS_SERVER_IP} {reply : DHCPReply}

theorem octets_length (a : Address) : a.octets.length = 4 := rfl

theorem formatIPv4_behind {a : Address} (h : a.Canonical) (front back : Bytes) :
    formatIPv4 (front ++ a.octets ++ back) front.length = a := by
  rw [List.append_assoc]
  have hzero : byteAt (front ++ (a.octets ++ back)) front.length = byteAt (a.octets ++ back) 0 :=
    byteAt_behind front (a.octets ++ back) 0
  rw [formatIPv4, hzero, byteAt_behind, byteAt_behind, byteAt_behind]
  exact formatIPv4_octets h

theorem readUInt32BE_behind32 {value : Nat} (h : value < 4294967296) (front back : Bytes) :
    readUInt32BE (front ++ bytes32 value ++ back) front.length = value := by
  have hword : value / 65536 ≤ 0xffff := by omega
  have hrest : value % 65536 ≤ 0xffff := by omega
  have hhigh := readUInt16BE_bytes hword front (bytes (value % 65536) ++ back)
  have hlow := readUInt16BE_bytes hrest (front ++ bytes (value / 65536)) back
  rw [List.length_append, bytes_length] at hlow
  unfold bytes32
  simp only [List.append_assoc] at hhigh hlow ⊢
  rw [readUInt32BE, hhigh, hlow]
  omega

theorem slice_behind {front field : Bytes} {start stop : Nat} (hstart : front.length = start)
    (hstop : start + field.length = stop) (back : Bytes) :
    slice (front ++ field ++ back) start stop = field := by
  subst hstart hstop
  rw [slice, ← List.length_append, List.take_left, List.drop_left]

theorem dhcpOptions_valid (msgType : Nat) :
    ∀ item ∈ dhcpOptions cfg DNS_SERVER_IP msgType, item.Valid := by
  have hvalid : ∀ (kind : UInt8) (data : Bytes), kind ≠ 0 → kind ≠ 255 → data.length ≤ 4 →
      VendorOptions.Item.Valid ⟨kind, data⟩ :=
    fun _ _ hpad hend hlength => ⟨hpad, hend, hlength.trans (by decide)⟩
  simp only [dhcpOptions, List.forall_mem_cons]
  refine ⟨hvalid 53 _ (by decide) (by decide) (by simp), hvalid 54 _ (by decide) (by decide) le_rfl,
    hvalid 51 _ (by decide) (by decide) le_rfl, hvalid 1 _ (by decide) (by decide) le_rfl,
    hvalid 3 _ (by decide) (by decide) le_rfl, hvalid 6 _ (by decide) (by decide) le_rfl,
    hvalid 26 _ (by decide) (by decide) (by simp), by simp⟩

theorem dhcpOptions_data (msgType : Nat) :
    ∀ item ∈ dhcpOptions cfg DNS_SERVER_IP msgType, item.data ≠ [] := by
  simp [dhcpOptions, Address.octets, bytes32, bytes]

/-- What stands in front of the options, without the magic number. -/
def dhcpHeader (cfg : RelaySettings) (reply : DHCPReply) : Bytes :=
  [2, 1, 6, 0] ++ bytes32 reply.xid ++ bytes 0 ++ bytes 0 ++ List.replicate 4 0 ++
    reply.assignedIP.octets ++ cfg.GATEWAY_IP.octets ++ cfg.GATEWAY_IP.octets ++
    reply.clientMAC ++ List.replicate (208 - reply.clientMAC.length) 0

theorem dhcpHeader_length (hmac : reply.clientMAC.length = 6) :
    (dhcpHeader cfg reply).length = 236 := by
  simp only [dhcpHeader, List.length_append, List.length_replicate, octets_length, bytes32_length,
    bytes_length, hmac, List.length_cons, List.length_nil]

theorem dhcpBuffer_eq (reply : DHCPReply) :
    dhcpBuffer cfg DNS_SERVER_IP reply = dhcpHeader cfg reply ++ bytes32 0x63825363 ++
      VendorOptions.encode (dhcpOptions cfg DNS_SERVER_IP reply.msgType) := rfl

theorem dhcpBuffer_length (hmac : reply.clientMAC.length = 6) :
    (dhcpBuffer cfg DNS_SERVER_IP reply).length = 278 := by
  rw [dhcpBuffer_eq, List.length_append, List.length_append, dhcpHeader_length hmac]
  rfl

theorem drop_dhcpBuffer (hmac : reply.clientMAC.length = 6) :
    (dhcpBuffer cfg DNS_SERVER_IP reply).drop 240 =
      VendorOptions.encode (dhcpOptions cfg DNS_SERVER_IP reply.msgType) := by
  rw [dhcpBuffer_eq]
  refine List.drop_left' ?_
  rw [List.length_append, dhcpHeader_length hmac, bytes32_length]

theorem decode_dhcpBuffer (hmac : reply.clientMAC.length = 6) :
    VendorOptions.decode ((dhcpBuffer cfg DNS_SERVER_IP reply).drop 240) =
      some (dhcpOptions cfg DNS_SERVER_IP reply.msgType) := by
  have hvalid : ∀ item ∈ dhcpOptions cfg DNS_SERVER_IP reply.msgType, item.Valid :=
    dhcpOptions_valid reply.msgType
  have hdecode := VendorOptions.decode_encode hvalid []
  rw [List.append_nil] at hdecode
  rw [drop_dhcpBuffer hmac, hdecode]

/-- The three addresses in the fixed part of a reply. -/
theorem dhcpBuffer_addresses (hip : reply.assignedIP.Canonical) :
    formatIPv4 (dhcpBuffer cfg DNS_SERVER_IP reply) 16 = reply.assignedIP ∧
      formatIPv4 (dhcpBuffer cfg DNS_SERVER_IP reply) 20 = cfg.GATEWAY_IP ∧
      formatIPv4 (dhcpBuffer cfg DNS_SERVER_IP reply) 24 = cfg.GATEWAY_IP := by
  have hgateway := Relay.GATEWAY_IP_canonical cfg
  have hread : ∀ {a : Address} (offset : Nat) (front : Bytes), a.Canonical →
      front.length = offset →
      (∃ back, dhcpBuffer cfg DNS_SERVER_IP reply = front ++ a.octets ++ back) →
      formatIPv4 (dhcpBuffer cfg DNS_SERVER_IP reply) offset = a := by
    rintro a _ front ha rfl ⟨back, heq⟩
    rw [heq]
    exact formatIPv4_behind ha front back
  refine ⟨hread 16 ([2, 1, 6, 0] ++ bytes32 reply.xid ++ bytes 0 ++ bytes 0 ++
      List.replicate 4 0) hip rfl ?_,
    hread 20 ([2, 1, 6, 0] ++ bytes32 reply.xid ++ bytes 0 ++ bytes 0 ++ List.replicate 4 0 ++
      reply.assignedIP.octets) hgateway rfl ?_,
    hread 24 ([2, 1, 6, 0] ++ bytes32 reply.xid ++ bytes 0 ++ bytes 0 ++ List.replicate 4 0 ++
      reply.assignedIP.octets ++ cfg.GATEWAY_IP.octets) hgateway rfl ?_⟩
  all_goals
    simp only [dhcpBuffer, List.append_assoc]
    exact ⟨_, rfl⟩

/-- The relay reads its own replies back, with the transaction and the client
they are for. -/
theorem parseDHCP_dhcpBuffer (hxid : reply.xid < 4294967296) (hmac : reply.clientMAC.length = 6)
    (htype : reply.msgType < 256) :
    parseDHCP (dhcpBuffer cfg DNS_SERVER_IP reply) =
      some ⟨reply.xid, reply.clientMAC, reply.msgType⟩ := by
  have hmagic : readUInt32BE (dhcpBuffer cfg DNS_SERVER_IP reply) 236 = 0x63825363 := by
    have hcookie : 0x63825363 < 4294967296 := by decide
    have hread := readUInt32BE_behind32 hcookie (dhcpHeader cfg reply)
      (VendorOptions.encode (dhcpOptions cfg DNS_SERVER_IP reply.msgType))
    rw [dhcpHeader_length hmac] at hread
    rw [dhcpBuffer_eq]
    exact hread
  have hid : readUInt32BE (dhcpBuffer cfg DNS_SERVER_IP reply) 4 = reply.xid := by
    have hread := readUInt32BE_behind32 hxid [2, 1, 6, 0]
    simp only [dhcpBuffer, List.append_assoc] at hread ⊢
    exact hread _
  have hclient : slice (dhcpBuffer cfg DNS_SERVER_IP reply) 28 34 = reply.clientMAC := by
    have hstop : 28 + reply.clientMAC.length = 34 := by omega
    have hstart : ([2, 1, 6, 0] ++ bytes32 reply.xid ++ bytes 0 ++ bytes 0 ++ List.replicate 4 0 ++
      reply.assignedIP.octets ++ cfg.GATEWAY_IP.octets ++ cfg.GATEWAY_IP.octets).length = 28 := rfl
    have hslice := slice_behind hstart hstop
    simp only [dhcpBuffer, List.append_assoc] at hslice ⊢
    exact hslice _
  have hscan : scanOptions ((dhcpBuffer cfg DNS_SERVER_IP reply).drop 240) 0 0 =
      some reply.msgType := by
    have hdecode : VendorOptions.decode ((dhcpBuffer cfg DNS_SERVER_IP reply).drop 240) =
        some (dhcpOptions cfg DNS_SERVER_IP reply.msgType) := decode_dhcpBuffer hmac
    have hbyte : (UInt8.ofNat reply.msgType).toNat = reply.msgType :=
      UInt8.toNat_ofNat_of_lt' htype
    rw [scanOptions_eq ?_, hdecode]
    · exact congrArg some hbyte
    · rintro items hitems item hmem -
      rw [hdecode] at hitems
      exact dhcpOptions_data reply.msgType item (Option.some.inj hitems ▸ hmem)
  unfold parseDHCP
  rw [dhcpBuffer_length hmac, if_neg (by decide), hmagic, if_neg (by decide), hscan, hid, hclient]

/-- A reply fits into a packet, and every VM reads it, whatever is padded behind
it. -/
theorem sendDHCP_reads {identification : Nat} (hidentification : identification ≤ 0xffff)
    (hxid : reply.xid < 4294967296) (hmac : reply.clientMAC.length = 6)
    (htype : reply.msgType < 256) (hip : reply.assignedIP.Canonical) :
    ∃ packet, sendDHCP cfg DNS_SERVER_IP reply identification = .ok packet ∧
      ∀ padding, ReadsReply cfg DNS_SERVER_IP reply (packet ++ padding) := by
  have hlength : 8 + (dhcpBuffer cfg DNS_SERVER_IP reply).length = 286 := by
    rw [dhcpBuffer_length hmac]
  have hgateway := Relay.GATEWAY_IP_canonical cfg
  have heverybody : Address.Canonical ⟨255, 255, 255, 255⟩ :=
    ⟨by decide, by decide, by decide, by decide⟩
  have hbuild : ∃ packet, sendDHCP cfg DNS_SERVER_IP reply identification = .ok packet := by
    unfold sendDHCP buildIPv4Packet
    dsimp only
    rw [ipv4Bytes_text hgateway, ipv4Bytes_text heverybody,
      if_neg (by simp [dhcpBuffer_length hmac]), if_neg (Nat.not_lt.mpr hidentification)]
    exact ⟨_, rfl⟩
  obtain ⟨packet, hsent⟩ := hbuild
  refine ⟨packet, hsent, fun padding => ⟨?_⟩⟩
  unfold sendDHCP at hsent
  dsimp only at hsent
  obtain ⟨src, dst, hsrc, hdst, hparsed⟩ := parseIPv4Packet_build hsent padding
  obtain ⟨-, src', dst', hsrc', hdst', hpacket⟩ := buildIPv4Packet_ok hsent
  rw [ipv4Bytes_text hgateway] at hsrc hsrc'
  rw [ipv4Bytes_text heverybody] at hdst hdst'
  obtain rfl := Except.ok.inj hsrc
  obtain rfl := Except.ok.inj hsrc'
  obtain rfl := Except.ok.inj hdst
  obtain rfl := Except.ok.inj hdst'
  obtain ⟨hassigned, hserver, hrelay⟩ : formatIPv4 (dhcpBuffer cfg DNS_SERVER_IP reply) 16 = _ ∧
      formatIPv4 (dhcpBuffer cfg DNS_SERVER_IP reply) 20 = _ ∧
      formatIPv4 (dhcpBuffer cfg DNS_SERVER_IP reply) 24 = _ := dhcpBuffer_addresses hip
  refine ⟨_, dhcpBuffer cfg DNS_SERVER_IP reply, hparsed, formatIPv4_octets hgateway,
    formatIPv4_octets heverybody, ?_, rfl, parseDHCP_dhcpBuffer hxid hmac htype, hassigned, hserver,
    hrelay, decode_dhcpBuffer hmac⟩
  exact parseUDPDatagram_segment 0 (by omega) (by decide) (by decide) rfl
    (ipv4Header_length rfl rfl).symm hpacket

/-- The transaction number has four bytes and the hardware address six. -/
theorem parseDHCP_fields {udp : Bytes} {message : DHCPMessage} (h : parseDHCP udp = some message) :
    message.xid < 4294967296 ∧ message.clientMAC.length = 6 := by
  unfold parseDHCP at h
  split at h
  · cases h
  rename_i hlength
  split at h
  · cases h
  split at h
  · cases h
  cases h
  have hhigh := readUInt16BE_le udp 4
  have hlow := readUInt16BE_le udp 6
  refine ⟨?_, ?_⟩
  · change readUInt16BE udp 4 * 65536 + readUInt16BE udp 6 < 4294967296
    omega
  · change (slice udp 28 34).length = 6
    rw [slice, List.length_drop, List.length_take]
    omega

/-- A request leaves the hardware address holding what was allocated, whether or
not the session took it. -/
theorem Directory.leaseOf_request {d : Directory} {id : SessionId} {mac : MAC} {ip : Address}
    {registry : Registry} (halloc : d.registry.allocateIP cfg mac = .ok (ip, registry)) :
    (d.request cfg id mac).registry.leaseOf mac = some ip := by
  have hlease := Registry.allocateIP_leaseOf halloc
  cases hip : d.vmIP id with
  | none =>
      rw [Directory.request_none halloc hip]
      exact hlease
  | some own =>
      rw [Directory.request_some halloc hip]
      exact hlease

namespace Relay

variable {c c' : Relay} {env : Environment} {id : SessionId} {frame : Bytes}
  {message : DHCPMessage} {mac : MAC} {ip : Address}

/-- The lease of `mac` is not given back: no session closes that has used it
last. -/
def KeepsLease (mac : MAC) (c : Relay) : Event → Prop
  | .close id => (c.session id).vmMAC ≠ some mac
  | _ => True

instance (mac : MAC) (c : Relay) : (event : Event) → Decidable (KeepsLease mac c event)
  | .close id => inferInstanceAs (Decidable ((c.session id).vmMAC ≠ some mac))
  | .open | .frame _ _ _ | .proxyDatagram _ _ _ _ _ | .natTimer _ _ _ | .flowEvent _ _ |
    .udpListening _ _ | .udpStopped _ => inferInstanceAs (Decidable True)

/-- A frame that brings a message for a lease, from an open session. -/
structure Asks (cfg : RelaySettings) (c : Relay) (id : SessionId) (frame : Bytes)
    (message : DHCPMessage) : Prop where
  brings : c.dhcpMessage cfg id frame = some message
  discover_or_request : message.msgType = 1 ∨ message.msgType = 3

/-- A DISCOVER is answered by an OFFER, a REQUEST by an ACK, and the VM reads it
off the wire. -/
structure Served (cfg : RelaySettings) (c : Relay) (env : Environment) (id : SessionId)
    (frame : Bytes) (message : DHCPMessage) (ip : Address) : Prop where
  answered : (c.handle cfg (.frame env id frame)).2 =
    [.dhcp id ⟨message.xid, message.clientMAC, if message.msgType = 1 then 2 else 5, ip⟩]
  readable : ∀ DNS_SERVER_IP identification, identification ≤ 0xffff → ∃ packet,
    sendDHCP cfg DNS_SERVER_IP
        ⟨message.xid, message.clientMAC, if message.msgType = 1 then 2 else 5, ip⟩ identification =
      .ok packet ∧
    ∀ padding, ReadsReply cfg DNS_SERVER_IP
      ⟨message.xid, message.clientMAC, if message.msgType = 1 then 2 else 5, ip⟩ (packet ++ padding)

theorem dhcpMessage_datagram (h : c.dhcpMessage cfg id frame = some message) :
    ∃ parsed datagram, c.datagramFrom cfg frame = some (parsed, datagram) ∧
      datagram.dstPort = 67 ∧ get (c.session id).udpProxyNatTable 67 = none ∧
      parseDHCP datagram.payload = some message := by
  unfold dhcpMessage at h
  split at h
  · cases h
  rename_i parsed datagram hdatagram
  split at h
  · rename_i hport
    exact ⟨parsed, datagram, hdatagram, hport.1, hport.2, h⟩
  · cases h

/-- The message of a frame is all that is answered, and an exhausted pool leaves
it unanswered. -/
theorem handle_dhcpMessage (h : c.dhcpMessage cfg id frame = some message) (env : Environment) :
    (c.handle cfg (.frame env id frame)).2 =
      match c.registry.allocateIP cfg message.clientMAC with
      | .error _ => []
      | .ok (ip, _) => answerDHCP id message ip := by
  obtain ⟨parsed, datagram, hdatagram, hport, hnat, hmessage⟩ := dhcpMessage_datagram h
  obtain ⟨hread, hhandle⟩ := handle_datagram hdatagram env id
  have hnone : get ((c.learnMAC id (slice frame 6 12)).session id).udpProxyNatTable
      datagram.dstPort = none := by
    rw [hport, ← hnat]
    simp [learnMAC]
  rw [hhandle]
  unfold handleUDP
  rw [hread]
  dsimp only
  rw [hnone]
  dsimp only
  rw [if_pos hport]
  have hregistry : (c.learnMAC id (slice frame 6 12)).registry = c.registry := rfl
  cases halloc : c.registry.allocateIP cfg message.clientMAC with
  | error text => rw [handleDHCP_error _ id hmessage (hregistry ▸ halloc)]
  | ok outcome => rw [handleDHCP_ok _ id hmessage (hregistry ▸ halloc)]

theorem requestedMAC_dhcpMessage (h : c.dhcpMessage cfg id frame = some message) :
    c.requestedMAC cfg id frame = some message.clientMAC := by
  have harp : isARP frame = false := by
    obtain ⟨parsed, datagram, hdatagram, -⟩ := dhcpMessage_datagram h
    unfold datagramFrom at hdatagram
    split at hdatagram
    · cases hdatagram
    rename_i hguard
    have htype : readUInt16BE frame 12 = 0x0800 := not_not.mp (not_or.mp hguard).2
    simp [isARP, htype]
  simp [requestedMAC, harp, h]

/-- What is answered is leased, to the client of the message. -/
theorem leaseOf_handle {registry : Registry} (h : c.dhcpMessage cfg id frame = some message)
    (halloc : c.directory.registry.allocateIP cfg message.clientMAC = .ok (ip, registry))
    (env : Environment) :
    (c.handle cfg (.frame env id frame)).1.registry.leaseOf message.clientMAC = some ip := by
  change (c.handle cfg (.frame env id frame)).1.directory.registry.leaseOf _ = _
  rw [directory_handle, addressAction, requestedMAC_dhcpMessage h]
  rw [← Directory.learnFrom_registry c.directory id (sourceMAC frame)] at halloc
  exact Directory.leaseOf_request halloc

/-- A lease outlives every event that does not give it back, by induction over
the run. -/
theorem leaseOf_run {events : List Event}
    (hrun : Run (Restrict (Step cfg) (KeepsLease mac)) c events c')
    (hlease : c.registry.leaseOf mac = some ip) : c'.registry.leaseOf mac = some ip := by
  refine hrun.invariant (P := fun c => c.directory.registry.leaseOf mac = some ip) ?_ hlease
  rintro c event c' hlease ⟨hkeeps, -, rfl⟩
  rw [directory_handle]
  refine Directory.leaseOf_apply hlease fun id hclose => ?_
  cases event with
  | close id' =>
      obtain rfl := AddressAction.close.inj hclose
      exact hkeeps
  | _ => cases hclose

theorem canonical_poolAddress {i : Nat} (h : i ≤ 255) : (poolAddress i).Canonical := by
  have hten : 10 ≤ 255 := by decide
  have htwo : 2 ≤ 255 := by decide
  exact ⟨hten, Nat.zero_le _, htwo, h⟩

/-- A client that asks gets the reply that its message calls for, written and
read back. -/
theorem Asks.served {registry : Registry} (h : Asks cfg c id frame message)
    (hreach : Reachable cfg c) (hend : cfg.dhcpEnd ≤ 255)
    (halloc : c.registry.allocateIP cfg message.clientMAC = .ok (ip, registry))
    (env : Environment) : Served cfg c env id frame message ip := by
  obtain ⟨-, datagram, -, -, -, hmessage⟩ := dhcpMessage_datagram h.brings
  obtain ⟨hxid, hmac⟩ := parseDHCP_fields hmessage
  have hip : ip.Canonical := by
    have htables := hreach.wellFormed.tables.allocateIP halloc
    obtain ⟨i, -, hi, -, rfl⟩ := htables.pool _ _ (Registry.allocateIP_leaseOf halloc)
    exact canonical_poolAddress (hi.trans hend)
  have hcode : (if message.msgType = 1 then 2 else 5) < 256 := by
    split <;> decide
  refine ⟨?_, fun DNS_SERVER_IP identification hidentification =>
    sendDHCP_reads hidentification hxid hmac hcode hip⟩
  rw [handle_dhcpMessage h.brings, halloc]
  obtain hdiscover | hrequest := h.discover_or_request
  · simp only [answerDHCP, if_pos hdiscover]
  · have hne : message.msgType ≠ 1 := by omega
    simp only [answerDHCP, if_neg hne, if_pos hrequest]

/-- A client that asks is served unless the pool is used up. The VM reads the
answer, with an address of the pool that is the client's for as long as no
session closes that has used its hardware address last: whatever happens until
then, and on whichever session it asks again, it is served with the same
address, and no other client is. -/
theorem dhcp_exchange (hreach : Reachable cfg c) (hend : cfg.dhcpEnd ≤ 255)
    (h : Asks cfg c id frame message) (env : Environment) :
    ((c.handle cfg (.frame env id frame)).2 = [] ∧ c.registry.leaseOf message.clientMAC = none ∧
      ∀ i, cfg.dhcpStart ≤ i → i ≤ cfg.dhcpEnd →
        i = 2 ∨ ∃ m, c.registry.leaseOf m = some (poolAddress i)) ∨
    ∃ i, cfg.dhcpStart ≤ i ∧ i ≤ cfg.dhcpEnd ∧ i ≠ 2 ∧
      Served cfg c env id frame message (poolAddress i) ∧
      ∀ c₁ events c', Step cfg c (.frame env id frame) c₁ →
        Run (Restrict (Step cfg) (KeepsLease message.clientMAC)) c₁ events c' →
        ∀ env' id' frame' message', Asks cfg c' id' frame' message' →
          (message'.clientMAC = message.clientMAC →
            Served cfg c' env' id' frame' message' (poolAddress i)) ∧
          (message'.clientMAC ≠ message.clientMAC →
            ¬Served cfg c' env' id' frame' message' (poolAddress i)) := by
  have hwf := hreach.wellFormed
  cases halloc : c.registry.allocateIP cfg message.clientMAC with
  | error text =>
      left
      obtain ⟨_, -, heq⟩ | ⟨-, _, -, heq⟩ | ⟨hlease, hfull, -⟩ := Registry.allocateIP_cases halloc
      · cases heq
      · cases heq
      · refine ⟨?_, hlease, fun i hlo hhi =>
          (hwf.tables.used i).mp (Registry.freeOctet_eq_none_iff.mp hfull i hlo hhi)⟩
        rw [handle_dhcpMessage h.brings, halloc]
  | ok outcome =>
      right
      obtain ⟨ip, registry⟩ := outcome
      obtain ⟨i, hlo, hhi, htwo, rfl⟩ :=
        (hwf.tables.allocateIP halloc).pool _ _ (Registry.allocateIP_leaseOf halloc)
      refine ⟨i, hlo, hhi, htwo, h.served hreach hend halloc env, ?_⟩
      intro c₁ events c' hstep hrun env' id' frame' message' hasks
      have hreach' : Reachable cfg c' :=
        (Reaches.tail hreach hstep).trans ⟨events, hrun.unrestrict⟩
      have hlease : c'.registry.leaseOf message.clientMAC = some (poolAddress i) := by
        refine leaseOf_run hrun ?_
        obtain ⟨-, rfl⟩ := hstep
        exact leaseOf_handle h.brings halloc env
      refine ⟨fun hsame => ?_, fun hother hserved => ?_⟩
      · rw [← hsame] at hlease
        exact hasks.served hreach' hend (Registry.allocateIP_of_lease hlease) env'
      · have houtputs := hserved.answered
        rw [handle_dhcpMessage hasks.brings] at houtputs
        cases halloc' : c'.registry.allocateIP cfg message'.clientMAC with
        | error text =>
            rw [halloc'] at houtputs
            cases houtputs
        | ok outcome' =>
            obtain ⟨ip', registry'⟩ := outcome'
            rw [halloc'] at houtputs
            have hip : ip' = poolAddress i := by
              obtain hdiscover | hrequest := hasks.discover_or_request
              · simp only [answerDHCP, if_pos hdiscover] at houtputs
                simpa using houtputs
              · have hne : message'.msgType ≠ 1 := by omega
                simp only [answerDHCP, if_neg hne, if_pos hrequest] at houtputs
                simpa using houtputs
            subst hip
            have htables := hreach'.wellFormed.tables.allocateIP halloc'
            exact hother (htables.injective _ _ _ (Registry.allocateIP_leaseOf halloc')
              (Registry.allocateIP_leaseOf_of_some halloc' hlease))

/-- A VM that has been offered an address asks again behind another session, and
is offered the same one. -/
theorem dhcp_exchange_again : ∃ c : Relay,
    (c.handle {} (.frame {} 1 (exampleDiscover [0x52, 0x54, 0, 0, 0, 2]
        [0x52, 0x54, 0, 0, 0, 1]))).2 =
      [.dhcp 1 ⟨7, [0x52, 0x54, 0, 0, 0, 1], 2, poolAddress 15⟩] := by
  let mac : MAC := [0x52, 0x54, 0, 0, 0, 1]
  let neighbour : MAC := [0x52, 0x54, 0, 0, 0, 2]
  let c : Relay := ({} : Relay).after {} [.open]
  let c₁ : Relay := (c.handle {} (.frame {} 0 (exampleDiscover mac mac))).1
  let events : List Event := [.open, .frame {} 1 (exampleARP neighbour)]
  have hreach : Reachable {} c := ⟨[.open], run_after (by decide +kernel)⟩
  have hasks : Asks {} c 0 (exampleDiscover mac mac) ⟨7, mac, 1⟩ :=
    ⟨by decide +kernel, .inl rfl⟩
  have hpossible : c₁.possible {} events = true := by decide +kernel
  have hrun : Run (Restrict (Step {}) (KeepsLease mac)) c₁ events (c₁.after {} events) :=
    (run_after hpossible).restrict fun event hmem c => by
      simp only [events, List.mem_cons, List.not_mem_nil, or_false] at hmem
      obtain rfl | rfl := hmem <;> exact trivial
  have hagain : Asks {} (c₁.after {} events) 1 (exampleDiscover neighbour mac) ⟨7, mac, 1⟩ :=
    ⟨by decide +kernel, .inl rfl⟩
  refine ⟨c₁.after {} events, ?_⟩
  obtain ⟨hnone, -⟩ | ⟨i, -, -, -, hserved, hlater⟩ := dhcp_exchange hreach (by decide) hasks {}
  · exact absurd hnone (by decide +kernel)
  · have hfirst : (c.handle {} (.frame {} 0 (exampleDiscover mac mac))).2 =
        [.dhcp 0 ⟨7, mac, 2, poolAddress 15⟩] := by
      decide +kernel
    have hi : poolAddress i = poolAddress 15 := by
      have houtputs := hserved.answered.symm.trans hfirst
      simpa using houtputs
    have hagain := (hlater c₁ events _ ⟨by decide +kernel, rfl⟩ hrun {} 1 _ _ hagain).1 rfl
    rw [hi] at hagain
    exact hagain.answered

end Relay

end RootlessRelay
