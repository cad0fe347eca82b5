import RootlessRelay.Net.AddressInvariant
import RootlessRelay.Net.Icmp
import RootlessRelay.Udp.Demux

/-!
# What passes from one VM to another

Sessions meet in `handleIPv4` alone: a packet for the address of another VM, or
a UDP broadcast, is put into a new frame and handed to that VM as it is. Every
other output of a frame is for the session it came from, or leaves the relay.

The statement is about every frame on every reachable relay: what arrives at
another VM is the packet of the frame without its padding, it arrives there
because the packet names that VM's address or the broadcast address, and
VM-to-VM routing is on. The session of another VM is changed in no field of this
model; the counter of bytes that the source keeps for it is left out.
-/

namespace RootlessRelay

open InsertionMap Transition

/-- The session an output is for; a datagram for a client of a forward is for
none. -/
def Output.recipient : Output → Option SessionId
  | .arpReply session _ _ _ _ | .dhcp session _ | .ip session _ | .flow session _ |
    .udpToVM session _ _ _ _ _ | .handleReverseTCP session _ | .handleTCP session _ |
    .handleICMP session _ => some session
  | .client _ _ _ _ => none

/-- The frame `sendIPToVM` makes of a packet: for the hardware address seen
last, or for everybody. -/
def VMSession.sendIPToVM (s : VMSession) (ipPacket : Bytes) : Bytes :=
  s.vmMAC.getD (List.replicate 6 0xff) ++ (GATEWAY_MAC ++ [0x08, 0x00] ++ ipPacket)

/-- A packet is read back as it was parsed, without what stood behind it. -/
theorem parseIPv4Packet_packet {raw : Bytes} {parsed : ParsedIPv4}
    (h : parseIPv4Packet raw = some parsed) : parseIPv4Packet parsed.packet = some parsed := by
  obtain ⟨hpacket, hlength, -, hmin, hmax⟩ := parseIPv4Packet_inside h
  obtain ⟨hsrc, hdst, -⟩ := parseIPv4Packet_fields h
  have hbyte : ∀ i < parsed.totalLength, byteAt parsed.packet i = byteAt raw i := fun i hi => by
    rw [hpacket]
    exact byteAt_eq_of_getElem? (List.getElem?_take_of_lt hi)
  have haddress : ∀ i, i + 3 < parsed.totalLength →
      formatIPv4 parsed.packet i = formatIPv4 raw i := fun i hi => by
    rw [formatIPv4, formatIPv4, hbyte i (by omega), hbyte (i + 1) (by omega),
      hbyte (i + 2) (by omega), hbyte (i + 3) hi]
  rw [parseIPv4Packet_front h hlength fun i hi => hbyte i (by omega), haddress 12 (by omega),
    haddress 16 (by omega), ← hsrc, ← hdst]

namespace Relay

variable {cfg : RelaySettings} {c c' : Relay} {env : Environment} {id target : SessionId}
  {output : Output} {frame : Bytes} {parsed : ParsedIPv4}

/-- The frame for `target` that a packet from another VM is put into: the packet
as the VM's own parser would read it, for the hardware address the target has
used last. -/
structure Carries (c : Relay) (target : SessionId) (parsed : ParsedIPv4) (frame : Bytes) :
    Prop where
  destination : ∀ mac, (c.session target).vmMAC = some mac → slice frame 0 6 = mac
  source : slice frame 6 12 = GATEWAY_MAC
  etherType : readUInt16BE frame 12 = 0x0800
  payload : frame.drop 14 = parsed.packet
  parsed : parseIPv4Packet parsed.packet = some parsed

/-- An output crosses from one session to another: the packet of an IPv4 frame,
whole and unchanged, on its way to the VM it is addressed to, or a UDP broadcast
of a VM on its way to an open session with another address than its source. -/
structure Crosses (cfg : RelaySettings) (c : Relay) (frame : Bytes) (target : SessionId)
    (output : Output) : Prop where
  enabled : cfg.enableVmToVm = true
  packet : ∃ parsed, parseIPv4Packet (frame.drop 14) = some parsed ∧
    output = .ip target parsed.packet ∧
    Carries c target parsed ((c.session target).sendIPToVM parsed.packet) ∧
    ((c.session target).vmIP = some parsed.dstIP ∧ parsed.dstIP ≠ cfg.GATEWAY_IP ∨
      parsed.dstIP = BROADCAST_IP ∧ parsed.protocol = 17 ∧ target ∈ c.activeSessions ∧
        ∃ own, (c.session target).vmIP = some own ∧ own ≠ parsed.srcIP)

/-- A frame touches no session but its own, what it makes of other sessions' VMs
crosses, and what is addressed to another VM does. -/
structure Confined (cfg : RelaySettings) (c : Relay) (id : SessionId) (frame : Bytes)
    (c' : Relay) (outputs : List Output) : Prop where
  others : ∀ t, t ≠ id → c'.session t = c.session t
  crossing : ∀ output ∈ outputs, ∀ target, output.recipient = some target → target ≠ id →
    Crosses cfg c frame target output
  delivered : ∀ parsed target, 14 ≤ frame.length → readUInt16BE frame 12 = 0x0800 →
    parseIPv4Packet (frame.drop 14) = some parsed →
    c.registry.routeOf parsed.dstIP = some target → cfg.enableVmToVm = true →
    inSubnet parsed.dstIP = true → parsed.dstIP ≠ cfg.GATEWAY_IP → parsed.dstIP ≠ BROADCAST_IP →
      outputs = [.ip target parsed.packet]

/-- The frame for another VM carries the packet of the first one, byte for byte. -/
theorem carries_sendIPToVM (h : parseIPv4Packet frame = some parsed)
    (hmac : ∀ mac, (c.session target).vmMAC = some mac → mac.length = 6) :
    Carries c target parsed ((c.session target).sendIPToVM parsed.packet) := by
  have hsix : ((c.session target).vmMAC.getD (List.replicate 6 0xff)).length = 6 := by
    cases hlearnt : (c.session target).vmMAC with
    | none => rfl
    | some mac => exact hmac mac hlearnt
  unfold VMSession.sendIPToVM
  generalize hdst : (c.session target).vmMAC.getD (List.replicate 6 0xff) = dst at hsix ⊢
  have htail : (dst ++ (GATEWAY_MAC ++ [0x08, 0x00] ++ parsed.packet)).drop 6 =
      GATEWAY_MAC ++ [0x08, 0x00] ++ parsed.packet := by
    rw [← hsix, List.drop_left]
  have hbyte : ∀ n, byteAt (dst ++ (GATEWAY_MAC ++ [0x08, 0x00] ++ parsed.packet)) (6 + n) =
      byteAt (GATEWAY_MAC ++ [0x08, 0x00] ++ parsed.packet) n := fun n => by
    have hget := congrArg (·[n]?) htail
    rw [List.getElem?_drop] at hget
    rw [byteAt, byteAt, List.getD_eq_getElem?_getD, List.getD_eq_getElem?_getD, hget]
  refine ⟨fun mac hlearnt => ?_, ?_, ?_, ?_, parseIPv4Packet_packet h⟩
  · rw [hlearnt, Option.getD_some] at hdst
    rw [slice, List.take_append_of_le_length (Nat.le_of_eq hsix.symm), List.drop_zero,
      List.take_of_length_le (Nat.le_of_eq hsix), hdst]
  · rw [slice, List.drop_take, htail, List.append_assoc]
    exact List.take_left' rfl
  · have hhigh : byteAt (dst ++ (GATEWAY_MAC ++ [0x08, 0x00] ++ parsed.packet)) 12 = 8 := hbyte 6
    have hlow : byteAt (dst ++ (GATEWAY_MAC ++ [0x08, 0x00] ++ parsed.packet)) 13 = 0 := hbyte 7
    simp only [readUInt16BE, hhigh, hlow]
  · have hrest := congrArg (List.drop 8) htail
    rw [List.drop_drop] at hrest
    exact hrest

theorem sourceMAC_length {mac : MAC} (h : sourceMAC frame = some mac) : mac.length = 6 := by
  unfold sourceMAC at h
  split at h
  · cases h
  · cases h
    rw [slice, List.length_drop, List.length_take]
    omega

/-- Hardware addresses come from frames, so they have six bytes. -/
theorem Reachable.macLength (h : Reachable cfg c) :
    ∀ s mac, (c.session s).vmMAC = some mac → mac.length = 6 := by
  have reach : Reaches (Step cfg) {} c := h
  refine reach.invariant (P := fun c => ∀ s mac, c.directory.vmMAC s = some mac → mac.length = 6)
    ?_ nofun
  rintro c event c' hlengths ⟨-, rfl⟩ s mac hmac
  rw [directory_handle] at hmac
  have hsame : ∀ {id : SessionId} {srcMAC : Option MAC},
      (∀ mac, srcMAC = some mac → mac.length = 6) →
      (c.directory.learnFrom id srcMAC).vmMAC s = some mac → mac.length = 6 := by
    intro id srcMAC hsrc hlearnt
    cases srcMAC with
    | none => exact hlengths s mac hlearnt
    | some own =>
        change Function.update c.directory.vmMAC id (some own) s = some mac at hlearnt
        rw [Function.update_apply] at hlearnt
        split at hlearnt
        · exact hsrc mac hlearnt
        · exact hlengths s mac hlearnt
  cases event with
  | «open» =>
      change Function.update c.directory.vmMAC c.directory.nextSession none s = some mac at hmac
      rw [Function.update_apply] at hmac
      split at hmac
      · cases hmac
      · exact hlengths s mac hmac
  | frame env id data =>
      obtain he | ⟨-, -, registry, -, -, -, -, he⟩ | ⟨-, ip, registry, -, -, -, he⟩ :=
        Directory.apply_frame_cases cfg c.directory id (sourceMAC data)
          (c.requestedMAC cfg id data)
      all_goals
        change (c.directory.apply cfg (.frame id (sourceMAC data) _)).vmMAC s = some mac at hmac
        rw [he] at hmac
        exact hsame (fun mac hsource => sourceMAC_length hsource) hmac
  | _ => exact hlengths s mac hmac

theorem session_setSession_other {t : SessionId} (h : t ≠ id) (c : Relay) (s : VMSession) :
    (c.setSession id s).session t = c.session t := by
  rw [session_setSession, if_neg h]

/-- ARP leaves the other sessions as they are. -/
theorem session_handleARP_other {t : SessionId} (h : t ≠ id) (c : Relay) (arpPacket : Bytes) :
    (c.handleARP cfg id arpPacket).1.session t = c.session t := by
  unfold handleARP assignByMAC
  split
  · rfl
  · split
    · rfl
    · rename_i hassign
      split at hassign
      · split at hassign
        · cases hassign
        · cases hassign
          exact session_setSession_other h _ _
      · cases hassign
        rfl

/-- DHCP leaves the other sessions as they are. -/
theorem session_handleDHCP_other {t : SessionId} (h : t ≠ id) (c : Relay) (udp : Bytes) :
    (c.handleDHCP cfg id udp).1.session t = c.session t := by
  unfold handleDHCP assignByClient
  split
  · rfl
  · split
    · rfl
    · rename_i hassign
      split at hassign
      · cases hassign
      · dsimp only at hassign
        split at hassign
        · cases hassign
          exact session_setSession_other h _ _
        · cases hassign
          rfl

/-- UDP leaves the other sessions as they are. -/
theorem session_handleUDP_other {t : SessionId} (h : t ≠ id) (c : Relay) (parsed : ParsedIPv4) :
    (c.handleUDP cfg env id parsed).1.session t = c.session t := by
  unfold handleUDP
  split
  · rfl
  · dsimp only
    split
    · split <;> rfl
    · split
      · exact session_handleDHCP_other h c _
      · split
        · split
          · rfl
          · exact session_setSession_other h _ _
        · exact session_setSession_other h _ _

/-- A frame leaves every session but its own as it is. -/
theorem session_frame_other {t : SessionId} (h : t ≠ id) (c : Relay) :
    (c.handleEthernetFrame cfg env id frame).1.session t = c.session t := by
  have hlearnt : (c.learnMAC id (slice frame 6 12)).session t = c.session t :=
    session_setSession_other h _ _
  unfold handleEthernetFrame
  split
  · rfl
  dsimp only
  split
  · exact (session_handleARP_other h _ _).trans hlearnt
  split
  · refine Eq.trans ?_ hlearnt
    cases hparsed : parseIPv4Packet (frame.drop 14) with
    | none =>
        unfold handleIPv4
        rw [hparsed]
    | some parsed =>
        by_cases hudp : (c.learnMAC id (slice frame 6 12)).reachesUDP cfg parsed
        · rw [handleIPv4_udp hparsed hudp]
          exact session_handleUDP_other h _ _
        · rw [(handleIPv4_other hparsed hudp).1]
  · exact hlearnt

/-- The outputs of the ARP, DHCP and UDP handlers are for the session of the
frame. This lemma is about the first of them. -/
theorem recipient_handleARP (c : Relay) (arpPacket : Bytes)
    (h : output ∈ (c.handleARP cfg id arpPacket).2) (ht : output.recipient = some target) :
    target = id := by
  unfold handleARP at h
  split at h
  · cases h
  split at h
  · cases h
  dsimp only [answerARP] at h
  split at h
  · rw [List.mem_singleton] at h
    subst h
    exact (Option.some.inj ht).symm
  split at h
  · split at h
    · split at h
      · cases h
      · split at h
        · cases h
        · rw [List.mem_singleton] at h
          subst h
          exact (Option.some.inj ht).symm
    · cases h
  · cases h

/-- A DHCP reply goes to the session that asked. -/
theorem recipient_handleDHCP (c : Relay) (udp : Bytes)
    (h : output ∈ (c.handleDHCP cfg id udp).2) (ht : output.recipient = some target) :
    target = id := by
  unfold handleDHCP answerDHCP at h
  split at h
  · cases h
  split at h
  · cases h
  dsimp only at h
  split at h
  · rw [List.mem_singleton] at h
    subst h
    exact (Option.some.inj ht).symm
  split at h
  · rw [List.mem_singleton] at h
    subst h
    exact (Option.some.inj ht).symm
  · cases h

/-- What a UDP packet makes the relay send to a VM goes to the one that sent it. -/
theorem recipient_handleUDP (c : Relay) (parsed : ParsedIPv4)
    (h : output ∈ (c.handleUDP cfg env id parsed).2) (ht : output.recipient = some target) :
    target = id := by
  have hflow : ∀ {effects : List FlowEffect}, output ∈ effects.map (Output.flow id) →
      target = id := fun hmem => by
    obtain ⟨effect, -, rfl⟩ := List.mem_map.mp hmem
    exact (Option.some.inj ht).symm
  unfold handleUDP at h
  split at h
  · cases h
  dsimp only at h
  split at h
  · split at h
    · rw [List.mem_singleton] at h
      subst h
      cases ht
    · cases h
  split at h
  · exact recipient_handleDHCP c _ h ht
  split at h
  · split at h
    · cases h
    · exact hflow h
  · exact hflow h

/-- What `handleIPv4` makes for another session: the packet, along one of two
branches. -/
theorem handleIPv4_crosses (hwf : c.directory.WellFormed cfg) {ipPacket : Bytes}
    (h : output ∈ (c.handleIPv4 cfg env id ipPacket).2) (ht : output.recipient = some target)
    (hother : target ≠ id) :
    cfg.enableVmToVm = true ∧ ∃ parsed, parseIPv4Packet ipPacket = some parsed ∧
      output = .ip target parsed.packet ∧
      ((c.session target).vmIP = some parsed.dstIP ∧ parsed.dstIP ≠ cfg.GATEWAY_IP ∨
        parsed.dstIP = BROADCAST_IP ∧ parsed.protocol = 17 ∧ target ∈ c.activeSessions ∧
          ∃ own, (c.session target).vmIP = some own ∧ own ≠ parsed.srcIP) := by
  have hown : ∀ {own : Output}, output = own → own.recipient = some id → False := by
    rintro own rfl hrecipient
    exact hother (Option.some.inj (ht.symm.trans hrecipient))
  have hone : ∀ {own : Output}, output ∈ [own] → own.recipient = some id → False :=
    fun hmem => hown (List.mem_singleton.mp hmem)
  cases hparsed : parseIPv4Packet ipPacket with
  | none =>
      unfold handleIPv4 at h
      rw [hparsed] at h
      cases h
  | some parsed =>
      by_cases hudp : c.reachesUDP cfg parsed
      · rw [handleIPv4_udp hparsed hudp] at h
        exact absurd (recipient_handleUDP c parsed h ht) hother
      unfold handleIPv4 at h
      rw [hparsed] at h
      dsimp only at h
      split at h
      · split at h
        · cases h
        · exact (hone h rfl).elim
      split at h
      · rename_i hbroadcast
        refine ⟨hbroadcast.1, parsed, rfl, ?_⟩
        obtain ⟨session, hactive, hsome⟩ := List.mem_filterMap.mp h
        split at hsome
        · cases hsome
        rename_i own hip
        split at hsome
        · cases hsome
        rename_i hne
        cases hsome
        obtain rfl := Option.some.inj ht
        exact ⟨rfl, .inr ⟨hbroadcast.2.1, hbroadcast.2.2, hactive, own, hip, hne⟩⟩
      split at h
      · rename_i route hroute
        unfold vmTarget at hroute
        split at hroute
        · rename_i hrouted
          obtain rfl := List.mem_singleton.mp h
          obtain rfl := Option.some.inj ht
          exact ⟨hrouted.1, parsed, rfl, rfl,
            .inl ⟨hwf.routes _ _ hroute, hrouted.2.2.1⟩⟩
        · cases hroute
      split at h
      · cases h
      split at h
      · exact (hone h rfl).elim
      split at h
      · exact absurd (recipient_handleUDP c parsed h ht) hother
      split at h
      · exact (hone h rfl).elim
      · cases h

theorem handleIPv4_delivers (hparsed : parseIPv4Packet frame = some parsed)
    (hroute : c.registry.routeOf parsed.dstIP = some target) (henabled : cfg.enableVmToVm = true)
    (hsubnet : inSubnet parsed.dstIP = true) (hgateway : parsed.dstIP ≠ cfg.GATEWAY_IP)
    (hbroadcast : parsed.dstIP ≠ BROADCAST_IP) :
    (c.handleIPv4 cfg env id frame).2 = [.ip target parsed.packet] := by
  have htarget : c.vmTarget cfg parsed.dstIP = some target := by
    rw [vmTarget, if_pos ⟨henabled, hsubnet, hgateway, hbroadcast⟩, hroute]
  unfold handleIPv4
  rw [hparsed]
  dsimp only
  rw [if_neg fun htcp => hgateway htcp.2, if_neg fun hall => hbroadcast hall.2.1, htarget]

/-- In every reachable relay a frame is confined to its own session, but for
what crosses: with VM-to-VM routing switched off nothing does. -/
theorem frame_confined (h : Reachable cfg c) (env : Environment) (id : SessionId)
    (frame : Bytes) :
    Confined cfg c id frame (c.handle cfg (.frame env id frame)).1
      (c.handle cfg (.frame env id frame)).2 := by
  have hlearnt : ∀ {t}, t ≠ id → (c.learnMAC id (slice frame 6 12)).session t = c.session t :=
    fun hne => session_setSession_other hne _ _
  refine ⟨fun t hne => session_frame_other hne c, fun output hmem target ht hother => ?_, ?_⟩
  · change output ∈ (c.handleEthernetFrame cfg env id frame).2 at hmem
    unfold handleEthernetFrame at hmem
    split at hmem
    · cases hmem
    dsimp only at hmem
    split at hmem
    · exact absurd (recipient_handleARP _ _ hmem ht) hother
    split at hmem
    · have hwf : (c.learnMAC id (slice frame 6 12)).directory.WellFormed cfg := by
        rw [directory_learnMAC]
        exact h.wellFormed.learnFrom id (some (slice frame 6 12))
      obtain ⟨henabled, parsed, hparsed, houtput, hreason⟩ :=
        handleIPv4_crosses hwf hmem ht hother
      rw [hlearnt hother] at hreason
      exact ⟨henabled, parsed, hparsed, houtput,
        carries_sendIPToVM hparsed (h.macLength target), hreason⟩
    · cases hmem
  · intro parsed target hlength htype hparsed hroute henabled hsubnet hgateway hbroadcast
    change (c.handleEthernetFrame cfg env id frame).2 = _
    unfold handleEthernetFrame
    rw [if_neg (Nat.not_lt.mpr hlength)]
    dsimp only
    rw [if_neg (by rw [htype]; decide), if_pos htype]
    exact handleIPv4_delivers hparsed hroute henabled hsubnet hgateway hbroadcast

/-- Two VMs with an address each, both learnt from an ARP request. -/
def exampleNeighbours : List Event :=
  [.open, .frame {} 0 (exampleARP [0x52, 0x54, 0, 0, 0, 1]), .open,
    .frame {} 1 (exampleARP [0x52, 0x54, 0, 0, 0, 2])]

/-- A datagram from 10.0.2.15 to 10.0.2.16, and two bytes of padding. -/
def exampleNeighbourFrame : Bytes :=
  [0x52, 0x54, 0, 0, 0, 2, 0x52, 0x54, 0, 0, 0, 1, 0x08, 0x00] ++
    exampleDatagram [10, 0, 2, 16] 7 ++ [0, 0]

theorem frame_confined_neighbour : ∃ c : Relay,
    (c.handle {} (.frame {} 0 exampleNeighbourFrame)).2 =
        [.ip 1 (exampleDatagram [10, 0, 2, 16] 7)] ∧
      slice ((c.session 1).sendIPToVM (exampleDatagram [10, 0, 2, 16] 7)) 0 6 =
        [0x52, 0x54, 0, 0, 0, 2] := by
  let c : Relay := ({} : Relay).after {} exampleNeighbours
  have hreach : Reachable {} c := ⟨exampleNeighbours, run_after (by decide +kernel)⟩
  have hconfined := frame_confined hreach {} 0 exampleNeighbourFrame
  have houtputs := hconfined.delivered ⟨exampleDatagram [10, 0, 2, 16] 7, 20, 30, 17,
    poolAddress 15, poolAddress 16, false, 0⟩ 1 (by decide) (by decide) (by decide +kernel)
    (by decide +kernel) rfl rfl (by decide) (by decide)
  refine ⟨c, houtputs, ?_⟩
  obtain ⟨-, parsed, -, houtput, hcarries, -⟩ := hconfined.crossing _
    (houtputs ▸ List.mem_singleton_self _) 1 rfl (by decide)
  have hpacket : exampleDatagram [10, 0, 2, 16] 7 = parsed.packet := (Output.ip.inj houtput).2
  rw [hpacket]
  exact hcarries.destination _ (by decide +kernel)

end Relay

end RootlessRelay
