import RootlessRelay.Net.Relay

/-!
# Who has which address

The directory is the part of the relay's state that frames, opens and closes use
to hand out addresses: the registry, and for each session its address, the
hardware address it was seen with last, and whether it is open. Every event of
the relay acts on it in one of four ways (`AddressAction`); all else the relay
does leaves it alone.

This is the abstract model for everything that is proved about addresses, and
`directory_handle` is the simulation that connects it to the relay: the
directory after an event is the directory before it under the event's address
action. The invariants of the modules behind this one are proved over actions,
of which there are four, and not over handlers.
-/

namespace RootlessRelay

open InsertionMap

/-- Who has which address: the registry, and what of each session has to do with
it. -/
@[ext] structure Directory where
  vmIP : SessionId → Option Address
  vmMAC : SessionId → Option MAC
  activeSessions : List SessionId
  nextSession : SessionId
  registry : Registry

/-- What an event means for the directory. A frame brings the hardware address
it was sent from, and the one an address is asked for, if it asks for any. -/
inductive AddressAction
  | idle
  | connect
  | frame (id : SessionId) (srcMAC requested : Option MAC)
  | close (id : SessionId)

namespace Directory

variable (cfg : RelaySettings)

/-- A frame of the session has been seen with this hardware address. -/
def learn (d : Directory) (id : SessionId) (mac : MAC) : Directory :=
  { d with vmMAC := Function.update d.vmMAC id (some mac) }

/-- The session gets an address, and the route for it. -/
def assign (d : Directory) (id : SessionId) (ip : Address) : Directory :=
  { d with
    vmIP := Function.update d.vmIP id (some ip)
    registry := d.registry.register ip id }

/-- An address is looked up or allocated for `mac`; a session without one takes
it. If the pool is exhausted, nothing happens. -/
def request (d : Directory) (id : SessionId) (mac : MAC) : Directory :=
  match d.registry.allocateIP cfg mac with
  | .error _ => d
  | .ok (ip, registry) =>
      let d := { d with registry := registry }
      match d.vmIP id with
      | none => d.assign id ip
      | some _ => d

/-- A session opens, without an address. -/
def connect (d : Directory) : Directory :=
  { d with
    vmIP := Function.update d.vmIP d.nextSession none
    vmMAC := Function.update d.vmMAC d.nextSession none
    activeSessions := d.activeSessions ++ [d.nextSession]
    nextSession := d.nextSession + 1 }

/-- The address `close` gives back: the one leased to the hardware address seen
last, whether or not it is the session's. -/
def released (d : Directory) (id : SessionId) : Option Address :=
  match d.vmMAC id with
  | none => none
  | some mac => d.registry.leaseOf mac

/-- A session closes and gives back a lease. -/
def close (d : Directory) (id : SessionId) : Directory :=
  { d with
    registry :=
      match d.vmMAC id with
      | none => d.registry
      | some mac => d.registry.releaseIP mac
    activeSessions := d.activeSessions.filter (· ≠ id) }

theorem close_registry_none {d : Directory} {id : SessionId} (h : d.vmMAC id = none) :
    (d.close id).registry = d.registry := by
  unfold close
  rw [h]

theorem close_registry_some {d : Directory} {id : SessionId} {mac : MAC}
    (h : d.vmMAC id = some mac) : (d.close id).registry = d.registry.releaseIP mac := by
  unfold close
  rw [h]

/-- A frame with a source address is learnt from; one that is too short is not. -/
def learnFrom (d : Directory) (id : SessionId) : Option MAC → Directory
  | none => d
  | some mac => d.learn id mac

/-- A frame may ask for an address, for its own hardware address or for another. -/
def requestFor (d : Directory) (id : SessionId) : Option MAC → Directory
  | none => d
  | some mac => d.request cfg id mac

/-- The effect of an action: a frame is learnt from before it is served. -/
def apply (d : Directory) : AddressAction → Directory
  | .idle => d
  | .connect => d.connect
  | .frame id srcMAC requested => (d.learnFrom id srcMAC).requestFor cfg id requested
  | .close id => d.close id

variable {cfg} {d : Directory} {id : SessionId} {mac : MAC} {ip : Address} {registry : Registry}
  {message : String}

theorem request_error (h : d.registry.allocateIP cfg mac = .error message) :
    d.request cfg id mac = d := by
  unfold request
  rw [h]

theorem request_none (h : d.registry.allocateIP cfg mac = .ok (ip, registry))
    (hip : d.vmIP id = none) :
    d.request cfg id mac = { d with registry := registry }.assign id ip := by
  unfold request
  rw [h]
  dsimp only
  rw [hip]

theorem request_some {own : Address} (h : d.registry.allocateIP cfg mac = .ok (ip, registry))
    (hip : d.vmIP id = some own) :
    d.request cfg id mac = { d with registry := registry } := by
  unfold request
  rw [h]
  dsimp only
  rw [hip]

end Directory

namespace Relay

variable (cfg : RelaySettings)

/-- The directory of a relay: the abstraction function of the simulation. -/
def directory (c : Relay) : Directory where
  vmIP id := (c.session id).vmIP
  vmMAC id := (c.session id).vmMAC
  activeSessions := c.activeSessions
  nextSession := c.nextSession
  registry := c.registry

/-- The source of an Ethernet frame; a frame too short for a header has none. -/
def sourceMAC (frame : Bytes) : Option MAC :=
  if frame.length < 14 then none else some (slice frame 6 12)

/-- The frame carries an ARP packet of full length. -/
def isARP (frame : Bytes) : Bool :=
  14 ≤ frame.length ∧ readUInt16BE frame 12 = 0x0806 ∧ 28 ≤ (frame.drop 14).length

/-- The packets `handleIPv4` hands to `handleUDP`: neither broadcast nor routed
to a VM, and not a fragment. This is the source's order of tests in one
condition. -/
def reachesUDP (c : Relay) (parsed : ParsedIPv4) : Prop :=
  parsed.protocol = 17 ∧ ¬(cfg.enableVmToVm ∧ parsed.dstIP = BROADCAST_IP) ∧
    c.vmTarget cfg parsed.dstIP = none ∧ parsed.moreFragments = false ∧ parsed.fragmentOffset = 0

instance (c : Relay) (parsed : ParsedIPv4) : Decidable (c.reachesUDP cfg parsed) :=
  inferInstanceAs (Decidable (_ ∧ _ ∧ _ ∧ _ ∧ _))

/-- The UDP datagram a frame brings to `handleUDP`, parsed as the relay parses
it. -/
def datagramFrom (c : Relay) (frame : Bytes) : Option (ParsedIPv4 × UDPDatagram) :=
  if frame.length < 14 ∨ readUInt16BE frame 12 ≠ 0x0800 then none
  else
    match parseIPv4Packet (frame.drop 14) with
    | none => none
    | some parsed =>
        if c.reachesUDP cfg parsed then (parseUDPDatagram parsed).map (parsed, ·) else none

/-- The DHCP message a frame of session `id` brings to `handleDHCP`. A NAT entry
for port 67 would take it first. -/
def dhcpMessage (c : Relay) (id : SessionId) (frame : Bytes) : Option DHCPMessage :=
  match c.datagramFrom cfg frame with
  | none => none
  | some (_, datagram) =>
      if datagram.dstPort = 67 ∧ get (c.session id).udpProxyNatTable 67 = none then
        parseDHCP datagram.payload
      else none

/-- The hardware address a frame makes the relay find an address for: the source
of an ARP packet, while the session has no address, and the client of a DHCP
message. -/
def requestedMAC (c : Relay) (id : SessionId) (frame : Bytes) : Option MAC :=
  if isARP frame then
    match (c.session id).vmIP with
    | none => sourceMAC frame
    | some _ => none
  else (c.dhcpMessage cfg id frame).map DHCPMessage.clientMAC

/-- The address action of an event, read off the event and the tables before it. -/
def addressAction (c : Relay) : Event → AddressAction
  | .open => .connect
  | .frame _ id data => .frame id (sourceMAC data) (c.requestedMAC cfg id data)
  | .close id => .close id
  | _ => .idle

variable {cfg} {c : Relay} {env : Environment} {id : SessionId}

@[simp] theorem session_setSession (c : Relay) (id t : SessionId) (s : VMSession) :
    (c.setSession id s).session t = if t = id then s else c.session t := by
  simp [session, setSession, Function.update_apply]

/-- Replacing a session by one with the same addresses changes nothing here,
whatever else has changed in it. -/
theorem directory_setSession (c : Relay) (id : SessionId) (s : VMSession)
    (hip : s.vmIP = (c.session id).vmIP) (hmac : s.vmMAC = (c.session id).vmMAC) :
    (c.setSession id s).directory = c.directory := by
  unfold directory
  congr 1
  · funext t
    rw [session_setSession]
    split
    · rename_i ht
      rw [ht, hip]
    · rfl
  · funext t
    rw [session_setSession]
    split
    · rename_i ht
      rw [ht, hmac]
    · rfl

theorem directory_learnMAC (c : Relay) (id : SessionId) (mac : MAC) :
    (c.learnMAC id mac).directory = c.directory.learn id mac := by
  unfold directory learnMAC Directory.learn
  congr 1
  · funext t
    rw [session_setSession]
    split
    · rename_i ht
      rw [ht]
    · rfl
  · funext t
    rw [session_setSession, Function.update_apply]
    split <;> rfl

/-- Assigning an address is an action of the directory. -/
theorem directory_assign (c : Relay) (id : SessionId) (ip : Address) :
    (c.assign id ip).directory = c.directory.assign id ip := by
  unfold directory assign Directory.assign
  congr 1
  · funext t
    change ((c.setSession id _).session t).vmIP = _
    rw [session_setSession, Function.update_apply]
    split <;> rfl
  · funext t
    change ((c.setSession id _).session t).vmMAC = _
    rw [session_setSession]
    split
    · rename_i ht
      rw [ht]
    · rfl

theorem directory_sendFlow (c : Relay) (id : SessionId) (payload : Bytes) (flowInfo : FlowInfo) :
    (c.sendFlow cfg env id payload flowInfo).1.directory = c.directory :=
  directory_setSession c id _ rfl rfl

/-- `handleARP` asks for an address exactly if its session has none; a session
that has one is answered only. -/
theorem directory_handleARP (c : Relay) (id : SessionId) {mac : MAC} (arpPacket : Bytes)
    (hlen : 28 ≤ arpPacket.length) (hmac : (c.session id).vmMAC = some mac) :
    (c.handleARP cfg id arpPacket).1.directory =
      match (c.session id).vmIP with
      | none => c.directory.request cfg id mac
      | some _ => c.directory := by
  unfold handleARP assignByMAC
  rw [if_neg (by omega), hmac]
  cases hip : (c.session id).vmIP with
  | some ip => rfl
  | none =>
      dsimp only
      cases halloc : c.registry.allocateIP cfg mac with
      | error message => exact (Directory.request_error halloc).symm
      | ok outcome =>
          obtain ⟨ip, registry⟩ := outcome
          rw [Directory.request_none (d := c.directory) halloc hip]
          exact directory_assign { c with registry := registry } id ip

/-- Asking the registry for an address first is one as well. -/
theorem directory_assignByClient {c' : Relay} {ip : Address} {mac : MAC}
    (h : c.assignByClient cfg id mac = .ok (ip, c')) :
    c'.directory = c.directory.request cfg id mac := by
  unfold assignByClient at h
  cases halloc : c.registry.allocateIP cfg mac with
  | error message =>
      rw [halloc] at h
      cases h
  | ok outcome =>
      obtain ⟨assigned, registry⟩ := outcome
      rw [halloc] at h
      dsimp only at h
      split at h
      · rename_i hip
        cases h
        rw [Directory.request_none (d := c.directory) halloc hip]
        exact directory_assign { c with registry := registry } id _
      · rename_i own hip
        cases h
        exact (Directory.request_some (d := c.directory) halloc hip).symm

theorem assignByClient_error {mac : MAC} {message : String}
    (h : c.assignByClient cfg id mac = .error message) :
    c.registry.allocateIP cfg mac = .error message := by
  unfold assignByClient at h
  cases halloc : c.registry.allocateIP cfg mac with
  | error text =>
      rw [halloc] at h
      cases h
      rfl
  | ok outcome =>
      obtain ⟨assigned, registry⟩ := outcome
      rw [halloc] at h
      dsimp only at h
      split at h <;> cases h

/-- `handleDHCP` asks for an address for the client of a message it can read.
The client need not be the sender of the frame. -/
theorem directory_handleDHCP (c : Relay) (id : SessionId) (udp : Bytes) :
    (c.handleDHCP cfg id udp).1.directory =
      c.directory.requestFor cfg id ((parseDHCP udp).map DHCPMessage.clientMAC) := by
  unfold handleDHCP
  cases parseDHCP udp with
  | none => rfl
  | some message =>
      change _ = c.directory.request cfg id message.clientMAC
      dsimp only
      cases hassign : c.assignByClient cfg id message.clientMAC with
      | error text =>
          exact (Directory.request_error (d := c.directory) (assignByClient_error hassign)).symm
      | ok outcome => exact directory_assignByClient hassign

/-- A UDP packet touches the directory only as a DHCP message. -/
theorem directory_handleUDP (c : Relay) (id : SessionId) (parsed : ParsedIPv4) :
    (c.handleUDP cfg env id parsed).1.directory =
      c.directory.requestFor cfg id
        (match parseUDPDatagram parsed with
        | none => none
        | some datagram =>
            if datagram.dstPort = 67 ∧ get (c.session id).udpProxyNatTable 67 = none then
              (parseDHCP datagram.payload).map DHCPMessage.clientMAC
            else none) := by
  unfold handleUDP
  cases parseUDPDatagram parsed with
  | none => rfl
  | some datagram =>
      dsimp only
      cases hnat : get (c.session id).udpProxyNatTable datagram.dstPort with
      | some entry =>
          have hno : ¬(datagram.dstPort = 67 ∧ get (c.session id).udpProxyNatTable 67 = none) := by
            rintro ⟨hport, hnone⟩
            rw [hport, hnone] at hnat
            cases hnat
          rw [if_neg hno]
          dsimp only
          split <;> rfl
      | none =>
          dsimp only
          by_cases hport : datagram.dstPort = 67
          · rw [if_pos hport, if_pos ⟨hport, hport ▸ hnat⟩]
            exact directory_handleDHCP c id datagram.payload
          · have hno : ¬(datagram.dstPort = 67 ∧
                get (c.session id).udpProxyNatTable 67 = none) := fun h => hport h.1
            rw [if_neg hport, if_neg hno]
            split
            · split
              · rfl
              · exact directory_sendFlow c id _ _
            · exact directory_sendFlow c id _ _

theorem handleIPv4_udp {ipPacket : Bytes} {parsed : ParsedIPv4}
    (hparsed : parseIPv4Packet ipPacket = some parsed) (hudp : c.reachesUDP cfg parsed) :
    c.handleIPv4 cfg env id ipPacket = c.handleUDP cfg env id parsed := by
  obtain ⟨hprotocol, hbroadcast, htarget, hmore, hoffset⟩ := hudp
  unfold handleIPv4
  rw [hparsed]
  simp [hprotocol, htarget, hmore, hoffset]
  intro henabled hdst
  exact absurd ⟨henabled, hdst⟩ hbroadcast

/-- Every other packet is answered, routed or handed on, and changes no table.
This is what lets the simulation look at UDP alone. -/
theorem handleIPv4_other {ipPacket : Bytes} {parsed : ParsedIPv4}
    (hparsed : parseIPv4Packet ipPacket = some parsed) (hudp : ¬c.reachesUDP cfg parsed) :
    (c.handleIPv4 cfg env id ipPacket).1 = c ∧
      ∀ s reply, Output.dhcp s reply ∉ (c.handleIPv4 cfg env id ipPacket).2 := by
  unfold handleIPv4
  rw [hparsed]
  dsimp only
  split
  · split <;> exact ⟨rfl, by simp⟩
  · split
    · refine ⟨rfl, ?_⟩
      intro s reply hmem
      obtain ⟨target, -, htarget⟩ := List.mem_filterMap.mp hmem
      split at htarget
      · cases htarget
      · split at htarget <;> cases htarget
    · rename_i hbroadcast
      split
      · exact ⟨rfl, by simp⟩
      · rename_i htarget
        split
        · exact ⟨rfl, by simp⟩
        · rename_i hfragment
          split
          · exact ⟨rfl, by simp⟩
          · split
            · rename_i hprotocol
              refine absurd ⟨hprotocol, ?_, htarget, ?_⟩ hudp
              · exact fun h => hbroadcast ⟨h.1, h.2, hprotocol⟩
              · simpa using hfragment
            · split <;> exact ⟨rfl, by simp⟩

/-- Past the VM-to-VM branches only the UDP handler asks for addresses, and only
for DHCP. -/
theorem directory_handleIPv4 (c : Relay) (id : SessionId) {frame : Bytes}
    (hlen : 14 ≤ frame.length) (htype : readUInt16BE frame 12 = 0x0800) :
    (c.handleIPv4 cfg env id (frame.drop 14)).1.directory =
      c.directory.requestFor cfg id ((c.dhcpMessage cfg id frame).map DHCPMessage.clientMAC) := by
  have hguard : ¬(frame.length < 14 ∨ readUInt16BE frame 12 ≠ 0x0800) := by
    rintro (h | h)
    · omega
    · exact h htype
  unfold dhcpMessage datagramFrom
  rw [if_neg hguard]
  cases hparsed : parseIPv4Packet (frame.drop 14) with
  | none =>
      unfold handleIPv4
      rw [hparsed]
      rfl
  | some parsed =>
      dsimp only
      by_cases hudp : c.reachesUDP cfg parsed
      · rw [if_pos hudp, handleIPv4_udp hparsed hudp, directory_handleUDP]
        cases parseUDPDatagram parsed with
        | none => rfl
        | some datagram =>
            dsimp only [Option.map_some]
            split <;> rfl
      · rw [if_neg hudp, (handleIPv4_other hparsed hudp).1]
        rfl

/-- Learning a hardware address changes neither routes nor NAT tables, so the
message may be read before or after it. -/
theorem dhcpMessage_learnMAC (c : Relay) (id : SessionId) (mac : MAC) (frame : Bytes) :
    (c.learnMAC id mac).dhcpMessage cfg id frame = c.dhcpMessage cfg id frame := by
  have hnat : ((c.learnMAC id mac).session id).udpProxyNatTable =
      (c.session id).udpProxyNatTable := by
    simp [learnMAC]
  unfold dhcpMessage
  rw [hnat]
  rfl

/-- What a frame does to the directory: the source is learnt, then an address is
requested for at most one hardware address. -/
theorem directory_handleEthernetFrame (c : Relay) (env : Environment) (id : SessionId)
    (frame : Bytes) :
    (c.handleEthernetFrame cfg env id frame).1.directory =
      (c.directory.learnFrom id (sourceMAC frame)).requestFor cfg id
        (c.requestedMAC cfg id frame) := by
  unfold handleEthernetFrame sourceMAC
  by_cases hlen : frame.length < 14
  · rw [if_pos hlen, if_pos hlen]
    have harp : isARP frame = false := by
      simp [isARP, hlen]
    have hdhcp : c.dhcpMessage cfg id frame = none := by
      unfold dhcpMessage datagramFrom
      rw [if_pos (.inl hlen)]
    simp only [requestedMAC, harp, hdhcp]
    rfl
  · rw [if_neg hlen, if_neg hlen]
    have hle : 14 ≤ frame.length := by omega
    change _ = (c.directory.learn id _).requestFor cfg id _
    rw [← directory_learnMAC]
    dsimp only
    by_cases htype : readUInt16BE frame 12 = 0x0806
    · rw [if_pos htype]
      by_cases hbody : (frame.drop 14).length < 28
      · have harp : isARP frame = false := by
          simp only [isARP, decide_eq_false_iff_not]
          omega
        have hdhcp : c.dhcpMessage cfg id frame = none := by
          unfold dhcpMessage datagramFrom
          rw [if_pos (.inr (by rw [htype]; decide))]
        unfold handleARP
        rw [if_pos hbody]
        simp only [requestedMAC, harp, hdhcp]
        rfl
      · have harp : isARP frame = true := by
          simp only [isARP, decide_eq_true_eq]
          omega
        have hmac : ((c.learnMAC id (slice frame 6 12)).session id).vmMAC =
            some (slice frame 6 12) := by
          simp [learnMAC]
        have hip : ((c.learnMAC id (slice frame 6 12)).session id).vmIP = (c.session id).vmIP := by
          simp [learnMAC]
        rw [directory_handleARP _ id _ (by omega) hmac, hip]
        unfold requestedMAC sourceMAC
        rw [if_pos harp, if_neg hlen]
        cases (c.session id).vmIP <;> rfl
    · have harp : isARP frame = false := by
        simp only [isARP, decide_eq_false_iff_not]
        exact fun h => htype h.2.1
      rw [if_neg htype]
      unfold requestedMAC
      rw [harp]
      by_cases hip : readUInt16BE frame 12 = 0x0800
      · rw [if_pos hip, directory_handleIPv4 _ id hle hip, dhcpMessage_learnMAC]
        rfl
      · have hdhcp : c.dhcpMessage cfg id frame = none := by
          unfold dhcpMessage datagramFrom
          rw [if_pos (.inr hip)]
        rw [if_neg hip, hdhcp]
        rfl

/-- Every event acts on the directory by its address action, and not otherwise.
Through this theorem what is proved about actions holds of the relay. -/
theorem directory_handle (c : Relay) (event : Event) :
    (c.handle cfg event).1.directory = c.directory.apply cfg (c.addressAction cfg event) := by
  cases event with
  | «open» =>
      change c.connection.directory = c.directory.connect
      unfold connection directory Directory.connect
      congr 1
      · funext t
        change ((c.setSession c.nextSession {}).session t).vmIP = _
        rw [session_setSession, Function.update_apply]
        split <;> rfl
      · funext t
        change ((c.setSession c.nextSession {}).session t).vmMAC = _
        rw [session_setSession, Function.update_apply]
        split <;> rfl
  | frame env id data => exact directory_handleEthernetFrame c env id data
  | close id =>
      change (c.close id).1.directory = c.directory.close id
      have hsame := directory_setSession c id
        { c.session id with udpFlows := (c.session id).udpFlows.close.1 } rfl rfl
      have hip := congrArg Directory.vmIP hsame
      have hmac := congrArg Directory.vmMAC hsame
      exact Directory.ext hip hmac rfl rfl rfl
  | proxyDatagram vm vmPort payload entry ephemeralPort =>
      unfold handle
      dsimp only
      split
      · rfl
      · exact directory_setSession c _ _ rfl rfl
  | natTimer now id ephemeralPort =>
      change (c.natTimer now id ephemeralPort).directory = c.directory
      unfold natTimer
      dsimp only
      split
      · rfl
      · split
        · exact directory_setSession c id _ rfl rfl
        · rfl
  | flowEvent id event => exact directory_setSession c id _ rfl rfl
  | udpListening ruleId socket => rfl
  | udpStopped ruleId => rfl

theorem handleDHCP_error (c : Relay) (id : SessionId) {udp : Bytes} {message : DHCPMessage}
    {text : String} (hmessage : parseDHCP udp = some message)
    (halloc : c.registry.allocateIP cfg message.clientMAC = .error text) :
    (c.handleDHCP cfg id udp).2 = [] := by
  unfold handleDHCP assignByClient
  rw [hmessage]
  dsimp only
  rw [halloc]

theorem handleDHCP_ok (c : Relay) (id : SessionId) {udp : Bytes} {message : DHCPMessage}
    {ip : Address} {registry : Registry} (hmessage : parseDHCP udp = some message)
    (halloc : c.registry.allocateIP cfg message.clientMAC = .ok (ip, registry)) :
    (c.handleDHCP cfg id udp).2 = answerDHCP id message ip := by
  unfold handleDHCP assignByClient
  rw [hmessage]
  dsimp only
  rw [halloc]
  dsimp only
  cases (({ c with registry } : Relay).session id).vmIP <;> rfl

/-- `handleDHCP` answers with the address its allocation returned, which need
not be the one the session has. -/
theorem dhcp_mem_handleDHCP {s : SessionId} {reply : DHCPReply} (c : Relay) (id : SessionId)
    (udp : Bytes) :
    Output.dhcp s reply ∈ (c.handleDHCP cfg id udp).2 ↔
      ∃ message ip registry, parseDHCP udp = some message ∧
        c.registry.allocateIP cfg message.clientMAC = .ok (ip, registry) ∧
        Output.dhcp s reply ∈ answerDHCP id message ip := by
  cases hmessage : parseDHCP udp with
  | none => simp [handleDHCP, hmessage]
  | some message =>
      cases halloc : c.registry.allocateIP cfg message.clientMAC with
      | error text => simp [handleDHCP_error c id hmessage halloc, halloc]
      | ok outcome =>
          obtain ⟨ip, registry⟩ := outcome
          rw [handleDHCP_ok c id hmessage halloc]
          constructor
          · exact fun hmem => ⟨message, ip, registry, rfl, halloc, hmem⟩
          · rintro ⟨_, ip', registry', ⟨⟩, hok, hmem⟩
            rw [halloc] at hok
            obtain ⟨rfl, -⟩ := Prod.ext_iff.mp (Except.ok.inj hok)
            exact hmem

theorem dhcp_not_mem_flow {s t : SessionId} {reply : DHCPReply} (effects : List FlowEffect) :
    Output.dhcp s reply ∉ effects.map (Output.flow t) := by
  simp

/-- A UDP packet is answered by DHCP only from the handler of DHCP, and only the
session that sent it. -/
theorem dhcp_mem_handleUDP {s : SessionId} {reply : DHCPReply} (c : Relay) (id : SessionId)
    (parsed : ParsedIPv4) :
    Output.dhcp s reply ∈ (c.handleUDP cfg env id parsed).2 ↔
      ∃ datagram, parseUDPDatagram parsed = some datagram ∧ datagram.dstPort = 67 ∧
        get (c.session id).udpProxyNatTable 67 = none ∧
        Output.dhcp s reply ∈ (c.handleDHCP cfg id datagram.payload).2 := by
  unfold handleUDP
  cases parseUDPDatagram parsed with
  | none => simp
  | some datagram =>
      dsimp only
      cases hnat : get (c.session id).udpProxyNatTable datagram.dstPort with
      | some entry =>
          dsimp only
          constructor
          · intro hmem
            split at hmem <;> simp at hmem
          · rintro ⟨_, ⟨⟩, hport, hnone, -⟩
            rw [hport, hnone] at hnat
            cases hnat
      | none =>
          dsimp only
          by_cases hport : datagram.dstPort = 67
          · rw [if_pos hport]
            constructor
            · exact fun hmem => ⟨datagram, rfl, hport, hport ▸ hnat, hmem⟩
            · rintro ⟨_, hsame, -, -, hmem⟩
              exact Option.some.inj hsame ▸ hmem
          · rw [if_neg hport]
            constructor
            · intro hmem
              split at hmem
              · split at hmem
                · cases hmem
                · exact absurd hmem (dhcp_not_mem_flow _)
              · exact absurd hmem (dhcp_not_mem_flow _)
            · rintro ⟨_, ⟨⟩, h, -⟩
              exact absurd h hport

/-- When a frame is answered by DHCP, and with what: the message it carries and
the address that the registry gives its client. -/
theorem dhcp_mem_handleEthernetFrame {s : SessionId} {reply : DHCPReply} (c : Relay)
    (id : SessionId) (frame : Bytes) :
    Output.dhcp s reply ∈ (c.handleEthernetFrame cfg env id frame).2 ↔
      ∃ message ip registry, c.dhcpMessage cfg id frame = some message ∧
        c.registry.allocateIP cfg message.clientMAC = .ok (ip, registry) ∧
        Output.dhcp s reply ∈ answerDHCP id message ip := by
  rw [← dhcpMessage_learnMAC c id (slice frame 6 12) frame]
  unfold handleEthernetFrame dhcpMessage datagramFrom
  by_cases hlen : frame.length < 14
  · rw [if_pos hlen, if_pos (.inl hlen)]
    simp
  rw [if_neg hlen]
  dsimp only
  by_cases htype : readUInt16BE frame 12 = 0x0806
  · rw [if_pos htype, if_pos (.inr (by rw [htype]; decide))]
    unfold handleARP
    refine iff_of_false ?_ (by simp)
    split
    · simp
    · split
      · simp
      · unfold answerARP
        simp only
        split_ifs
        · simp
        · split
          · simp
          · split <;> simp
        · simp
        · simp
  rw [if_neg htype]
  by_cases hip : readUInt16BE frame 12 = 0x0800
  · rw [if_pos hip, if_neg (by rintro (h | h) <;> contradiction)]
    cases hparsed : parseIPv4Packet (frame.drop 14) with
    | none =>
        unfold handleIPv4
        rw [hparsed]
        simp
    | some parsed =>
        dsimp only
        by_cases hudp : (c.learnMAC id (slice frame 6 12)).reachesUDP cfg parsed
        · rw [if_pos hudp, handleIPv4_udp hparsed hudp, dhcp_mem_handleUDP]
          cases parseUDPDatagram parsed with
          | none => simp
          | some datagram =>
              simp only [Option.some.injEq, exists_eq_left', Option.map_some]
              by_cases hport : datagram.dstPort = 67 ∧
                  get ((c.learnMAC id (slice frame 6 12)).session id).udpProxyNatTable 67 = none
              · rw [if_pos hport]
                simp only [hport, true_and]
                exact dhcp_mem_handleDHCP _ id datagram.payload
              · rw [if_neg hport]
                refine iff_of_false (fun h => hport ⟨h.1, h.2.1⟩) (by simp)
        · rw [if_neg hudp]
          exact iff_of_false ((handleIPv4_other hparsed hudp).2 s reply) (by simp)
  · rw [if_neg hip, if_pos (.inr hip)]
    simp

/-- The DHCP answers of an event are those to the message its frame brings; no
other event has any. -/
theorem dhcp_mem_handle {s : SessionId} {reply : DHCPReply} (c : Relay) (event : Event) :
    Output.dhcp s reply ∈ (c.handle cfg event).2 ↔
      ∃ env id data message ip registry, event = .frame env id data ∧
        c.dhcpMessage cfg id data = some message ∧
        c.registry.allocateIP cfg message.clientMAC = .ok (ip, registry) ∧
        Output.dhcp s reply ∈ answerDHCP id message ip := by
  cases event with
  | frame env id data =>
      refine (dhcp_mem_handleEthernetFrame c id data).trans ⟨?_, ?_⟩
      · rintro ⟨message, ip, registry, h⟩
        exact ⟨env, id, data, message, ip, registry, rfl, h⟩
      · rintro ⟨_, _, _, message, ip, registry, ⟨⟩, h⟩
        exact ⟨message, ip, registry, h⟩
  | proxyDatagram vm vmPort payload entry ephemeralPort =>
      refine iff_of_false ?_ (by simp)
      unfold handle
      dsimp only
      split
      · simp
      · unfold forwardUdpPacket
        simp
  | close id => exact iff_of_false (dhcp_not_mem_flow _) (by simp)
  | flowEvent id event => exact iff_of_false (dhcp_not_mem_flow _) (by simp)
  | _ => exact iff_of_false (List.not_mem_nil) (by simp)

end Relay

end RootlessRelay
