import Mathlib.Logic.Function.Basic
import RootlessRelay.Net.Registry
import RootlessRelay.Udp.FlowManager

/-!
# Sessions and Ethernet frames

One `VMSession` for each WebSocket, and what `handleEthernetFrame` does with a
frame of its VM: learn the hardware address, answer ARP, serve DHCP, route
between VMs, hand UDP to port forwards or flows. Frames for the TCP and ICMP
handlers are outputs here: those handlers touch none of the tables of this
module. Session objects live in a heap, so that a route may still name a session
that has been closed.

`Event` lists what the process reacts to: sessions that open and close, their
frames, datagrams and errors of its sockets, and timers. `Relay.handle` is the
transition function. It never throws: the two exceptions the source can raise
here, an exhausted pool and a query name that cannot be read, are caught by
`handleEthernetFrame`, and what has been done before them stands.
-/

namespace RootlessRelay

open InsertionMap

/-- The identity of a port-forward rule. -/
abbrev RuleId := Nat

/-- A UDP socket of the host, named by the order of creation. Sockets of flows
are not among them. -/
abbrev HostSocket := Nat

/-- An entry of `udpProxyNatTable`: the client's `rinfo`, its rule and
`lastSeen`. Its key is the ephemeral port the VM sees. -/
structure NatEntry where
  address : Address
  port : Port
  ruleId : RuleId
  lastSeen : Nat
  deriving DecidableEq, Repr

/-- The fields of a session that frames of its VM use. A session starts without
an address. -/
structure VMSession where
  vmIP : Option Address := none
  vmMAC : Option MAC := none
  udpProxyNatTable : List (Port × NatEntry) := []
  udpFlows : UDPFlowManager := {}

/-- The state of the process that frames, opens and closes act on: the heap of
sessions and the module-level tables. -/
structure Relay where
  sessions : SessionId → VMSession := fun _ => {}
  nextSession : SessionId := 0
  activeSessions : List SessionId := []
  registry : Registry := {}
  udpProxySockets : List (RuleId × HostSocket) := []

/-- The fields `handleDHCP` reads out of a message. Everything else in it is
ignored. -/
structure DHCPMessage where
  xid : Nat
  clientMAC : MAC
  msgType : Nat
  deriving DecidableEq, Repr

/-- The arguments of `sendDHCP`. The rest of the reply depends on the settings
only. -/
structure DHCPReply where
  xid : Nat
  clientMAC : MAC
  msgType : Nat
  assignedIP : Address
  deriving DecidableEq, Repr

/-- What an event makes the relay send or do, with the data that goes with it. -/
inductive Output
  | arpReply (session : SessionId) (requesterMAC : MAC) (requesterIP : Bytes)
      (senderMAC : MAC) (senderIP : Address)
  | dhcp (session : SessionId) (reply : DHCPReply)
  | ip (session : SessionId) (packet : Bytes)
  | client (socket : HostSocket) (payload : Bytes) (port : Port) (address : Address)
  | flow (session : SessionId) (effect : FlowEffect)
  | udpToVM (session : SessionId) (payload : Bytes) (srcPort dstPort : Port)
      (srcIP : Address) (dstIP : Option Address)
  | handleReverseTCP (session : SessionId) (parsed : ParsedIPv4)
  | handleTCP (session : SessionId) (parsed : ParsedIPv4)
  | handleICMP (session : SessionId) (parsed : ParsedIPv4)
  deriving DecidableEq, Repr

/-- The hardware address of the gateway, in every frame the relay sends. -/
def GATEWAY_MAC : MAC := [0x52, 0x54, 0x00, 0x12, 0x34, 0x56]

/-- The option scan of `handleDHCP`, with `skip` bytes of the current option
still to pass over. A truncated option ends the scan with no result. -/
def scanOptions : Bytes → Nat → Nat → Option Nat
  | [], _, msgType => some msgType
  | _ :: rest, skip + 1, msgType => scanOptions rest skip msgType
  | opt :: rest, 0, msgType =>
      if opt = 255 then some msgType
      else if opt = 0 then scanOptions rest 0 msgType
      else
        match rest with
        | [] => none
        | len :: body =>
            if body.length < len.toNat then none
            else scanOptions rest (1 + len.toNat) (if opt = 53 then byteAt body 0 else msgType)

/-- The reading half of `handleDHCP`: the message has to be long enough, carry
the magic number, and have well-formed options. -/
def parseDHCP (udp : Bytes) : Option DHCPMessage :=
  if udp.length < 240 then none
  else if readUInt32BE udp 236 ≠ 0x63825363 then none
  else
    match scanOptions (udp.drop 240) 0 0 with
    | none => none
    | some msgType =>
        some { xid := readUInt32BE udp 4, clientMAC := slice udp 28 34, msgType := msgType }

/-- The loop of `parseDnsQuestionName`, with `follow` for its recursive call and
the name read so far. Labels bring the offset forward, and a pointer ends the
loop. -/
def questionLabels (dnsPacket : Bytes) (follow : Nat → Option Bytes) (currentOffset : Nat)
    (name : Bytes) : Option Bytes :=
  if currentOffset < dnsPacket.length ∧ byteAt dnsPacket currentOffset ≠ 0 then
    let len := byteAt dnsPacket currentOffset
    if len &&& 0xC0 = 0xC0 then
      if dnsPacket.length < currentOffset + 2 then none
      else (follow (readUInt16BE dnsPacket currentOffset &&& 0x3FFF)).map (name ++ ·)
    else
      let text := (slice dnsPacket (currentOffset + 1) (currentOffset + 1 + len)).map (· &&& 0x7f)
      let next := currentOffset + len + 1
      -- past the end of the packet the byte is `undefined`, which is not zero
      let dot := if next < dnsPacket.length ∧ byteAt dnsPacket next = 0 then [] else [46]
      questionLabels dnsPacket follow next (name ++ text ++ dot)
  else some name
termination_by dnsPacket.length - currentOffset

/-- `parseDnsQuestionName`, used only for tracing. `none` is a thrown
`RangeError`: a read past the packet, or more nested pointers than the `depth`
of the call stack. -/
def parseDnsQuestionName (dnsPacket : Bytes) : Nat → Nat → Option Bytes
  | 0, _ => none
  | depth + 1, offset => questionLabels dnsPacket (parseDnsQuestionName dnsPacket depth) offset []

/-- The tracing of a DNS query throws: the query has a question whose name
cannot be read, and the relay is asked to print it. -/
def traceThrows (cfg : RelaySettings) (stackDepth : Nat) (payload : Bytes) : Bool :=
  LOG_LEVEL_TRACE ≤ cfg.logLevel ∧ 12 ≤ payload.length ∧ 0 < readUInt16BE payload 4 ∧
    parseDnsQuestionName payload stackDepth 12 = none

/-- Octets `10.0.2.` in front of the last one: what the source tests with
`startsWith`. -/
def inSubnet (ip : Address) : Bool := ip.a = 10 ∧ ip.b = 0 ∧ ip.c = 2

/-- `10.0.2.255`, the broadcast address of the pool's network. -/
def BROADCAST_IP : Address := poolAddress 255

namespace Relay

variable (cfg : RelaySettings)

/-- The session object a reference points to. -/
def session (c : Relay) (id : SessionId) : VMSession := c.sessions id

/-- The heap with one session object changed. -/
def setSession (c : Relay) (id : SessionId) (s : VMSession) : Relay :=
  { c with sessions := Function.update c.sessions id s }

/-- `this.vmIP = ip; ipToSession.set(ip, this)`, which are never done apart. -/
def assign (c : Relay) (id : SessionId) (ip : Address) : Relay :=
  { c.setSession id { c.session id with vmIP := some ip } with
    registry := c.registry.register ip id }

/-- The head of `handleARP`: an address for a session that has none. It fails if
the pool is exhausted. -/
def assignByMAC (c : Relay) (id : SessionId) : Except String Relay :=
  match (c.session id).vmIP, (c.session id).vmMAC with
  | none, some mac =>
      match c.registry.allocateIP cfg mac with
      | .error message => .error message
      | .ok (ip, registry) => .ok ({ c with registry := registry }.assign id ip)
  | _, _ => .ok c

/-- The tail of `handleARP`: a request is answered for the gateway and, with
VM-to-VM routing, for the session its address is routed to. -/
def answerARP (c : Relay) (id : SessionId) (arpPacket : Bytes) : List Output :=
  let opcode := readUInt16BE arpPacket 6
  let targetIP := formatIPv4 arpPacket 24
  let requesterMAC := slice arpPacket 8 14
  let requesterIP := slice arpPacket 14 18
  if opcode = 1 ∧ targetIP = cfg.GATEWAY_IP then
    [.arpReply id requesterMAC requesterIP GATEWAY_MAC cfg.GATEWAY_IP]
  else if opcode = 1 then
    if cfg.enableVmToVm then
      match c.registry.routeOf targetIP with
      | none => []
      | some target =>
          match (c.session target).vmMAC with
          | none => []
          | some mac => [.arpReply id requesterMAC requesterIP mac targetIP]
    else []
  else []

/-- `handleARP`. Where no address can be assigned, the request is not answered. -/
def handleARP (c : Relay) (id : SessionId) (arpPacket : Bytes) : Relay × List Output :=
  if arpPacket.length < 28 then (c, [])
  else
    match c.assignByMAC cfg id with
    | .error _ => (c, [])
    | .ok c => (c, c.answerARP cfg id arpPacket)

/-- The lease half of `handleDHCP`: the address for the client, which also
becomes the session's own if it has none. -/
def assignByClient (c : Relay) (id : SessionId) (clientMAC : MAC) :
    Except String (Address × Relay) :=
  match c.registry.allocateIP cfg clientMAC with
  | .error message => .error message
  | .ok (ip, registry) =>
      let c := { c with registry := registry }
      match (c.session id).vmIP with
      | none => .ok (ip, c.assign id ip)
      | some _ => .ok (ip, c)

/-- `sendDHCP`, as `handleDHCP` answers a message: an OFFER (2) to a DISCOVER
(1), an ACK (5) to a REQUEST (3), nothing else. -/
def answerDHCP (id : SessionId) (message : DHCPMessage) (assignedIP : Address) : List Output :=
  if message.msgType = 1 then
    [.dhcp id ⟨message.xid, message.clientMAC, 2, assignedIP⟩]
  else if message.msgType = 3 then
    [.dhcp id ⟨message.xid, message.clientMAC, 5, assignedIP⟩]
  else []

/-- `handleDHCP`: an address for the client of the message, and an answer if it
asks for one. -/
def handleDHCP (c : Relay) (id : SessionId) (udp : Bytes) : Relay × List Output :=
  match parseDHCP udp with
  | none => (c, [])
  | some message =>
      match c.assignByClient cfg id message.clientMAC with
      | .error _ => (c, [])
      | .ok (assignedIP, c) => (c, answerDHCP id message assignedIP)

/-- `this.udpFlows.send(payload, flowInfo)`, whose effects become outputs of the
relay. -/
def sendFlow (c : Relay) (env : Environment) (id : SessionId) (payload : Bytes)
    (flowInfo : FlowInfo) : Relay × List Output :=
  let s := c.session id
  let (flows, effects, _) := s.udpFlows.send cfg env payload flowInfo
  (c.setSession id { s with udpFlows := flows }, effects.map (.flow id))

/-- `handleUDP`: a NAT entry for the destination port comes first, then DHCP,
and the flows for all the rest. -/
def handleUDP (c : Relay) (env : Environment) (id : SessionId) (parsed : ParsedIPv4) :
    Relay × List Output :=
  match parseUDPDatagram parsed with
  | none => (c, [])
  | some datagram =>
      match get (c.session id).udpProxyNatTable datagram.dstPort with
      | some entry =>
          match get c.udpProxySockets entry.ruleId with
          | some socket => (c, [.client socket datagram.payload entry.port entry.address])
          | none => (c, [])
      | none =>
          if datagram.dstPort = 67 then c.handleDHCP cfg id datagram.payload
          else
            let key : FlowKey := ⟨parsed.srcIP, datagram.srcPort, parsed.dstIP, datagram.dstPort⟩
            if datagram.dstPort = 53 then
              -- thrown out of the handler, caught and logged by `handleEthernetFrame`
              if traceThrows cfg env.stackDepth datagram.payload then (c, [])
              else c.sendFlow cfg env id datagram.payload { key with isDNS := true }
            else c.sendFlow cfg env id datagram.payload { key with isDNS := false }

/-- The broadcast branch of `handleIPv4`: every active session that has an
address other than the sender's gets the packet. -/
def broadcast (c : Relay) (parsed : ParsedIPv4) : List Output :=
  c.activeSessions.filterMap fun target =>
    match (c.session target).vmIP with
    | none => none
    | some ip => if ip = parsed.srcIP then none else some (.ip target parsed.packet)

/-- The session a packet for another VM is routed to, where VM-to-VM routing
applies. It may be a session that has been closed. -/
def vmTarget (c : Relay) (dstIP : Address) : Option SessionId :=
  if cfg.enableVmToVm ∧ inSubnet dstIP ∧ dstIP ≠ cfg.GATEWAY_IP ∧ dstIP ≠ BROADCAST_IP then
    c.registry.routeOf dstIP
  else none

/-- `handleIPv4`: broadcast, another VM, or one of the handlers. Fragments get
as far as the other VMs only. -/
def handleIPv4 (c : Relay) (env : Environment) (id : SessionId) (ipPacket : Bytes) :
    Relay × List Output :=
  match parseIPv4Packet ipPacket with
  | none => (c, [])
  | some parsed =>
      let isFragment := parsed.moreFragments ∨ parsed.fragmentOffset ≠ 0
      if parsed.protocol = 6 ∧ parsed.dstIP = cfg.GATEWAY_IP then
        if isFragment then (c, []) else (c, [.handleReverseTCP id parsed])
      else if cfg.enableVmToVm ∧ parsed.dstIP = BROADCAST_IP ∧ parsed.protocol = 17 then
        (c, c.broadcast parsed)
      else
        match c.vmTarget cfg parsed.dstIP with
        | some target => (c, [.ip target parsed.packet])
        | none =>
            if isFragment then (c, [])
            else if parsed.protocol = 1 then (c, [.handleICMP id parsed])
            else if parsed.protocol = 17 then c.handleUDP cfg env id parsed
            else if parsed.protocol = 6 then (c, [.handleTCP id parsed])
            else (c, [])

/-- The `vmMAC` update of `handleEthernetFrame`, made for every frame before it
is looked at. -/
def learnMAC (c : Relay) (id : SessionId) (srcMAC : MAC) : Relay :=
  c.setSession id { c.session id with vmMAC := some srcMAC }

/-- `handleEthernetFrame`: learn the source address, and go by the type of the
frame. -/
def handleEthernetFrame (c : Relay) (env : Environment) (id : SessionId) (frame : Bytes) :
    Relay × List Output :=
  if frame.length < 14 then (c, [])
  else
    let c := c.learnMAC id (slice frame 6 12)
    let etherType := readUInt16BE frame 12
    if etherType = 0x0806 then c.handleARP cfg id (frame.drop 14)
    else if etherType = 0x0800 then c.handleIPv4 cfg env id (frame.drop 14)
    else (c, [])

/-- The `connection` handler of the WebSocket server, for a client within its
limit. -/
def connection (c : Relay) : Relay :=
  { c.setSession c.nextSession {} with
    nextSession := c.nextSession + 1
    activeSessions := c.activeSessions ++ [c.nextSession] }

/-- `VMSession.close` and the removal from `activeSessions` that follows it. -/
def close (c : Relay) (id : SessionId) : Relay × List Output :=
  let s := c.session id
  let registry :=
    match s.vmMAC with
    | none => c.registry
    | some mac => c.registry.releaseIP mac
  let (flows, effects) := s.udpFlows.close
  ({ c.setSession id { s with udpFlows := flows } with
      registry := registry
      activeSessions := c.activeSessions.filter (· ≠ id) }, effects.map (.flow id))

/-- `forwardUdpPacket`, with the ephemeral port its search ended on. -/
def forwardUdpPacket (c : Relay) (id : SessionId) (payload : Bytes) (vmPort : Port)
    (entry : NatEntry) (ephemeralPort : Port) : Relay × List Output :=
  let s := c.session id
  (c.setSession id { s with
      udpProxyNatTable := set s.udpProxyNatTable ephemeralPort entry },
    [.udpToVM id payload ephemeralPort vmPort cfg.GATEWAY_IP s.vmIP])

/-- The 31 s timer of a NAT entry. -/
def natTimer (c : Relay) (now : Nat) (id : SessionId) (ephemeralPort : Port) : Relay :=
  let s := c.session id
  match get s.udpProxyNatTable ephemeralPort with
  | none => c
  | some entry =>
      if entry.lastSeen + 30000 < now then
        c.setSession id { s with udpProxyNatTable := delete s.udpProxyNatTable ephemeralPort }
      else c

inductive Event
  | open
  | frame (env : Environment) (id : SessionId) (data : Bytes)
  | close (id : SessionId)
  | proxyDatagram (vm : Address) (vmPort : Port) (payload : Bytes) (entry : NatEntry)
      (ephemeralPort : Port)
  | natTimer (now : Nat) (id : SessionId) (ephemeralPort : Port)
  | flowEvent (id : SessionId) (event : UDPFlowManager.Event)
  | udpListening (ruleId : RuleId) (socket : HostSocket)
  | udpStopped (ruleId : RuleId)

def handle (c : Relay) : Event → Relay × List Output
  | .open => (c.connection, [])
  | .frame env id data => c.handleEthernetFrame cfg env id data
  | .close id => c.close id
  | .proxyDatagram vm vmPort payload entry ephemeralPort =>
      match c.registry.routeOf vm with
      | none => (c, [])
      | some id => c.forwardUdpPacket cfg id payload vmPort entry ephemeralPort
  | .natTimer now id ephemeralPort => (c.natTimer now id ephemeralPort, [])
  | .flowEvent id event =>
      let s := c.session id
      let (flows, effects) := s.udpFlows.handle cfg event
      (c.setSession id { s with udpFlows := flows }, effects.map (.flow id))
  | .udpListening ruleId socket =>
      ({ c with udpProxySockets := set c.udpProxySockets ruleId socket }, [])
  | .udpStopped ruleId => ({ c with udpProxySockets := delete c.udpProxySockets ruleId }, [])

/-- Frames and closes come from sessions that are open; a new NAT entry is put
on a free ephemeral port. -/
def enabled (c : Relay) : Event → Bool
  | .frame _ id _ => id ∈ c.activeSessions
  | .close id => id ∈ c.activeSessions
  | .proxyDatagram vm _ _ _ ephemeralPort =>
      match c.registry.routeOf vm with
      | none => true
      | some id =>
          40000 ≤ ephemeralPort ∧ ephemeralPort < 50000 ∧
            !hasKey (c.session id).udpProxyNatTable ephemeralPort
  | _ => true

def Step (c : Relay) (event : Event) (c' : Relay) : Prop :=
  c.enabled event ∧ (c.handle cfg event).1 = c'

/-- The state after a list of events, and whether each of them is enabled in its
turn. -/
def after (c : Relay) : List Event → Relay
  | [] => c
  | event :: rest => (c.handle cfg event).1.after rest

def possible (c : Relay) : List Event → Bool
  | [] => true
  | event :: rest => c.enabled event && (c.handle cfg event).1.possible rest

variable {cfg} in
theorem run_after {c : Relay} {events : List Event} (h : c.possible cfg events = true) :
    Transition.Run (Step cfg) c events (c.after cfg events) := by
  induction events generalizing c with
  | nil => exact .nil c
  | cons event rest ih =>
      obtain ⟨henabled, hrest⟩ := (Bool.and_eq_true _ _).mp h
      exact .cons ⟨henabled, rfl⟩ (ih hrest)

/-- Every state the relay can be in after some run from its start. -/
def Reachable (c : Relay) : Prop := Transition.Reaches (Step cfg) {} c

/-- A broadcast ARP request for the gateway, from a VM that has no address yet. -/
def exampleARP (mac : MAC) : Bytes :=
  List.replicate 6 0xff ++ mac ++ [0x08, 0x06] ++ [0, 1, 8, 0, 6, 4, 0, 1] ++ mac ++
    [0, 0, 0, 0] ++ List.replicate 6 0 ++ [10, 0, 2, 2]

end Relay

end RootlessRelay
