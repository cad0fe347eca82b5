import RootlessRelay.Net.AddressInvariant

/-!
# Where a UDP datagram of the VM goes

`handleUDP` tries a NAT entry, DHCP and the flows in turn. A datagram for the
outside should go to its own destination on its own flow, and one for a
port-forward client should be addressed to the gateway. Two branches let it go
astray: the NAT table is searched by destination port alone, and tracing a DNS
query may throw.

`demuxed_iff` puts the two together into a condition on the datagram, the NAT
table and the settings, for any table and any state of the flow manager that can
be reached. It uses what is proved of the manager (`Coherent.send_accounted`)
and does not open it. The last part shows that the manager inside a session of a
reachable relay is itself reachable, so that its theorems apply there.
-/

namespace RootlessRelay

open InsertionMap

namespace Relay

variable {cfg : RelaySettings} {c : Relay} {env : Environment} {id : SessionId}
  {parsed : ParsedIPv4} {datagram : UDPDatagram}

/-- The four-tuple and kind of the flow a datagram belongs to, as `handleUDP`
puts it together. -/
def flowInfoOf (parsed : ParsedIPv4) (datagram : UDPDatagram) : FlowInfo where
  vmIP := parsed.srcIP
  vmPort := datagram.srcPort
  remoteIP := parsed.dstIP
  remotePort := datagram.dstPort
  isDNS := datagram.dstPort = 53

/-- The client a port is forwarded for, if there is an entry under the port. -/
def natEntry (c : Relay) (id : SessionId) (port : Port) : Option NatEntry :=
  get (c.session id).udpProxyNatTable port

/-- A client gets a datagram only from the gateway's port that is its own, and
unchanged; any datagram that is neither for such a port nor for the DHCP server
is accounted for by the flow manager and has no other effect. -/
structure Demuxed (cfg : RelaySettings) (c : Relay) (id : SessionId) (parsed : ParsedIPv4)
    (datagram : UDPDatagram) (c' : Relay) (outputs : List Output) : Prop where
  client : ∀ socket payload port address, Output.client socket payload port address ∈ outputs →
    parsed.dstIP = cfg.GATEWAY_IP ∧ payload = datagram.payload ∧
      ∃ entry, c.natEntry id datagram.dstPort = some entry ∧ entry.port = port ∧
        entry.address = address
  forwarded : ¬(parsed.dstIP = cfg.GATEWAY_IP ∧ (c.natEntry id datagram.dstPort).isSome) →
    datagram.dstPort ≠ 67 →
      ∃ effects, outputs = effects.map (.flow id) ∧
        UDPFlowManager.Accounted (c.session id).udpFlows (c'.session id).udpFlows effects
          datagram.payload (flowInfoOf parsed datagram)

/-- The datagram meets a NAT entry without being addressed to the gateway (for
port 67, which no NAT entry uses, only a forward that is still up counts), or it
is a DNS query whose tracing throws. -/
def GoesAstray (cfg : RelaySettings) (c : Relay) (env : Environment) (id : SessionId)
    (parsed : ParsedIPv4) (datagram : UDPDatagram) : Prop :=
  (∃ entry, c.natEntry id datagram.dstPort = some entry ∧ parsed.dstIP ≠ cfg.GATEWAY_IP ∧
    (datagram.dstPort = 67 → (get c.udpProxySockets entry.ruleId).isSome)) ∨
  (c.natEntry id datagram.dstPort = none ∧ datagram.dstPort = 53 ∧
    traceThrows cfg env.stackDepth datagram.payload)

theorem handleUDP_nat {entry : NatEntry} (hdatagram : parseUDPDatagram parsed = some datagram)
    (hnat : c.natEntry id datagram.dstPort = some entry) :
    c.handleUDP cfg env id parsed =
      (c, ((get c.udpProxySockets entry.ruleId).map fun socket =>
        Output.client socket datagram.payload entry.port entry.address).toList) := by
  unfold natEntry at hnat
  unfold handleUDP
  rw [hdatagram]
  dsimp only
  rw [hnat]
  dsimp only
  cases get c.udpProxySockets entry.ruleId <;> rfl

/-- A datagram without a NAT entry, and not for DHCP, goes to the flow manager,
unless the trace of a DNS name throws first. -/
theorem handleUDP_flow (hdatagram : parseUDPDatagram parsed = some datagram)
    (hnat : c.natEntry id datagram.dstPort = none) (hport : datagram.dstPort ≠ 67) :
    c.handleUDP cfg env id parsed =
      if datagram.dstPort = 53 ∧ traceThrows cfg env.stackDepth datagram.payload then (c, [])
      else c.sendFlow cfg env id datagram.payload (flowInfoOf parsed datagram) := by
  unfold natEntry at hnat
  unfold handleUDP flowInfoOf
  rw [hdatagram]
  dsimp only
  rw [hnat]
  dsimp only
  rw [if_neg hport]
  by_cases hdns : datagram.dstPort = 53
  · simp only [hdns, true_and, if_true, decide_true]
  · simp only [hdns, false_and, if_false, decide_false]

theorem handleUDP_dhcp (hdatagram : parseUDPDatagram parsed = some datagram)
    (hnat : c.natEntry id datagram.dstPort = none) (hport : datagram.dstPort = 67) :
    c.handleUDP cfg env id parsed = c.handleDHCP cfg id datagram.payload := by
  unfold natEntry at hnat
  unfold handleUDP
  rw [hdatagram]
  dsimp only
  rw [hnat]
  exact if_pos hport

theorem sendFlow_accounted (cfg : RelaySettings) (env : Environment)
    (h : (c.session id).udpFlows.Coherent) (payload : Bytes) (flowInfo : FlowInfo) :
    ∃ effects, (c.sendFlow cfg env id payload flowInfo).2 = effects.map (.flow id) ∧
      UDPFlowManager.Accounted (c.session id).udpFlows
        ((c.sendFlow cfg env id payload flowInfo).1.session id).udpFlows effects payload
        flowInfo := by
  refine ⟨((c.session id).udpFlows.send cfg env payload flowInfo).2.1, rfl, ?_⟩
  have hsession : ((c.sendFlow cfg env id payload flowInfo).1.session id).udpFlows =
      ((c.session id).udpFlows.send cfg env payload flowInfo).1 := by
    simp [sendFlow]
  rw [hsession]
  exact h.send_accounted

/-- A datagram nothing happens to is not accounted for: some counter would have
to be raised. -/
theorem not_accounted_silent (m : UDPFlowManager) (payload : Bytes) (flowInfo : FlowInfo) :
    ¬UDPFlowManager.Accounted m m [] payload flowInfo := by
  rintro (⟨⟨_, _, -, -, -, hsent⟩, -⟩ | ⟨-, ⟨hdropped, -⟩ | ⟨-, herrors⟩⟩)
  · cases hsent
  · omega
  · omega

/-- What a NAT entry does with a datagram: it goes to the client of the entry,
unchanged, on the socket of its rule. -/
theorem mem_toClient {entry : NatEntry} {payload payload' : Bytes} {socket : HostSocket}
    {port : Port} {address : Address}
    (h : Output.client socket payload' port address ∈
      ((get c.udpProxySockets entry.ruleId).map fun socket =>
        Output.client socket payload entry.port entry.address).toList) :
    get c.udpProxySockets entry.ruleId = some socket ∧ payload' = payload ∧
      entry.port = port ∧ entry.address = address := by
  cases hsocket : get c.udpProxySockets entry.ruleId with
  | none => simp [hsocket] at h
  | some live =>
      simp only [hsocket, Option.map_some, Option.toList_some, List.mem_singleton,
        Output.client.injEq] at h
      obtain ⟨rfl, rfl, rfl, rfl⟩ := h
      exact ⟨rfl, rfl, rfl, rfl⟩

/-- Where the table has the destination port, the datagram is taken for a reply,
whoever it is for. -/
theorem demuxed_iff_of_nat {entry : NatEntry} (hdatagram : parseUDPDatagram parsed = some datagram)
    (hnat : c.natEntry id datagram.dstPort = some entry) :
    c.Demuxed cfg id parsed datagram (c.handleUDP cfg env id parsed).1
        (c.handleUDP cfg env id parsed).2 ↔
      ¬c.GoesAstray cfg env id parsed datagram := by
  rw [handleUDP_nat hdatagram hnat]
  constructor
  · rintro h (⟨_, hentry, hdst, hdhcp⟩ | ⟨hnone, -⟩)
    · obtain rfl := Option.some.inj (hnat.symm.trans hentry)
      have hclient := h.client
      have hforwarded := h.forwarded
      dsimp only at hclient hforwarded
      cases hsocket : get c.udpProxySockets entry.ruleId with
      | some socket =>
          rw [hsocket] at hclient
          exact hdst (hclient socket _ _ _ (List.mem_singleton_self _)).1
      | none =>
          have hport : datagram.dstPort ≠ 67 := by
            intro hport
            have hlive := hdhcp hport
            rw [hsocket] at hlive
            cases hlive
          rw [hsocket] at hforwarded
          obtain ⟨effects, houtputs, haccounted⟩ := hforwarded (fun h => hdst h.1) hport
          obtain rfl : effects = [] := List.map_eq_nil_iff.mp houtputs.symm
          exact not_accounted_silent _ _ _ haccounted
    · rw [hnat] at hnone
      cases hnone
  · intro hkept
    refine ⟨?_, ?_⟩
    · intro socket payload port address hmem
      obtain ⟨hsocket, hpayload, hport, haddress⟩ := mem_toClient hmem
      refine ⟨?_, hpayload, entry, hnat, hport, haddress⟩
      by_contra hdst
      exact hkept (.inl ⟨entry, hnat, hdst, fun _ => by rw [hsocket]; rfl⟩)
    · intro hother hport
      refine absurd (.inl ⟨entry, hnat, ?_, fun h => absurd h hport⟩) hkept
      exact fun hdst => hother ⟨hdst, by rw [hnat]; rfl⟩

theorem client_not_mem_handleDHCP (c : Relay) (id : SessionId) (udp : Bytes)
    {socket : HostSocket} {payload : Bytes} {port : Port} {address : Address} :
    Output.client socket payload port address ∉ (c.handleDHCP cfg id udp).2 := by
  unfold handleDHCP answerDHCP
  split
  · simp
  · split
    · simp
    · dsimp only
      split
      · simp
      · split <;> simp

/-- Where it has not, the datagram reaches its flow if the manager can open one. -/
theorem demuxed_iff_of_free (hflows : (c.session id).udpFlows.Coherent)
    (hdatagram : parseUDPDatagram parsed = some datagram)
    (hnat : c.natEntry id datagram.dstPort = none) :
    c.Demuxed cfg id parsed datagram (c.handleUDP cfg env id parsed).1
        (c.handleUDP cfg env id parsed).2 ↔
      ¬c.GoesAstray cfg env id parsed datagram := by
  have hastray : c.GoesAstray cfg env id parsed datagram ↔
      datagram.dstPort = 53 ∧ traceThrows cfg env.stackDepth datagram.payload = true := by
    simp [GoesAstray, hnat]
  have hother : ¬(parsed.dstIP = cfg.GATEWAY_IP ∧ (c.natEntry id datagram.dstPort).isSome) := by
    simp [hnat]
  rw [hastray]
  by_cases hport : datagram.dstPort = 67
  · have hdhcp := @handleUDP_dhcp cfg c env id parsed datagram hdatagram hnat hport
    refine iff_of_true ⟨?_, fun _ h => absurd hport h⟩ fun h => absurd (hport.symm.trans h.1) (by decide)
    intro socket payload port address hmem
    rw [hdhcp] at hmem
    exact absurd hmem (client_not_mem_handleDHCP c id _)
  · rw [handleUDP_flow hdatagram hnat hport]
    split
    · rename_i hthrows
      refine iff_of_false ?_ (not_not.mpr hthrows)
      intro h
      obtain ⟨effects, houtputs, haccounted⟩ := h.forwarded hother hport
      obtain rfl : effects = [] := List.map_eq_nil_iff.mp houtputs.symm
      exact not_accounted_silent _ _ _ haccounted
    · rename_i hquiet
      have haccounted := sendFlow_accounted cfg env hflows datagram.payload
        (flowInfoOf parsed datagram)
      refine iff_of_true ⟨?_, fun _ _ => haccounted⟩ hquiet
      intro socket payload port address hmem
      obtain ⟨effects, houtputs, -⟩ := haccounted
      rw [houtputs] at hmem
      simp at hmem

/-- Every datagram of the VM goes where it belongs exactly if it does not go
astray, whatever the flows, the NAT table and the forwards are. -/
theorem demuxed_iff (hflows : UDPFlowManager.Reachable cfg (c.session id).udpFlows)
    (hdatagram : parseUDPDatagram parsed = some datagram) :
    c.Demuxed cfg id parsed datagram (c.handleUDP cfg env id parsed).1
        (c.handleUDP cfg env id parsed).2 ↔
      ¬c.GoesAstray cfg env id parsed datagram := by
  cases hnat : c.natEntry id datagram.dstPort with
  | some entry => exact demuxed_iff_of_nat hdatagram hnat
  | none => exact demuxed_iff_of_free hflows.coherent hdatagram hnat

/-- A datagram to `dstIP`, from port 1234 of the VM at 10.0.2.15, with two bytes
of payload. -/
def exampleDatagram (dstIP : Bytes) (dstPort : Nat) : Bytes :=
  [0x45, 0, 0, 30, 0, 0, 0, 0, 64, 17, 0, 0, 10, 0, 2, 15] ++ dstIP ++
    [4, 210, UInt8.ofNat (dstPort / 256), UInt8.ofNat dstPort, 0, 10, 0, 0] ++ [104, 105]

theorem demuxed_iff_query :
    ∃ parsed datagram, parseIPv4Packet (exampleDatagram [8, 8, 8, 8] 53) = some parsed ∧
      parseUDPDatagram parsed = some datagram ∧
      (({} : Relay).Demuxed {} 0 parsed datagram (({} : Relay).handleUDP {} {} 0 parsed).1
          (({} : Relay).handleUDP {} {} 0 parsed).2 ↔
        ¬({} : Relay).GoesAstray {} {} 0 parsed datagram) := by
  obtain ⟨parsed, hparsed⟩ := Option.isSome_iff_exists.mp
    (by decide +kernel : (parseIPv4Packet (exampleDatagram [8, 8, 8, 8] 53)).isSome)
  have hdatagram : ((parseIPv4Packet (exampleDatagram [8, 8, 8, 8] 53)).bind
      parseUDPDatagram).isSome := by decide +kernel
  rw [hparsed] at hdatagram
  obtain ⟨datagram, hdatagram⟩ := Option.isSome_iff_exists.mp hdatagram
  exact ⟨parsed, datagram, hparsed, hdatagram,
    demuxed_iff (Transition.Reaches.refl _) hdatagram⟩

/-- A datagram for 8.8.8.8 whose destination port is the ephemeral port of a
port-forward client goes to that client instead. -/
theorem exists_diverted_datagram :
    ∃ (c : Relay) (parsed : ParsedIPv4) (datagram : UDPDatagram), Reachable {} c ∧
      parseUDPDatagram parsed = some datagram ∧
      ¬c.Demuxed {} 0 parsed datagram (c.handleUDP {} {} 0 parsed).1
        (c.handleUDP {} {} 0 parsed).2 := by
  let events : List Event :=
    [.open, .frame {} 0 (exampleARP [0x52, 0x54, 0, 0, 0, 1]), .udpListening 1 0,
      .proxyDatagram (poolAddress 15) 5000 [104, 105] ⟨⟨203, 0, 113, 9⟩, 6000, 1, 0⟩ 40000]
  let parsed : ParsedIPv4 :=
    ⟨exampleDatagram [8, 8, 8, 8] 40000, 20, 30, 17, poolAddress 15, ⟨8, 8, 8, 8⟩, false, 0⟩
  refine ⟨({} : Relay).after {} events, parsed, ⟨1234, 40000, 10, [104, 105]⟩,
    ⟨events, run_after (by decide +kernel)⟩, by decide +kernel, ?_⟩
  intro h
  have hgateway := (h.client 0 [104, 105] 6000 ⟨203, 0, 113, 9⟩ (by decide +kernel)).1
  exact absurd hgateway (by decide +kernel)

/-- What a step may do to the flow managers: nothing, one of their own steps, or
a new manager for a new session. -/
def FlowsStep (cfg : RelaySettings) (c c' : Relay) : Prop :=
  ∀ id, (c'.session id).udpFlows = (c.session id).udpFlows ∨
    (∃ event, UDPFlowManager.Step cfg (c.session id).udpFlows event (c'.session id).udpFlows) ∨
    (c'.session id).udpFlows = {}

theorem FlowsStep.of_eq {c' : Relay} (h : ∀ id, (c'.session id).udpFlows = (c.session id).udpFlows) :
    FlowsStep cfg c c' := fun id => .inl (h id)

theorem flowsStep_setSession (c : Relay) (id : SessionId) (s : VMSession)
    (h : s.udpFlows = (c.session id).udpFlows ∨
      (∃ event, UDPFlowManager.Step cfg (c.session id).udpFlows event s.udpFlows) ∨
      s.udpFlows = {}) : FlowsStep cfg c (c.setSession id s) := by
  intro t
  rw [session_setSession]
  split
  · rename_i ht
    rw [ht]
    exact h
  · exact .inl rfl

theorem udpFlows_assign (c : Relay) (id t : SessionId) (ip : Address) :
    ((c.assign id ip).session t).udpFlows = (c.session t).udpFlows := by
  change ((c.setSession id _).session t).udpFlows = _
  rw [session_setSession]
  split
  · rename_i ht
    rw [ht]
  · rfl

theorem udpFlows_learnMAC (c : Relay) (id t : SessionId) (mac : MAC) :
    ((c.learnMAC id mac).session t).udpFlows = (c.session t).udpFlows := by
  unfold learnMAC
  rw [session_setSession]
  split
  · rename_i ht
    rw [ht]
  · rfl

/-- ARP touches no flow. -/
theorem udpFlows_handleARP (c : Relay) (id t : SessionId) (arpPacket : Bytes) :
    ((c.handleARP cfg id arpPacket).1.session t).udpFlows = (c.session t).udpFlows := by
  unfold handleARP assignByMAC
  split
  · rfl
  · split
    · rfl
    · rename_i hassign
      split at hassign
      · split at hassign
        · cases hassign
        · cases hassign
          exact udpFlows_assign { c with registry := _ } id t _
      · cases hassign
        rfl

/-- DHCP touches no flow. -/
theorem udpFlows_handleDHCP (c : Relay) (id t : SessionId) (udp : Bytes) :
    ((c.handleDHCP cfg id udp).1.session t).udpFlows = (c.session t).udpFlows := by
  unfold handleDHCP assignByClient
  split
  · rfl
  · split
    · rfl
    · rename_i hassign
      split at hassign
      · cases hassign
      · dsimp only at hassign
        split at hassign
        · cases hassign
          exact udpFlows_assign { c with registry := _ } id t _
        · cases hassign
          rfl

theorem flowsStep_sendFlow (c : Relay) (id : SessionId) (payload : Bytes) (flowInfo : FlowInfo) :
    FlowsStep cfg c (c.sendFlow cfg env id payload flowInfo).1 :=
  flowsStep_setSession c id _ (.inr (.inl ⟨.send env payload flowInfo, rfl⟩))

/-- A packet of the VM is one operation of the flow manager of its session, or
none. -/
theorem flowsStep_handleUDP (c : Relay) (id : SessionId) (parsed : ParsedIPv4) :
    FlowsStep cfg c (c.handleUDP cfg env id parsed).1 := by
  have hsame : FlowsStep cfg c c := .of_eq fun _ => rfl
  unfold handleUDP
  split
  · exact hsame
  · dsimp only
    split
    · split <;> exact hsame
    · split
      · exact .of_eq fun t => udpFlows_handleDHCP c id t _
      · split
        · split
          · exact hsame
          · exact flowsStep_sendFlow c id _ _
        · exact flowsStep_sendFlow c id _ _

theorem flowsStep_handleIPv4 (cfg : RelaySettings) (env : Environment) (c : Relay) (id : SessionId)
    (ipPacket : Bytes) :
    FlowsStep cfg c (c.handleIPv4 cfg env id ipPacket).1 := by
  cases hparsed : parseIPv4Packet ipPacket with
  | none =>
      unfold handleIPv4
      rw [hparsed]
      exact .of_eq fun _ => rfl
  | some parsed =>
      by_cases hudp : c.reachesUDP cfg parsed
      · rw [handleIPv4_udp hparsed hudp]
        exact flowsStep_handleUDP c id parsed
      · rw [(handleIPv4_other hparsed hudp).1]
        exact .of_eq fun _ => rfl

/-- Every event of the relay changes the flows of a session by operations of its
manager. -/
theorem flowsStep_handle (cfg : RelaySettings) (c : Relay) (event : Event) :
    FlowsStep cfg c (c.handle cfg event).1 := by
  cases event with
  | «open» => exact flowsStep_setSession c c.nextSession {} (.inr (.inr rfl))
  | close id => exact flowsStep_setSession c id _ (.inr (.inl ⟨.close, rfl⟩))
  | flowEvent id event => exact flowsStep_setSession c id _ (.inr (.inl ⟨event, rfl⟩))
  | natTimer now id ephemeralPort =>
      change FlowsStep cfg c (c.natTimer now id ephemeralPort)
      unfold natTimer
      dsimp only
      split
      · exact .of_eq fun _ => rfl
      · split
        · exact flowsStep_setSession c id _ (.inl rfl)
        · exact .of_eq fun _ => rfl
  | proxyDatagram vm vmPort payload entry ephemeralPort =>
      unfold handle
      dsimp only
      split
      · exact .of_eq fun _ => rfl
      · exact flowsStep_setSession c _ _ (.inl rfl)
  | udpListening ruleId socket => exact .of_eq fun _ => rfl
  | udpStopped ruleId => exact .of_eq fun _ => rfl
  | frame env id data =>
      change FlowsStep cfg c (c.handleEthernetFrame cfg env id data).1
      unfold handleEthernetFrame
      split
      · exact .of_eq fun _ => rfl
      · dsimp only
        split
        · exact .of_eq fun t =>
            (udpFlows_handleARP _ id t _).trans (udpFlows_learnMAC c id t _)
        · split
          · intro t
            have hlearnt := udpFlows_learnMAC c id t (slice data 6 12)
            have hstep := flowsStep_handleIPv4 cfg env
              (c.learnMAC id (slice data 6 12)) id (data.drop 14) t
            rw [hlearnt] at hstep
            exact hstep
          · exact .of_eq fun t => udpFlows_learnMAC c id t _

/-- The flow manager of every session of a reachable relay is itself reachable,
by a run of its own steps. -/
theorem Reachable.udpFlows (h : Reachable cfg c) (id : SessionId) :
    UDPFlowManager.Reachable cfg (c.session id).udpFlows := by
  have reach : Transition.Reaches (Step cfg) {} c := h
  suffices all : ∀ id, UDPFlowManager.Reachable cfg (c.session id).udpFlows from all id
  refine reach.invariant (P := fun c => ∀ id, UDPFlowManager.Reachable cfg (c.session id).udpFlows)
    ?_ ?_
  · rintro before event after hbefore ⟨-, rfl⟩ t
    rcases flowsStep_handle cfg before event t with heq | ⟨e, hstep⟩ | hnew
    · rw [heq]
      exact hbefore t
    · exact (hbefore t).tail hstep
    · rw [hnew]
      exact Transition.Reaches.refl _
  · exact fun _ => Transition.Reaches.refl _

end Relay

end RootlessRelay
