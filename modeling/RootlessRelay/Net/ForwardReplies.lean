import RootlessRelay.Net.AddressInvariant
import RootlessRelay.Net.IPv4Packet
import RootlessRelay.Net.NatPorts
import RootlessRelay.Udp.Demux

/-!
# Datagrams of a port forward and their answers

A datagram for a forwarded port reaches the VM from an ephemeral port of the
gateway, and what the VM sends to that port goes back to the client. The entry
that remembers the client is overwritten by no other datagram and removed by its
timer alone, so it is there for every answer within the 30 s that the timer
allows.

The statement is about runs: after the client's datagram anything may happen,
other clients, other sessions, closes and timers, as long as the timer of this
entry does not find it old. What the VM is then sent and what the client gets
back are both packets on the wire, read back by the relay's own parsers.
-/

namespace RootlessRelay

open InsertionMap Transition

namespace Relay

variable {cfg : RelaySettings} {c c' : Relay} {id : SessionId} {event : Event} {entry : NatEntry}
  {p : Port}

/-- The timer of the entry at port `p` does not find it 30 s old. Timers of
other entries may run at any time. -/
def InTime (id : SessionId) (p : Port) (lastSeen : Nat) (_ : Relay) : Event → Prop
  | .natTimer now id' p' => id' = id → p' = p → now ≤ lastSeen + 30000
  | _ => True

instance (id : SessionId) (p : Port) (lastSeen : Nat) (c : Relay) :
    (event : Event) → Decidable (InTime id p lastSeen c event)
  | .natTimer now id' p' =>
    inferInstanceAs (Decidable (id' = id → p' = p → now ≤ lastSeen + 30000))
  | .open | .frame _ _ _ | .close _ | .proxyDatagram _ _ _ _ _ | .flowEvent _ _ |
    .udpListening _ _ | .udpStopped _ => inferInstanceAs (Decidable True)

/-- The session has been opened, and its table holds the entry. A session that
has not been opened would begin with an empty table. -/
structure Remembers (id : SessionId) (p : Port) (entry : NatEntry) (c : Relay) : Prop where
  created : id < c.nextSession
  held : c.natEntry id p = some entry

theorem Remembers.congr (h : Remembers id p entry c) (hnext : c.nextSession ≤ c'.nextSession)
    (htable : c'.natTable id = c.natTable id) : Remembers id p entry c' := by
  refine ⟨Nat.lt_of_lt_of_le h.created hnext, ?_⟩
  have hheld := h.held
  change get (c.natTable id) p = some entry at hheld
  change get (c'.natTable id) p = some entry
  rw [htable]
  exact hheld

theorem nextSession_apply (cfg : RelaySettings) (d : Directory) (action : AddressAction) :
    d.nextSession ≤ (d.apply cfg action).nextSession := by
  cases action with
  | idle => exact Nat.le_refl _
  | connect => exact Nat.le_succ _
  | close id => exact Nat.le_refl _
  | frame id srcMAC requested =>
      have hlearn : (d.learnFrom id srcMAC).nextSession = d.nextSession :=
        Directory.learnFrom_nextSession d id srcMAC
      obtain he | ⟨-, -, registry, -, -, -, -, he⟩ | ⟨-, ip, registry, -, -, -, he⟩ :=
        Directory.apply_frame_cases cfg d id srcMAC requested
      all_goals
        rw [he]
        exact Nat.le_of_eq hlearn.symm

theorem nextSession_handle (cfg : RelaySettings) (c : Relay) (event : Event) :
    c.nextSession ≤ (c.handle cfg event).1.nextSession := by
  have hdirectory : (c.handle cfg event).1.directory.nextSession = _ :=
    congrArg Directory.nextSession (directory_handle c event)
  exact (nextSession_apply cfg c.directory _).trans (Nat.le_of_eq hdirectory.symm)

/-- Another entry, or the same table again: a write to a free port leaves the
entries there alone. -/
theorem get_set_free {table : List (Port × NatEntry)} {p' : Port} {entry' : NatEntry}
    (hheld : get table p = some entry) (hfree : hasKey table p' = false) :
    get (set table p' entry') p = some entry := by
  rw [get_set]
  split
  · rename_i hsame
    rw [hsame, hasKey_eq_isSome, hheld] at hfree
    cases hfree
  · exact hheld

/-- The table remembers a client through every event but the timer that finds
its entry 30 s old. -/
theorem Remembers.step (h : Remembers id p entry c) (hstep : Step cfg c event c')
    (hin : InTime id p entry.lastSeen c event) : Remembers id p entry c' := by
  obtain ⟨henabled, rfl⟩ := hstep
  have hnext := nextSession_handle cfg c event
  cases event with
  | «open» =>
      refine h.congr hnext ?_
      change (c.setSession c.nextSession {}).natTable id = _
      rw [natTable_setSession, if_neg (Nat.ne_of_lt h.created)]
  | frame env id' data => exact h.congr hnext (natTable_handleEthernetFrame c env id' data id)
  | close id' => exact h.congr hnext (natTable_setFlows c id' _ id)
  | flowEvent id' event => exact h.congr hnext (natTable_setFlows c id' _ id)
  | udpListening ruleId socket => exact h.congr hnext rfl
  | udpStopped ruleId => exact h.congr hnext rfl
  | proxyDatagram vm vmPort payload entry' p' =>
      refine ⟨Nat.lt_of_lt_of_le h.created hnext, ?_⟩
      have hheld : get (c.natTable id) p = some entry := h.held
      change get ((c.handle cfg (.proxyDatagram vm vmPort payload entry' p')).1.natTable id) p = _
      cases hroute : c.registry.routeOf vm with
      | none =>
          simp only [handle, hroute]
          exact hheld
      | some id' =>
          obtain ⟨draws, hends⟩ := (enabled_proxyDatagram_iff hroute).mp henabled
          simp only [handle, hroute, forwardUdpPacket, natTable_setSession]
          split
          · rename_i hsame
            subst hsame
            exact get_set_free hheld (searchPort_free hends).1
          · exact hheld
  | natTimer now id' p' =>
      refine ⟨Nat.lt_of_lt_of_le h.created hnext, ?_⟩
      have hheld : get (c.natTable id) p = some entry := h.held
      change get ((c.natTimer now id' p').natTable id) p = _
      unfold natTimer
      dsimp only
      split
      · exact hheld
      · rename_i entry' hentry
        split
        · rename_i hlate
          rw [natTable_setSession]
          split
          · rename_i hsession
            have hne : p' ≠ p := by
              intro hsame
              rw [← hsession, hsame] at hentry
              have hown : entry' = entry := Option.some.inj (hentry.symm.trans hheld)
              exact Nat.not_lt.mpr (hin hsession.symm hsame) (hown ▸ hlate)
            rw [get_delete, if_neg hne, ← hsession]
            exact hheld
          · exact hheld
        · exact hheld

theorem Remembers.of_run {events : List Event} (h : Remembers id p entry c)
    (hrun : Run (Restrict (Step cfg) (InTime id p entry.lastSeen)) c events c') :
    Remembers id p entry c' :=
  hrun.invariant (fun _ _ _ hremembers hstep => hremembers.step hstep.2 hstep.1) h

/-- A datagram for the VM leaves an entry behind, under the port it is sent
from. -/
theorem remembers_proxyDatagram (h : Reachable cfg c) {vm : Address} {vmPort : Port}
    {payload : Bytes} (hroute : c.registry.routeOf vm = some id)
    (hstep : Step cfg c (.proxyDatagram vm vmPort payload entry p) c') :
    Remembers id p entry c' := by
  have hnext := nextSession_handle cfg c (.proxyDatagram vm vmPort payload entry p)
  obtain ⟨-, rfl⟩ := hstep
  have hcreated : id < c.nextSession := by
    by_contra hlate
    have hnone := h.wellFormed.fresh id (Nat.le_of_not_lt hlate)
    rw [h.wellFormed.routes vm id hroute] at hnone
    cases hnone
  refine ⟨Nat.lt_of_lt_of_le hcreated hnext, ?_⟩
  change get ((c.handle cfg (.proxyDatagram vm vmPort payload entry p)).1.natTable id) p = _
  simp only [handle, hroute, forwardUdpPacket, natTable_setSession, if_true]
  rw [get_set, if_pos rfl]

/-- A frame that brings a datagram is left to `handleUDP`, after its source
address has been learnt. -/
theorem handle_datagram {frame : Bytes} {parsed : ParsedIPv4} {datagram : UDPDatagram}
    (hdatagram : c.datagramFrom cfg frame = some (parsed, datagram)) (env : Environment)
    (id : SessionId) :
    parseUDPDatagram parsed = some datagram ∧ c.handle cfg (.frame env id frame) =
      (c.learnMAC id (slice frame 6 12)).handleUDP cfg env id parsed := by
  unfold datagramFrom at hdatagram
  split at hdatagram
  · cases hdatagram
  rename_i hguard
  split at hdatagram
  · cases hdatagram
  rename_i parsed' hparsed
  split at hdatagram
  swap
  · cases hdatagram
  rename_i hudp
  obtain ⟨datagram', hread, hpair⟩ := Option.map_eq_some_iff.mp hdatagram
  obtain ⟨rfl, rfl⟩ := Prod.mk.inj hpair
  obtain ⟨hlength, htype⟩ := not_or.mp hguard
  have htype' : readUInt16BE frame 12 = 0x0800 := not_not.mp htype
  refine ⟨hread, ?_⟩
  change c.handleEthernetFrame cfg env id frame = _
  unfold handleEthernetFrame
  rw [if_neg hlength]
  dsimp only
  rw [if_neg (by rw [htype']; decide), if_pos htype']
  exact handleIPv4_udp (c := c.learnMAC id (slice frame 6 12)) hparsed hudp

/-- What a frame brings to the port of an entry goes to its client, whatever
address the VM has put in. -/
theorem handle_reply {env : Environment} {frame : Bytes} {parsed : ParsedIPv4}
    {datagram : UDPDatagram} (hdatagram : c.datagramFrom cfg frame = some (parsed, datagram))
    (hnat : c.natEntry id datagram.dstPort = some entry) :
    c.handle cfg (.frame env id frame) = (c.learnMAC id (slice frame 6 12),
      ((get c.udpProxySockets entry.ruleId).map fun socket =>
        Output.client socket datagram.payload entry.port entry.address).toList) := by
  obtain ⟨hread, hhandle⟩ := handle_datagram hdatagram env id
  have hlearnt : (c.learnMAC id (slice frame 6 12)).natEntry id datagram.dstPort = some entry := by
    rw [← hnat]
    exact congrArg (get · datagram.dstPort) (natTable_setSession_same c id
      { c.session id with vmMAC := some (slice frame 6 12) } rfl id)
  rw [hhandle, handleUDP_nat hread hlearnt]
  rfl

theorem GATEWAY_IP_canonical (cfg : RelaySettings) : cfg.GATEWAY_IP.Canonical :=
  ⟨Nat.le_of_lt_succ (Nat.mod_lt _ (by decide)), Nat.le_of_lt_succ (Nat.mod_lt _ (by decide)),
    Nat.le_of_lt_succ (Nat.mod_lt _ (by decide)), Nat.le_of_lt_succ (Nat.mod_lt _ (by decide))⟩

/-- The datagram the VM gets for a client's: from the gateway and the ephemeral
port, with the payload unchanged. -/
theorem sendUDPToVM_forwarded {vm : Address} {vmPort identification : Nat} {payload : Bytes}
    (hvm : vm.Canonical) (hlength : payload.length ≤ 65507) (hp : p ≤ 0xffff)
    (hvmPort : vmPort ≤ 0xffff) (hidentification : identification ≤ 0xffff) :
    ∃ packet, sendUDPToVM payload p vmPort (.string cfg.GATEWAY_IP.text) (.string vm.text)
        identification = .ok packet ∧
      ∀ padding, ∃ parsed, parseIPv4Packet (packet ++ padding) = some parsed ∧
        parsed.srcIP = cfg.GATEWAY_IP ∧ parsed.dstIP = vm ∧
        parseUDPDatagram parsed =
          some { srcPort := p, dstPort := vmPort, length := 8 + payload.length, payload } := by
  have hgateway := GATEWAY_IP_canonical cfg
  obtain ⟨packet, hsent, hread⟩ := sendUDPToVM_roundTrip hlength hp hvmPort hidentification
    (ipv4Bytes_text hgateway) (ipv4Bytes_text hvm)
  refine ⟨packet, hsent, fun padding => ?_⟩
  obtain ⟨parsed, hparsed, -, hsrc, hdst, hdatagram⟩ := hread padding
  rw [formatIPv4_octets hgateway] at hsrc
  rw [formatIPv4_octets hvm] at hdst
  exact ⟨parsed, hparsed, hsrc, hdst, hdatagram⟩

/-- A client's datagram reaches the VM from an ephemeral port of the gateway.
For the 30 s in which the entry cannot expire, whatever else the relay does in
the meantime, every datagram of the VM to that port goes back to the client as
it is, from the forward's socket, and to nobody else. -/
theorem forward_roundTrip (h : Reachable cfg c) {vm : Address} {vmPort : Port} {payload : Bytes}
    {c₁ : Relay} {events : List Event} (hroute : c.registry.routeOf vm = some id)
    (hstep : Step cfg c (.proxyDatagram vm vmPort payload entry p) c₁)
    (hrun : Run (Restrict (Step cfg) (InTime id p entry.lastSeen)) c₁ events c')
    (hvm : vm.Canonical) (hlength : payload.length ≤ 65507) (hvmPort : vmPort ≤ 0xffff) :
    (c.handle cfg (.proxyDatagram vm vmPort payload entry p)).2 =
        [.udpToVM id payload p vmPort cfg.GATEWAY_IP (some vm)] ∧
      (∀ identification, identification ≤ 0xffff → ∃ packet,
        sendUDPToVM payload p vmPort (.string cfg.GATEWAY_IP.text) (.string vm.text)
          identification = .ok packet ∧
        ∀ padding, ∃ parsed, parseIPv4Packet (packet ++ padding) = some parsed ∧
          parsed.srcIP = cfg.GATEWAY_IP ∧ parsed.dstIP = vm ∧
          parseUDPDatagram parsed =
            some { srcPort := p, dstPort := vmPort, length := 8 + payload.length, payload }) ∧
      ∀ env frame parsed datagram, c'.datagramFrom cfg frame = some (parsed, datagram) →
        datagram.dstPort = p →
          c'.handle cfg (.frame env id frame) = (c'.learnMAC id (slice frame 6 12),
            ((get c'.udpProxySockets entry.ruleId).map fun socket =>
              Output.client socket datagram.payload entry.port entry.address).toList) := by
  have hremembers := remembers_proxyDatagram h hroute hstep
  have hp : p ≤ 0xffff := by
    obtain ⟨draws, hends⟩ := (enabled_proxyDatagram_iff hroute).mp hstep.1
    exact Nat.le_of_lt ((searchPort_free hends).2.2.trans (by decide))
  refine ⟨?_, fun identification hidentification =>
    sendUDPToVM_forwarded hvm hlength hp hvmPort hidentification,
    fun env frame parsed datagram hdatagram hport => ?_⟩
  · have hown : (c.session id).vmIP = some vm := h.wellFormed.routes vm id hroute
    simp only [handle, hroute, forwardUdpPacket, hown]
  · exact handle_reply hdatagram (hport ▸ (hremembers.of_run hrun).held)

/-- A VM with a forward, and a socket of the host that listens for it. -/
def exampleForward : List Event := exampleStart ++ [.udpListening 1 0]

/-- A frame of the VM to port 40000 of the gateway. -/
def exampleAnswer : Bytes :=
  [0x52, 0x54, 0, 0x12, 0x34, 0x56, 0x52, 0x54, 0, 0, 0, 1, 0x08, 0x00] ++
    exampleDatagram [10, 0, 2, 2] 40000

/-- Another client's datagram and a timer in between do not matter. -/
theorem forward_roundTrip_answered : ∃ c : Relay,
    (c.handle {} (.frame {} 0 exampleAnswer)).2 =
      [.client 0 [104, 105] 6000 ⟨203, 0, 113, 9⟩] := by
  let entry : NatEntry := ⟨⟨203, 0, 113, 9⟩, 6000, 1, 0⟩
  let c : Relay := ({} : Relay).after {} exampleForward
  let c₁ : Relay := c.after {} [.proxyDatagram exampleVM 5000 [104, 105] entry 40000]
  let events : List Event := [.proxyDatagram exampleVM 5000 [7] exampleEntry 40001,
    .natTimer 30000 0 40000]
  have hreach : Reachable {} c := ⟨exampleForward, run_after (by decide +kernel)⟩
  have hroute : c.registry.routeOf exampleVM = some 0 := by decide +kernel
  have hstep : Step {} c (.proxyDatagram exampleVM 5000 [104, 105] entry 40000) c₁ :=
    ⟨by decide +kernel, rfl⟩
  have hpossible : c₁.possible {} events = true := by decide +kernel
  have hrun : Run (Restrict (Step {}) (InTime 0 40000 entry.lastSeen)) c₁ events
      (c₁.after {} events) :=
    (run_after hpossible).restrict fun event hmem c => by
      simp only [events, List.mem_cons, List.not_mem_nil, or_false] at hmem
      obtain rfl | rfl := hmem
      · exact trivial
      · exact fun _ _ => by decide
  obtain ⟨-, -, hanswers⟩ := forward_roundTrip hreach hroute hstep hrun
    ⟨by decide, by decide, by decide, by decide⟩ (by decide) (by decide)
  have hbrings : (c₁.after {} events).datagramFrom {} exampleAnswer =
      some (⟨exampleDatagram [10, 0, 2, 2] 40000, 20, 30, 17, poolAddress 15, ⟨10, 0, 2, 2⟩,
        false, 0⟩, ⟨1234, 40000, 10, [104, 105]⟩) := by
    decide +kernel
  refine ⟨_, (congrArg Prod.snd (hanswers {} exampleAnswer _ _ hbrings rfl)).trans ?_⟩
  decide +kernel

end Relay

end RootlessRelay
